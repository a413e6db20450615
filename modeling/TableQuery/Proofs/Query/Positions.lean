import Mathlib.Data.List.InsertIdx
import TableQuery.Query.Renumbering

/-!
# Positions in an edited list

Where the items of a list are found once one of them is inserted, erased or
moved: at the positions that the renumbering functions give.
-/

namespace TableQuery

variable {α : Type}

def moveItem (start stop : Nat) (items : List α) : List α :=
  match items[start]? with
  | some item => (items.eraseIdx start).insertIdx stop item
  | none => items

theorem indexAfterInsert_indexAfterErase {index i : Nat} (h : i ≠ index) :
    indexAfterInsert index (indexAfterErase index i) = i := by
  unfold indexAfterInsert indexAfterErase
  split <;> split <;> omega

theorem indexAfterInsert_ne (index i : Nat) :
    indexAfterInsert index i ≠ index := by
  unfold indexAfterInsert
  split <;> omega

theorem indexAfterInsert_lt {index i j : Nat} (h : i < j) :
    indexAfterInsert index i < indexAfterInsert index j := by
  unfold indexAfterInsert
  split <;> split <;> omega

theorem getElem?_insertIdx_indexAfterInsert (items : List α) (index i : Nat)
    (item : α) :
    (items.insertIdx index item)[indexAfterInsert index i]? = items[i]? := by
  rw [List.getElem?_insertIdx, indexAfterInsert]
  by_cases h : index ≤ i
  · have hlt : ¬ i + 1 < index := by omega
    have hne : i + 1 ≠ index := by omega
    simp [h, hlt, hne]
  · have hlt : i < index := by omega
    simp [h, hlt]

theorem getElem?_insertIdx_eq_some {items : List α} {index i : Nat} {item x : α}
    (h : (items.insertIdx index item)[i]? = some x) :
    (i = index ∧ x = item) ∨ ∃ j, i = indexAfterInsert index j ∧
      items[j]? = some x := by
  by_cases hi : i = index
  · refine .inl ⟨hi, ?_⟩
    rw [hi, List.getElem?_insertIdx_self] at h
    split at h <;> simp_all
  · refine .inr ⟨indexAfterErase index i,
      (indexAfterInsert_indexAfterErase hi).symm, ?_⟩
    rw [← h, ← getElem?_insertIdx_indexAfterInsert items index
      (indexAfterErase index i) item,
      indexAfterInsert_indexAfterErase hi]

theorem take_subset_take_insertIdx (items : List α) (index i : Nat) (item : α) :
    items.take i ⊆ (items.insertIdx index item).take
      (indexAfterInsert index i) := by
  intro x hx
  obtain ⟨k, hk, rfl⟩ := List.mem_take_iff_getElem.mp hx
  have hlength : k < items.length := by omega
  refine List.mem_of_getElem? (i := indexAfterInsert index k) ?_
  rw [List.getElem?_take_of_lt (indexAfterInsert_lt (by omega)),
    getElem?_insertIdx_indexAfterInsert, List.getElem?_eq_getElem hlength]

theorem getElem?_eraseIdx_indexAfterErase (items : List α) {index i : Nat}
    (h : i ≠ index) :
    (items.eraseIdx index)[indexAfterErase index i]? = items[i]? := by
  rw [List.getElem?_eraseIdx, indexAfterErase]
  by_cases hlt : index < i
  · have hge : ¬ i - 1 < index := by omega
    have hback : i - 1 + 1 = i := by omega
    simp [hlt, hge, hback]
  · have hlt' : i < index := by omega
    simp [hlt, hlt']

/-- What an erased list has at a place stood, before, where an insertion would
have moved it. -/
theorem getElem?_eraseIdx_eq_indexAfterInsert (items : List α) (index i : Nat) :
    (items.eraseIdx index)[i]? = items[indexAfterInsert index i]? := by
  rw [List.getElem?_eraseIdx, indexAfterInsert]
  by_cases h : index ≤ i
  · have hlt : ¬ i < index := by omega
    simp [h, hlt]
  · have hlt : i < index := by omega
    simp [h, hlt]

theorem length_moveItem (items : List α) {start stop : Nat}
    (h : stop < items.length) :
    (moveItem start stop items).length = items.length := by
  unfold moveItem
  split
  case h_1 item hitem =>
      have hstart := (List.getElem?_eq_some_iff.mp hitem).1
      rw [List.length_insertIdx, List.length_eraseIdx_of_lt hstart,
        if_pos (by omega)]
      omega
  case h_2 => rfl

theorem getElem?_moveItem_indexAfterMove {items : List α} {start stop : Nat}
    (hstart : start < items.length) (hstop : stop < items.length) (i : Nat) :
    (moveItem start stop items)[indexAfterMove start stop i]? = items[i]? := by
  have hlength := List.length_eraseIdx_of_lt hstart
  simp only [moveItem, List.getElem?_eq_getElem hstart]
  rw [List.getElem?_insertIdx, List.getElem?_eraseIdx, List.getElem?_eraseIdx,
    hlength]
  unfold indexAfterMove
  by_cases hi : i = start
  · have hle : stop ≤ items.length - 1 := by omega
    simp [hi, hle]
  · -- The item stands beside the moved one, and is shifted only between the
    -- two places.
    repeat' split
    all_goals first
      | omega
      | (congr 1 <;> omega)

/-- What a moved list has at a place stood, before, where the reverse move would
put it. -/
theorem getElem?_moveItem {items : List α} {start stop : Nat}
    (hstart : start < items.length) (hstop : stop < items.length) (i : Nat) :
    (moveItem start stop items)[i]? = items[indexAfterMove stop start i]? := by
  have h :=
    getElem?_moveItem_indexAfterMove hstart hstop (indexAfterMove stop start i)
  rwa [indexAfterMove_indexAfterMove] at h

end TableQuery
