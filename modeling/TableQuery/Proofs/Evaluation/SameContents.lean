import TableQuery.Proofs.Evaluation.Contents
import TableQuery.Proofs.Evaluation.Groups

/-!
# Rows of the same contents

Adding up cumulative columns and sorting a grouped result looks at the contents
of its cells alone, so rows of the same contents stay rows of the same contents.
-/

namespace TableQuery.Database

/-! ## Rows of cells -/

def SameContents (as bs : List Cell) : Prop :=
  as.map Cell.content = bs.map Cell.content

theorem SameContents.getElem? {as bs : List Cell} (h : SameContents as bs)
    (i : Nat) :
    (as[i]? = none ∧ bs[i]? = none) ∨
      ∃ a b, as[i]? = some a ∧ bs[i]? = some b ∧ a.content = b.content := by
  have hcell := congrArg (·[i]?) h
  simp only [List.getElem?_map] at hcell
  cases ha : as[i]? <;> cases hb : bs[i]? <;> simp [ha, hb] at hcell
  case none.none => exact .inl ⟨rfl, rfl⟩
  case some.some a b => exact .inr ⟨a, b, rfl, rfl, hcell⟩

theorem sameContents_iff {as bs : List Cell} :
    SameContents as bs ↔ List.Forall₂ (fun a b => a.same b = true) as bs := by
  simp only [SameContents, Cell.same_iff, ← List.forall₂_eq_eq_eq,
    List.forall₂_map_left_iff, List.forall₂_map_right_iff]

/-! ## Running totals -/

theorem addToTotal_congr {total total' : Decimal}
    (htotal : total.value = total'.value) {a b : Cell}
    (h : a.content = b.content) :
    Agree (fun m n => m.value = n.value) (addToTotal total a)
      (addToTotal total' b) := by
  have hadd : ∀ {m n : Decimal}, m.value = n.value →
      Agree (fun m n => m.value = n.value)
        (addToTotal total (.number m)) (addToTotal total' (.number n)) := by
    intro m n hmn
    apply Computation.checked_congr
    rw [Decimal.map_value_add?, Decimal.map_value_add?, htotal, hmn]
  rcases Cell.eq_or_numbers h with rfl | ⟨m, n, rfl, rfl, hmn⟩
  · cases a with
    | number n => exact hadd rfl
    | _ => exact .ok htotal
  · exact hadd hmn

theorem accumulate_cons (c : Nat) (total : Decimal) (row : List Cell)
    (rows : List (List Cell)) :
    accumulate c total (row :: rows) =
      match row[c]? with
      | none => .error (.aborted .missingColumn)
      | some cell => do
        let total ← addToTotal total cell
        let rest ← accumulate c total rows
        return row.set c (.number total) :: rest := by
  rw [accumulate]
  cases row[c]? with
  | none => rfl
  | some cell => cases cell <;> rfl

theorem accumulate_congr {c : Nat} {total total' : Decimal}
    (htotal : total.value = total'.value) {rows rows' : List (List Cell)}
    (h : List.Forall₂ SameContents rows rows') :
    Agree (List.Forall₂ SameContents) (accumulate c total rows)
      (accumulate c total' rows') := by
  induction h generalizing total total' with
  | nil => exact .ok .nil
  | cons hrow _ ih =>
      rw [accumulate_cons, accumulate_cons]
      rcases hrow.getElem? c with ⟨hx, hy⟩ | ⟨x, y, hx, hy, hxy⟩
      · rw [hx, hy]
        exact .error _ _
      · rw [hx, hy]
        apply (addToTotal_congr htotal hxy).bind
        intro t t' ht
        apply (ih ht).bind
        intro rest rest' hrest
        apply Agree.ok
        apply List.Forall₂.cons _ hrest
        rw [SameContents, List.map_set, List.map_set, hrow,
          Cell.content_number ht]

theorem accumulateAll_congr {first : Nat} {aggs : List Aggregation}
    {rows rows' : List (List Cell)} (h : List.Forall₂ SameContents rows rows') :
    Agree (List.Forall₂ SameContents) (accumulateAll first aggs rows)
      (accumulateAll first aggs rows') := by
  induction aggs generalizing first rows rows' with
  | nil => exact .ok h
  | cons a aggs ih =>
      rw [accumulateAll_cons, accumulateAll_cons]
      apply Agree.bind (R := List.Forall₂ SameContents)
      · split
        case isTrue => exact accumulate_congr rfl h
        case isFalse => exact .ok h
      · exact fun _ _ => ih

/-! ## Sorted results -/

theorem map_content_cellsAt (columns : List Nat) (row : List Cell) :
    (cellsAt columns row).map Cell.content =
      ((columns.map ((row.map Cell.content)[·]?)).takeWhile
        Option.isSome).filterMap id := by
  induction columns with
  | nil => rfl
  | cons c columns ih =>
      rw [cellsAt] at ih ⊢
      simp only [List.map_cons, List.getElem?_map, List.takeWhile_cons]
      cases row[c]? with
      | none => rfl
      | some cell => simpa using ih

theorem cellsAt_congr {as bs : List Cell} (h : SameContents as bs)
    (columns : List Nat) :
    SameContents (cellsAt columns as) (cellsAt columns bs) := by
  rw [SameContents, map_content_cellsAt, map_content_cellsAt, h]

theorem leavesRow_congr {directions : List Direction} {columns : List Nat}
    {as as' bs bs' : List Cell} (ha : SameContents as as')
    (hb : SameContents bs bs') :
    leavesRow directions columns as bs =
      leavesRow directions columns as' bs' := by
  have hx := cellsAt_congr ha columns
  have hy := cellsAt_congr hb columns
  have hlength := congrArg List.length hx
  have hlength' := congrArg List.length hy
  simp only [List.length_map] at hlength hlength'
  rw [leavesRow, leavesRow, hlength, hlength', compareKeys_congr hx hy]

theorem any_leavesRow_congr {directions : List Direction} {columns : List Nat}
    {rows rows' : List (List Cell)} (h : List.Forall₂ SameContents rows rows') :
    ((rows.zip (rows.drop 1)).any fun (a, b) =>
      leavesRow directions columns a b) =
      (rows'.zip (rows'.drop 1)).any fun (a, b) =>
        leavesRow directions columns a b := by
  induction h with
  | nil => rfl
  | cons hfirst hrest ih =>
      cases hrest with
      | nil => rfl
      | cons hsecond hrest =>
          simp only [List.drop_succ_cons, List.drop_zero, List.zip_cons_cons,
            List.any_cons] at ih ⊢
          rw [leavesRow_congr hfirst hsecond, ih]

theorem sortGroups_congr {breakouts : List Breakout} {orders : List OrderBy}
    {rows rows' : List (List Cell)} (h : List.Forall₂ SameContents rows rows') :
    Agree (List.Forall₂ SameContents) (sortGroups breakouts orders rows)
      (sortGroups breakouts orders rows') := by
  apply (Agree.refl Eq.refl (orders.mapM (orderColumn breakouts))).bind
  rintro columns _ rfl
  have hsorted :=
    forall₂_sortByKey (R := SameContents) (orders.map (·.direction))
      (fun _ _ hrow => cellsAt_congr hrow columns) h
  dsimp only
  rw [any_leavesRow_congr hsorted]
  split
  case isTrue => exact .error _ _
  case isFalse => exact .ok hsorted

end TableQuery.Database
