import Mathlib.Data.List.Sort
import Mathlib.Data.Prod.Lex
import Mathlib.Data.String.Basic
import TableQuery.Evaluation.Query
import TableQuery.Proofs.Decimal.Value
import TableQuery.Proofs.Except

/-!
# The contents of cells

What a cell says, whatever the scale of its number.  Comparing and sorting
cells, and applying operators to them, depends on contents alone.
-/

namespace TableQuery

theorem cmp_toLex {α β : Type} [LinearOrder α] [LinearOrder β]
    (a a' : α) (b b' : β) :
    cmp (toLex (a, b)) (toLex (a', b')) = (cmp a a').then (cmp b b') := by
  rcases lt_trichotomy a a' with ha | rfl | ha
  · have hlex : toLex (a, b) < toLex (a', b') :=
      Prod.Lex.toLex_lt_toLex.mpr (.inl ha)
    rw [(cmp_eq_lt_iff _ _).mpr ha, (cmp_eq_lt_iff _ _).mpr hlex]
    rfl
  · rw [cmp_self_eq_eq, Ordering.then]
    unfold cmp cmpUsing
    simp only [Prod.Lex.toLex_lt_toLex, lt_self_iff_false, true_and, false_or]
  · have hlex : toLex (a', b') < toLex (a, b) :=
      Prod.Lex.toLex_lt_toLex.mpr (.inl ha)
    rw [(cmp_eq_gt_iff _ _).mpr ha, (cmp_eq_gt_iff _ _).mpr hlex]
    rfl

namespace Cell

/-! ## Contents -/

def size : Cell → ℚ
  | boolean true => 1
  | number n => n.value
  | _ => 0

def letters : Cell → String
  | string s | temporal s => s
  | _ => ""

abbrev Place : Type := Nat ×ₗ ℚ ×ₗ String

/-- Where a cell stands among all cells. -/
def place (c : Cell) : Place := toLex (c.rank, toLex (c.size, c.letters))

def isTemporal : Cell → Bool
  | temporal _ => true
  | _ => false

/-- What a cell says.  Cells of one place differ at most in whether they are
temporal. -/
def content (c : Cell) : Place × Bool := (c.place, c.isTemporal)

theorem same_iff {a b : Cell} : a.same b = true ↔ a.content = b.content := by
  rcases a with _ | (_ | _) | _ | _ | _ <;>
    rcases b with _ | (_ | _) | _ | _ | _ <;>
    simp [same, content, place, rank, size, letters, isTemporal,
      Decimal.sameValue_iff]

theorem eq_or_numbers {a b : Cell} (h : a.content = b.content) :
    a = b ∨ ∃ m n, a = number m ∧ b = number n ∧ m.value = n.value := by
  rw [← same_iff] at h
  cases a <;> cases b <;> simp_all [same, Decimal.sameValue_iff]

theorem content_number {m n : Decimal} (h : m.value = n.value) :
    (number m).content = (number n).content := by
  simp [content, place, rank, size, letters, isTemporal, h]

theorem place_eq_of_content {a b : Cell} (h : a.content = b.content) :
    a.place = b.place :=
  congrArg Prod.fst h

theorem rank_eq_of_place {a b : Cell} (h : a.place = b.place) :
    a.rank = b.rank :=
  congrArg (·.1) h

theorem isNull_eq_of_rank {a b : Cell} (h : a.rank = b.rank) :
    a.isNull = b.isNull := by
  cases a <;> cases b <;> simp_all [rank, isNull]

/-- Cells of one place have the same contents if no string is among them beside
a temporal cell. -/
theorem content_eq_of_place {a b : Cell} (h : a.place = b.place)
    (hab : ∀ s t, ¬(a = string s ∧ b = temporal t))
    (hba : ∀ s t, ¬(b = string s ∧ a = temporal t)) :
    a.content = b.content := by
  have hrank := rank_eq_of_place h
  have htemporal : a.isTemporal = b.isTemporal := by
    cases a <;> cases b <;> simp_all [rank, isTemporal]
  rw [content, content, h, htemporal]

/-! ## Order -/

theorem compareText_eq_cmp (a b : String) : compareText a b = cmp a b := by
  rw [cmp_eq_compareOfLessAndEq]
  rfl

theorem compare_bool (a b : Bool) :
    Ord.compare a b = cmp (boolean a).size (boolean b).size := by
  cases a <;> cases b
  case false.false => exact (cmp_self_eq_eq (0 : ℚ)).symm
  case false.true => exact ((cmp_eq_lt_iff (0 : ℚ) 1).mpr one_pos).symm
  case true.false => exact ((cmp_eq_gt_iff (1 : ℚ) 0).mpr one_pos).symm
  case true.true => exact (cmp_self_eq_eq (1 : ℚ)).symm

def comparePlaces (p q : Place) : Ordering := cmp p q

theorem comparePlaces_eq_lt_iff {p q : Place} :
    comparePlaces p q = .lt ↔ p < q :=
  cmp_eq_lt_iff p q

theorem comparePlaces_eq_eq_iff {p q : Place} :
    comparePlaces p q = .eq ↔ p = q :=
  cmp_eq_eq_iff p q

theorem comparePlaces_eq_gt_iff {p q : Place} :
    comparePlaces p q = .gt ↔ q < p :=
  cmp_eq_gt_iff p q

theorem comparePlaces_place (a b : Cell) :
    comparePlaces a.place b.place =
      (cmp a.rank b.rank).then
        ((cmp a.size b.size).then (cmp a.letters b.letters)) := by
  rw [comparePlaces, place, place, cmp_toLex, cmp_toLex]

theorem compare?_of_rank_eq {a b : Cell} (hrank : a.rank = b.rank)
    (hnull : a.isNull = false) :
    a.compare? b =
      some ((cmp a.size b.size).then (cmp a.letters b.letters)) := by
  have htext : ∀ s t : String,
      some (compareText s t) = some ((cmp (0 : ℚ) 0).then (cmp s t)) := by
    intro s t
    rw [compareText_eq_cmp, cmp_self_eq_eq]
    rfl
  cases a with
  | null => cases hnull
  | boolean a =>
      cases b with
      | boolean b =>
          change some (Ord.compare a b) =
            some ((cmp (boolean a).size (boolean b).size).then (cmp "" ""))
          rw [compare_bool, cmp_self_eq_eq, Ordering.then_eq]
      | _ => cases hrank
  | number m =>
      cases b with
      | number n =>
          change some (m.compare n) =
            some ((cmp m.value n.value).then (cmp "" ""))
          rw [Decimal.compare_eq_cmp, cmp_self_eq_eq, Ordering.then_eq]
      | _ => cases hrank
  | string s =>
      cases b with
      | string t => exact htext s t
      | temporal t => exact htext s t
      | _ => cases hrank
  | temporal s =>
      cases b with
      | string t => exact htext s t
      | temporal t => exact htext s t
      | _ => cases hrank

theorem comparePlaces_of_rank_eq {a b : Cell} (h : a.rank = b.rank) :
    comparePlaces a.place b.place =
      (cmp a.size b.size).then (cmp a.letters b.letters) := by
  rw [comparePlaces_place, h, cmp_self_eq_eq]
  rfl

theorem compare?_of_rank_ne {a b : Cell} (h : a.rank ≠ b.rank) :
    a.compare? b = none := by
  cases a <;> cases b <;> first | rfl | exact absurd rfl h

theorem compare?_eq (a b : Cell) :
    a.compare? b = if a.rank = b.rank ∧ a.isNull = false then
    some (comparePlaces a.place b.place)
      else none := by
  by_cases hrank : a.rank = b.rank
  · cases hnull : a.isNull with
    | true =>
        cases a <;> cases hnull
        cases b <;> rfl
    | false =>
        rw [compare?_of_rank_eq hrank hnull, comparePlaces_of_rank_eq hrank,
          if_pos ⟨hrank, rfl⟩]
  · rw [compare?_of_rank_ne hrank, if_neg fun h => hrank h.1]

theorem compare_eq (a b : Cell) :
    a.compare b = comparePlaces a.place b.place := by
  by_cases hrank : a.rank = b.rank
  · cases hnull : a.isNull with
    | true =>
        cases a <;> cases hnull
        cases b <;> cases hrank
        exact (comparePlaces_eq_eq_iff.mpr rfl).symm
    | false =>
        rw [compare, compare?_of_rank_eq hrank hnull,
          comparePlaces_of_rank_eq hrank]
  · rw [compare, compare?_of_rank_ne hrank, comparePlaces_place,
      cmp_eq_compare a.rank]
    cases hcmp : Ord.compare a.rank b.rank with
    | eq => exact absurd (compare_eq_iff_eq.mp hcmp) hrank
    | lt => rfl
    | gt => rfl

end Cell

/-! ## Sorting -/

theorem Direction.compare_congr (d : Direction) {a a' b b' : Cell}
    (ha : a.content = a'.content) (hb : b.content = b'.content) :
    d.compare a b = d.compare a' b' := by
  cases d <;>
    simp only [Direction.compare, Cell.compare_eq, Cell.place_eq_of_content ha,
      Cell.place_eq_of_content hb]

theorem compareKeys_congr {directions : List Direction}
    {as as' bs bs' : List Cell}
    (ha : as.map Cell.content = as'.map Cell.content)
    (hb : bs.map Cell.content = bs'.map Cell.content) :
    compareKeys directions as bs = compareKeys directions as' bs' := by
  induction directions generalizing as as' bs bs' with
  | nil => rfl
  | cons d directions ih =>
      cases as with
      | nil =>
          rw [List.map_eq_nil_iff.mp ha.symm]
          rfl
      | cons a as =>
          obtain ⟨a', as', rfl, ha', has⟩ := List.map_eq_cons_iff.mp ha.symm
          cases bs with
          | nil =>
              rw [List.map_eq_nil_iff.mp hb.symm]
              rfl
          | cons b bs =>
              obtain ⟨b', bs', rfl, hb', hbs⟩ := List.map_eq_cons_iff.mp hb.symm
              rw [compareKeys, compareKeys, d.compare_congr ha'.symm hb'.symm,
                ih has.symm hbs.symm]

theorem mergeSort_eq_of_perm {α : Type} [LinearOrder α] {as bs : List α}
    (h : as.Perm bs) : as.mergeSort = bs.mergeSort := by
  have hperm :=
    (as.mergeSort_perm (· ≤ ·)).trans (h.trans (bs.mergeSort_perm (· ≤ ·)).symm)
  exact hperm.eq_of_pairwise' (List.pairwise_mergeSort' _ as)
    (List.pairwise_mergeSort' _ bs)

/-- Sorting keeps items related, if the order looks only at what related items
share. -/
theorem forall₂_mergeSort {α β : Type} {R : α → β → Prop} {le : α → α → Bool}
    {le' : β → β → Bool}
    (hle : ∀ a b a' b', R a a' → R b b' → le a b = le' a' b') {as : List α}
    {bs : List β} (h : List.Forall₂ R as bs) :
    List.Forall₂ R (as.mergeSort le) (bs.mergeSort le') := by
  have hlength := h.length_eq
  have hmem : ∀ p ∈ as.zip bs, R p.1 p.2 := fun p hp => List.forall₂_zip h hp
  -- Sorting the pairs by their first halves sorts the second halves too.
  let sorted := (as.zip bs).mergeSort fun p q => le p.1 q.1
  have hfst : sorted.map Prod.fst = as.mergeSort le := by
    conv_rhs => rw [← List.map_fst_zip hlength.le]
    exact List.map_mergeSort fun _ _ _ _ => rfl
  have hsnd : sorted.map Prod.snd = bs.mergeSort le' := by
    conv_rhs => rw [← List.map_snd_zip hlength.ge]
    exact List.map_mergeSort fun p hp q hq =>
      hle _ _ _ _ (hmem p hp) (hmem q hq)
  rw [← hfst, ← hsnd, List.forall₂_map_left_iff, List.forall₂_map_right_iff,
    List.forall₂_same]
  exact fun p hp => hmem p (List.mem_mergeSort.mp hp)

theorem forall₂_sortByKey {α β : Type} {R : α → β → Prop} {key : α → List Cell}
    {key' : β → List Cell} (directions : List Direction)
    (hkey : ∀ a b, R a b → (key a).map Cell.content = (key' b).map Cell.content)
    {as : List α} {bs : List β} (h : List.Forall₂ R as bs) :
    List.Forall₂ R (sortByKey directions key as)
      (sortByKey directions key' bs) := by
  apply forall₂_mergeSort _ h
  intro a b a' b' ha hb
  rw [compareKeys_congr (hkey a a' ha) (hkey b b' hb)]

/-! ## Operators -/

theorem Computation.checked_eq_ok_iff {c : Computation} {α : Type}
    {x : Option α} {a : α} : c.checked x = .ok a ↔ x = some a := by
  cases x <;> simp [Computation.checked]

theorem Computation.checked_congr (c : Computation) {x y : Option Decimal}
    (h : x.map Decimal.value = y.map Decimal.value) :
    Agree (fun m n => m.value = n.value) (c.checked x) (c.checked y) := by
  cases x <;> cases y <;> simp at h
  case none.none => exact .error _ _
  case some.some => exact .ok h

namespace Scalar

theorem truth_congr {a a' : Cell} (h : a.content = a'.content) :
    Agree Eq (truth a) (truth a') := by
  rcases Cell.eq_or_numbers h with rfl | ⟨m, n, rfl, rfl, -⟩
  · exact .refl Eq.refl _
  · exact .error _ _

theorem compare_congr {a a' b b' : Cell} (ha : a.content = a'.content)
    (hb : b.content = b'.content) :
    Agree Eq (Scalar.compare a b) (Scalar.compare a' b') := by
  have hplace := Cell.place_eq_of_content ha
  have hplace' := Cell.place_eq_of_content hb
  have hrank := Cell.rank_eq_of_place hplace
  have hcompare : a.compare? b = a'.compare? b' := by
    rw [Cell.compare?_eq, Cell.compare?_eq, hrank,
      Cell.rank_eq_of_place hplace', Cell.isNull_eq_of_rank hrank,
      hplace, hplace']
  unfold Scalar.compare
  rw [hcompare]
  split
  · exact .ok rfl
  · exact .error _ _

theorem arithmetic_congr (op : BinaryOp) {a a' b b' : Decimal}
    (ha : a.value = a'.value) (hb : b.value = b'.value) :
    Agree (fun x y => x.content = y.content) (arithmetic op a b)
      (arithmetic op a' b') := by
  have hchecked : ∀ {x y : Option Decimal},
      x.map Decimal.value = y.map Decimal.value →
      Agree (fun x y => x.content = y.content)
        (((Computation.operator op).checked x).map Cell.number)
        (((Computation.operator op).checked y).map Cell.number) :=
    fun h => (Computation.checked_congr _ h).map fun _ _ => Cell.content_number
  unfold arithmetic
  split
  · apply hchecked
    rw [Decimal.map_value_add?, Decimal.map_value_add?, ha, hb]
  · apply hchecked
    rw [Decimal.map_value_sub?, Decimal.map_value_sub?, ha, hb]
  · apply hchecked
    rw [Decimal.map_value_mul?, Decimal.map_value_mul?, ha, hb]
  · by_cases hzero : b.value = 0
    · rw [if_pos (Decimal.isZero_iff.mpr hzero),
        if_pos (Decimal.isZero_iff.mpr (hb ▸ hzero))]
      exact .ok rfl
    · have hzero' : b'.value ≠ 0 := hb ▸ hzero
      rw [if_neg (mt Decimal.isZero_iff.mp hzero),
        if_neg (mt Decimal.isZero_iff.mp hzero')]
      exact hchecked (Decimal.map_value_div?_congr ha hb)

theorem applyBinary_congr (op : BinaryOp) {a a' b b' : Cell}
    (ha : a.content = a'.content) (hb : b.content = b'.content) :
    Agree (fun x y => x.content = y.content) (applyBinary op a b)
      (applyBinary op a' b') := by
  have hnull :=
    Cell.isNull_eq_of_rank (Cell.rank_eq_of_place (Cell.place_eq_of_content ha))
  have hnull' :=
    Cell.isNull_eq_of_rank (Cell.rank_eq_of_place (Cell.place_eq_of_content hb))
  unfold applyBinary
  rw [hnull, hnull']
  split
  case isTrue =>
      apply (truth_congr ha).bind
      rintro x _ rfl
      apply (truth_congr hb).bind
      rintro y _ rfl
      exact .ok rfl
  case isFalse =>
      split
      case isTrue => exact .ok rfl
      case isFalse =>
          split
          case isTrue =>
              apply (compare_congr ha hb).bind
              rintro order _ rfl
              exact .ok rfl
          case isFalse =>
              rcases Cell.eq_or_numbers ha with rfl | ⟨m, n, rfl, rfl, hmn⟩ <;>
                rcases Cell.eq_or_numbers hb with rfl | ⟨m', n', rfl, rfl, hmn'⟩
              · apply Agree.refl
                exact fun _ => rfl
              · cases a with
                | number k => exact arithmetic_congr op rfl hmn'
                | _ => exact .error _ _
              · cases b with
                | number k => exact arithmetic_congr op hmn rfl
                | _ => exact .error _ _
              · exact arithmetic_congr op hmn hmn'

theorem applyUnary_congr (op : UnaryOp) {a a' : Cell}
    (h : a.content = a'.content) :
    Agree (fun x y => x.content = y.content) (applyUnary op a)
      (applyUnary op a') := by
  cases op with
  | not =>
      apply (truth_congr h).bind
      rintro x _ rfl
      exact .ok rfl
  | neg =>
      rcases Cell.eq_or_numbers h with rfl | ⟨m, n, rfl, rfl, hmn⟩
      · apply Agree.refl
        exact fun _ => rfl
      · apply Agree.ok
        apply Cell.content_number
        rw [Decimal.value_neg, Decimal.value_neg, hmn]

end Scalar

end TableQuery
