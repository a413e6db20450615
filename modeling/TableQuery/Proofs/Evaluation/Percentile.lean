import TableQuery.Proofs.Decimal.Rounding
import TableQuery.Proofs.Evaluation.Statistics

/-!
# When a percentile can be computed

The rank of a percentile lies within the sorted values, and what is left of it
behind the whole part is exact.  Of the steps that interpolate between two
neighbours, only their difference can overflow.
-/

namespace TableQuery.Statistics

open Decimal (overflowBound)

/-! ## Interpolation -/

section Interpolation

variable {low high step part fraction : Decimal}

/-- What is added to the lower value exceeds the difference by less than a half.
Where the difference is so large that a half can be added to it, the fraction
takes more than that away. -/
theorem part_lt (hle : low.value ≤ high.value) (hfraction : 0 ≤ fraction.value)
    (hlast : fraction.value ≤ 1 - 1 / Decimal.scaleFactor Decimal.maxScale)
    (hstep : high.sub? low = some step)
    (hpart : step.mul? fraction = some part) :
    part.value < high.value - low.value + 1 / 2 := by
  have hdifference : 0 ≤ high.value - low.value := sub_nonneg.mpr hle
  have hrounded := Decimal.value_of_sub? hstep
  have hroundedPart := Decimal.value_of_mul? hpart
  have hnonneg := Decimal.rounded_nonneg hrounded hdifference
  have hproduct : 0 ≤ step.value * fraction.value :=
    mul_nonneg hnonneg hfraction
  have hlost : step.value * fraction.value ≤
      step.value - step.value * (1 / Decimal.scaleFactor Decimal.maxScale) := by
    rw [← mul_one_sub]
    exact mul_le_mul_of_nonneg_left hlast hnonneg
  have herror := abs_le.mp (Decimal.abs_rounded_sub_le hrounded)
  rcases le_or_gt ((overflowBound - 5) / 10) step.value with hlarge | hsmall
  · have hdigit : 7 / 10 ≤
      step.value * (1 / Decimal.scaleFactor Decimal.maxScale) := by
      calc (7 / 10 : ℚ)
        _ ≤ (overflowBound - 5) / 10 * (1 /
          Decimal.scaleFactor Decimal.maxScale) := by
            norm_num [overflowBound, Decimal.coefficientBound,
              Decimal.scaleFactor, Decimal.maxScale]
        _ ≤ step.value * (1 / Decimal.scaleFactor Decimal.maxScale) := by gcongr
    have herrorPart := abs_le.mp (Decimal.abs_rounded_sub_le hroundedPart)
    linarith [herror.2, herrorPart.2]
  · have hkept : 0 ≤
      step.value * (1 / Decimal.scaleFactor Decimal.maxScale) := by positivity
    have hsize : |high.value - low.value| * 10 < overflowBound := by
      rw [abs_of_nonneg hdifference]
      linarith [herror.1]
    have hsizePart : |step.value * fraction.value| * 10 < overflowBound := by
      rw [abs_of_nonneg hproduct]
      linarith
    have htenth :=
      (abs_le.mp (Decimal.abs_rounded_sub_le_of_lt hrounded hsize)).2
    have htenthPart :=
      (abs_le.mp (Decimal.abs_rounded_sub_le_of_lt hroundedPart hsizePart)).2
    linarith

/-- Between two values in order, only their difference can overflow. -/
theorem interpolate?_eq_none_iff (hle : low.value ≤ high.value)
    (hfraction : 0 ≤ fraction.value)
    (hlast : fraction.value ≤ 1 - 1 / Decimal.scaleFactor Decimal.maxScale) :
    interpolate? low high fraction = none ↔ high.sub? low = none := by
  cases hstep : high.sub? low with
  | none => simp [interpolate?, hstep]
  | some step =>
      have hnonneg :=
        Decimal.rounded_nonneg (Decimal.value_of_sub? hstep)
          (sub_nonneg.mpr hle)
      have hlow := abs_le.mp (Decimal.abs_value_le low)
      have hhigh := abs_le.mp (Decimal.abs_value_le high)
      have hbound := abs_le.mp (Decimal.abs_value_le step)
      have hone : fraction.value ≤ 1 :=
        hlast.trans (sub_le_self _ (by positivity))
      have hproduct : 0 ≤ step.value * fraction.value :=
        mul_nonneg hnonneg hfraction
      have hproductLe : step.value * fraction.value ≤ step.value :=
        mul_le_of_le_one_right hnonneg hone
      cases hpart : step.mul? fraction with
      | none =>
          rw [Decimal.mul?_eq_none_iff, abs_of_nonneg hproduct] at hpart
          linarith [hbound.2]
      | some part =>
          have hpartNonneg :=
            Decimal.rounded_nonneg (Decimal.value_of_mul? hpart) hproduct
          have hpartBound := abs_le.mp (Decimal.abs_value_le part)
          have hpartLt := part_lt hle hfraction hlast hstep hpart
          have hsum : |low.value + part.value| < overflowBound := by
            rw [abs_lt]
            constructor
            · linarith [hlow.1]
            · linarith [hhigh.2]
          have hadd : low.add? part ≠ none := by
            rw [Ne, Decimal.add?_eq_none_iff, not_le]
            exact hsum
          simpa [interpolate?, hstep, hpart] using hadd

end Interpolation

/-! ## Ranks -/

theorem exists_rank {n : Nat} (hn : 0 < n) {p : Decimal} (hzero : 0 ≤ p.value)
    (hone : p.value ≤ 1) :
    ∃ rank fraction, p.mul? (.ofNat (n - 1)) = some rank ∧
      rank.sub? rank.floor = some fraction ∧ rank.floor.toInt.toNat < n ∧
      fraction.value = Int.fract rank.value := by
  have hcount : (Decimal.ofNat (n - 1)).value ≤ (n - 1 : Nat) := by
    rw [Decimal.value_ofNat]
    exact Nat.cast_le.mpr (Nat.min_le_left _ _)
  have hnonneg : 0 ≤ (Decimal.ofNat (n - 1)).value := by
    rw [Decimal.value_ofNat]
    exact Nat.cast_nonneg _
  have hproduct : 0 ≤ p.value * (Decimal.ofNat (n - 1)).value :=
    mul_nonneg hzero hnonneg
  have hproductLe := mul_le_of_le_one_left hnonneg hone
  cases hrank : p.mul? (.ofNat (n - 1)) with
  | none =>
      have hbound := (abs_le.mp (Decimal.abs_value_le (.ofNat (n - 1)))).2
      rw [Decimal.mul?_eq_none_iff, abs_of_nonneg hproduct] at hrank
      linarith
  | some rank =>
      have hrounded := Decimal.value_of_mul? hrank
      have hrankNonneg := Decimal.rounded_nonneg hrounded hproduct
      have hrankLe :=
        Decimal.rounded_le hrounded hproduct (hproductLe.trans hcount)
      have hexact : (rank.sub? rank.floor).map Decimal.value =
          some (Int.fract rank.value) := by
        rw [Decimal.map_value_sub?, Decimal.value_floor]
        exact Decimal.rounded_fract rank
      obtain ⟨fraction, hfraction, hvalue⟩ := Option.map_eq_some_iff.mp hexact
      refine ⟨rank, fraction, rfl, hfraction, ?_, hvalue⟩
      rw [Decimal.toInt_floor]
      have hfloor : ⌊rank.value⌋ ≤ (n - 1 : Nat) := by
        rw [← Int.floor_natCast (R := ℚ) (n - 1)]
        exact Int.floor_le_floor hrankLe
      have hfloorNonneg : 0 ≤ ⌊rank.value⌋ := Int.floor_nonneg.mpr hrankNonneg
      omega

theorem pairwise_sorted (values : List Decimal) :
    (sorted values).Pairwise fun a b => a.value ≤ b.value := by
  have htrans : ∀ a b c : Decimal, a.le b → b.le c → a.le c :=
    fun a b c hab hbc =>
    Decimal.le_iff.mpr ((Decimal.le_iff.mp hab).trans (Decimal.le_iff.mp hbc))
  have htotal : ∀ a b : Decimal, a.le b || b.le a := fun a b => by
    simpa [Decimal.le_iff] using le_total a.value b.value
  have hsorted := List.pairwise_mergeSort htrans htotal values
  exact hsorted.imp Decimal.le_iff.mp

theorem value_le_value_getD_succ {values : List Decimal} {i : Nat}
    {low : Decimal} (h : (sorted values)[i]? = some low) :
    low.value ≤ ((sorted values)[i + 1]?.getD low).value := by
  cases hnext : (sorted values)[i + 1]? with
  | none => exact le_refl _
  | some high =>
      obtain ⟨hi, rfl⟩ := List.getElem?_eq_some_iff.mp h
      obtain ⟨hj, rfl⟩ := List.getElem?_eq_some_iff.mp hnext
      exact List.pairwise_iff_getElem.mp (pairwise_sorted values) i
        (i + 1) hi hj (Nat.lt_succ_self i)

/-! ## Percentiles -/

/-- The percentile of a group with numbers finds its rank among them.  It is
given up if and only if the values on both sides of the rank are so far apart
that their difference does not fit, and it is a number otherwise. -/
theorem percentile_aborts_iff {values : List Decimal} (hvalues : values ≠ [])
    {p : Decimal} (hzero : 0 ≤ p.value) (hone : p.value ≤ 1) :
    ∃ rank fraction low high : Decimal,
      p.mul? (.ofNat (values.length - 1)) = some rank ∧
      rank.sub? rank.floor = some fraction ∧
      (sorted values)[rank.floor.toInt.toNat]? = some low ∧
      (sorted values)[rank.floor.toInt.toNat + 1]?.getD low = high ∧
      (percentile values p = .error (.aborted .interpolation) ↔
        overflowBound ≤ high.value - low.value) ∧
      (high.value - low.value < overflowBound →
        ∃ value, percentile values p = .ok (.number value)) := by
  obtain ⟨rank, fraction, hrank, hfraction, hindex, hexact⟩ :=
    exists_rank (List.length_pos_iff.mpr hvalues) hzero hone
  have hlength : rank.floor.toInt.toNat < (sorted values).length := by
    rw [sorted, List.length_mergeSort]
    exact hindex
  have hlow := List.getElem?_eq_getElem hlength
  have hle := value_le_value_getD_succ hlow
  generalize (sorted values)[rank.floor.toInt.toNat] = low at hlow hle
  generalize hhigh : (sorted values)[rank.floor.toInt.toNat + 1]?.getD low =
    high at hle
  have hpercentile : percentile? values p = interpolate? low high fraction := by
    simp [percentile?, hrank, hfraction, hlow, hhigh]
  have hnone : percentile? values p = none ↔
      overflowBound ≤ high.value - low.value := by
    rw [hpercentile,
      interpolate?_eq_none_iff hle (by rw [hexact]; exact Int.fract_nonneg _)
        (by rw [hexact]; exact Decimal.fract_value_le rank),
      Decimal.sub?_eq_none_iff, abs_of_nonneg (sub_nonneg.mpr hle)]
  refine ⟨rank, fraction, low, high, hrank, hfraction, hlow, hhigh, ?_,
    fun hfits => ?_⟩
  · rw [← hnone, percentile, if_neg (by simpa using hvalues)]
    cases percentile? values p <;> simp
  · cases hvalue : percentile? values p with
    | none => exact absurd (hnone.mp hvalue) (not_le.mpr hfits)
    | some value =>
        exact ⟨value,
          by rw [percentile, if_neg (by simpa using hvalues), hvalue]⟩

def largest : Decimal :=
  ⟨false, Decimal.coefficientBound - 1, 0, by decide, by decide⟩

theorem value_largest : largest.value = overflowBound - 1 / 2 := by
  norm_num [largest, overflowBound, Decimal.value, Decimal.signed,
    Decimal.scaleFactor, Decimal.coefficientBound]

def extremes : List Decimal := [largest.neg, largest]

theorem sorted_extremes : sorted extremes = extremes :=
  List.mergeSort_of_pairwise (by decide)

theorem percentile_aborts_iff_extremes :
    extremes ≠ [] ∧ 0 ≤ Decimal.half.value ∧ Decimal.half.value ≤ 1 ∧
      percentile extremes .half = .error (.aborted .interpolation) := by
  have hne : extremes ≠ [] := List.cons_ne_nil _ _
  have hzero : 0 ≤ Decimal.half.value := by norm_num [Decimal.value_half]
  have hone : Decimal.half.value ≤ 1 := by norm_num [Decimal.value_half]
  obtain ⟨rank, fraction, low, high, hrank, -, hlow, hhigh, haborts, -⟩ :=
    percentile_aborts_iff hne hzero hone
  have hhalf : Decimal.half.mul? (.ofNat (extremes.length - 1)) =
      some .half := by rfl
  rw [hhalf, Option.some.injEq] at hrank
  subst hrank
  rw [sorted_extremes] at hlow hhigh
  have hnext : extremes[Decimal.half.floor.toInt.toNat + 1]?.getD low =
      largest := rfl
  cases hlow
  refine ⟨hne, hzero, hone, haborts.mpr ?_⟩
  rw [← hhigh, hnext, Decimal.value_neg, value_largest]
  norm_num [overflowBound, Decimal.coefficientBound]

theorem not_forall_percentile_avoids_abort :
    ¬ ∀ (values : List Decimal) (p : Decimal), values ≠ [] → 0 ≤ p.value →
      p.value ≤ 1 → ∀ cause, percentile values p ≠ .error (.aborted cause) := by
  intro h
  have hnone : percentile? extremes .half = none := by
    simp only [percentile?, sorted_extremes]
    rfl
  refine h extremes .half (List.cons_ne_nil _ _) ?_ ?_ .interpolation ?_
  · norm_num [Decimal.value_half]
  · norm_num [Decimal.value_half]
  · rw [percentile, hnone]
    rfl

end TableQuery.Statistics
