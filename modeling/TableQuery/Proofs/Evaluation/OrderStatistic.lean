import Mathlib.Data.List.GetD
import TableQuery.Proofs.Evaluation.Percentile

/-!
# Percentiles as order statistics

The numbers of a group in order, each standing at its index, are joined by a
line.  A percentile none of whose operations rounds or overflows is the height
of that line at its rank.
-/

namespace TableQuery.Statistics

/-! ## The line through numbers in order -/

/-- The height at `x` of the line through the numbers of a list, the `k`-th of
which stands at `k`. -/
def lineAt (numbers : List ℚ) (x : ℚ) : ℚ :=
  numbers.getD ⌊x⌋₊ 0 + (numbers.getD ⌈x⌉₊ 0 - numbers.getD ⌊x⌋₊ 0) * (x - ⌊x⌋₊)

section Line

variable {numbers : List ℚ} {x y : ℚ}

theorem lineAt_natCast (numbers : List ℚ) (k : Nat) :
    lineAt numbers k = numbers.getD k 0 := by
  simp [lineAt]

theorem getD_le_getD (hordered : numbers.Pairwise (· ≤ ·))
    {i j : Nat} (hij : i ≤ j) (hj : j < numbers.length) :
    numbers.getD i 0 ≤ numbers.getD j 0 := by
  have hi : i < numbers.length := by omega
  rw [List.getD_eq_getElem _ _ hi, List.getD_eq_getElem _ _ hj]
  rcases Nat.eq_or_lt_of_le hij with rfl | hlt
  · exact le_refl _
  · exact List.pairwise_iff_getElem.mp hordered i j hi hj hlt

theorem le_lineAt (hordered : numbers.Pairwise (· ≤ ·)) (hx : 0 ≤ x)
    (hlast : ⌈x⌉₊ < numbers.length) :
    numbers.getD ⌊x⌋₊ 0 ≤ lineAt numbers x := by
  have hstep :=
    sub_nonneg.mpr (getD_le_getD hordered (Nat.floor_le_ceil x) hlast)
  have hpart := sub_nonneg.mpr (Nat.floor_le hx)
  exact le_add_of_nonneg_right (mul_nonneg hstep hpart)

theorem lineAt_le (hordered : numbers.Pairwise (· ≤ ·))
    (hlast : ⌈x⌉₊ < numbers.length) :
    lineAt numbers x ≤ numbers.getD ⌈x⌉₊ 0 := by
  have hstep :=
    sub_nonneg.mpr (getD_le_getD hordered (Nat.floor_le_ceil x) hlast)
  have hpart : x - ⌊x⌋₊ ≤ 1 := by
    rw [sub_le_iff_le_add']
    exact (Nat.lt_floor_add_one x).le
  have hbelow := mul_le_of_le_one_right hstep hpart
  unfold lineAt
  linarith

theorem min?_of_perm {others : List ℚ} (hperm : others.Perm numbers)
    (hordered : numbers.Pairwise (· ≤ ·)) (hpos : 0 < numbers.length) :
    others.min? = some (numbers.getD 0 0) := by
  rw [List.min?_eq_some_iff, hperm.mem_iff]
  constructor
  · rw [List.getD_eq_getElem _ _ hpos]
    exact List.getElem_mem hpos
  · intro number hnumber
    obtain ⟨i, hi, rfl⟩ := List.mem_iff_getElem.mp (hperm.mem_iff.mp hnumber)
    rw [← List.getD_eq_getElem numbers 0 hi]
    exact getD_le_getD hordered (Nat.zero_le i) hi

theorem max?_of_perm {others : List ℚ} (hperm : others.Perm numbers)
    (hordered : numbers.Pairwise (· ≤ ·)) (hpos : 0 < numbers.length) :
    others.max? = some (numbers.getD (numbers.length - 1) 0) := by
  have hlast : numbers.length - 1 < numbers.length := by omega
  rw [List.max?_eq_some_iff, hperm.mem_iff]
  constructor
  · rw [List.getD_eq_getElem _ _ hlast]
    exact List.getElem_mem hlast
  · intro number hnumber
    obtain ⟨i, hi, rfl⟩ := List.mem_iff_getElem.mp (hperm.mem_iff.mp hnumber)
    rw [← List.getD_eq_getElem numbers 0 hi]
    exact getD_le_getD hordered (by omega) hlast

theorem lineAt_mono (hordered : numbers.Pairwise (· ≤ ·)) (hx : 0 ≤ x)
    (hxy : x ≤ y) (hlast : ⌈y⌉₊ < numbers.length) :
    lineAt numbers x ≤ lineAt numbers y := by
  have hceil : ⌈x⌉₊ ≤ ⌈y⌉₊ := Nat.ceil_mono hxy
  rcases Nat.lt_or_ge ⌊y⌋₊ ⌈x⌉₊ with hinside | hbeyond
  · -- No number stands between `x` and `y`.
    have hfloor : ⌊y⌋₊ = ⌊x⌋₊ := by
      have := Nat.ceil_le_floor_add_one x
      have := Nat.floor_mono hxy
      omega
    have hnext : ⌈y⌉₊ = ⌈x⌉₊ := by
      have := Nat.ceil_le_floor_add_one y
      omega
    have hstep :=
      sub_nonneg.mpr (getD_le_getD hordered (Nat.floor_le_ceil y) hlast)
    rw [hnext, hfloor] at hstep
    simp only [lineAt, hnext, hfloor]
    gcongr
  · calc lineAt numbers x ≤ numbers.getD ⌈x⌉₊ 0 := lineAt_le hordered (by omega)
      _ ≤ numbers.getD ⌊y⌋₊ 0 :=
        getD_le_getD hordered hbeyond ((Nat.floor_le_ceil y).trans_lt hlast)
      _ ≤ lineAt numbers y := le_lineAt hordered (hx.trans hxy) hlast

end Line

/-! ## Exact percentiles -/

/-- Neither the difference of two values, nor the part of it that a fraction
takes, nor the sum with the lower value is rounded or overflows. -/
def InterpolatesExactly (low high fraction : Decimal) : Prop :=
  ∃ step part result, high.sub? low = some step ∧
    step.value = high.value - low.value ∧ step.mul? fraction = some part ∧
    part.value = step.value * fraction.value ∧ low.add? part = some result ∧
    result.value = low.value + part.value

/-- No operation of a percentile rounds or overflows. -/
structure Exact (values : List Decimal) (p : Decimal) : Prop where
  count : (Decimal.ofNat (values.length - 1)).value = (values.length - 1 : Nat)
  steps : ∃ rank fraction, p.mul? (.ofNat (values.length - 1)) = some rank ∧
    rank.value = p.value * (Decimal.ofNat (values.length - 1)).value ∧
    rank.sub? rank.floor = some fraction ∧
    fraction.value = rank.value - rank.floor.value ∧ ∀ low,
    (sorted values)[rank.floor.toInt.toNat]? = some low →
      InterpolatesExactly low
        ((sorted values)[rank.floor.toInt.toNat + 1]?.getD low) fraction

def rankAt (n : Nat) (p : Decimal) : ℚ := p.value * (n - 1 : Nat)

section Exact

variable {values : List Decimal} {p : Decimal}

theorem InterpolatesExactly.exists_result {low high fraction : Decimal}
    (h : InterpolatesExactly low high fraction) :
    ∃ result, interpolate? low high fraction = some result ∧
      result.value = low.value + (high.value - low.value) * fraction.value := by
  obtain ⟨step, part, result, hstep, hstepValue, hpart, hpartValue, hresult,
      hresultValue⟩ := h
  refine ⟨result, by simp [interpolate?, hstep, hpart, hresult], ?_⟩
  rw [hresultValue, hpartValue, hstepValue]

theorem rankAt_nonneg (n : Nat) (hzero : 0 ≤ p.value) : 0 ≤ rankAt n p :=
  mul_nonneg hzero (Nat.cast_nonneg _)

theorem ceil_rankAt_lt {n : Nat} (hn : 0 < n) (hone : p.value ≤ 1) :
    ⌈rankAt n p⌉₊ < n := by
  have hlast : rankAt n p ≤ (n - 1 : Nat) :=
    mul_le_of_le_one_left (Nat.cast_nonneg _) hone
  have := Nat.ceil_le.mpr hlast
  omega

theorem pairwise_map_value_sorted (values : List Decimal) :
    ((sorted values).map Decimal.value).Pairwise (· ≤ ·) :=
  List.pairwise_map.mpr (pairwise_sorted values)

theorem getD_map_value {values : List Decimal} {i : Nat} {v : Decimal}
    (h : values[i]? = some v) :
    (values.map Decimal.value).getD i 0 = v.value := by
  rw [List.getD_eq_getElem?_getD, List.getElem?_map, h]
  rfl

theorem lineAt_sorted {x : ℚ} (hx : 0 ≤ x) (hlast : ⌈x⌉₊ < values.length)
    {low : Decimal} (hlow : (sorted values)[⌊x⌋₊]? = some low) :
    lineAt ((sorted values).map Decimal.value) x =
      low.value + (((sorted values)[⌊x⌋₊ + 1]?.getD low).value - low.value) *
      (x - ⌊x⌋₊) := by
  rw [lineAt, getD_map_value hlow]
  rcases (Nat.floor_le hx).eq_or_lt with hwhole | hpart
  · simp only [hwhole, sub_self, mul_zero]
  · have hceil : ⌈x⌉₊ = ⌊x⌋₊ + 1 :=
      Nat.le_antisymm (Nat.ceil_le_floor_add_one x) (Nat.lt_ceil.mpr hpart)
    have hnext : ⌊x⌋₊ + 1 < (sorted values).length := by
      rw [sorted, List.length_mergeSort]
      omega
    have hhigh := List.getElem?_eq_getElem hnext
    rw [hceil, getD_map_value hhigh, hhigh, Option.getD_some]

/-- Where nothing is rounded, a percentile is on the line through the sorted
values. -/
theorem Exact.exists_percentile (h : Exact values p) (hvalues : values ≠ [])
    (hzero : 0 ≤ p.value) (hone : p.value ≤ 1) :
    ∃ result, percentile values p = .ok (.number result) ∧
      result.value =
      lineAt ((sorted values).map Decimal.value) (rankAt values.length p) := by
  obtain ⟨rank, fraction, hrank, hrankValue, hfraction, hfractionValue,
      hsteps⟩ := h.steps
  have hlength := List.length_pos_iff.mpr hvalues
  have hnonneg := rankAt_nonneg values.length hzero
  have hlast := ceil_rankAt_lt hlength hone
  rw [h.count] at hrankValue
  change rank.value = rankAt values.length p at hrankValue
  generalize rankAt values.length p = x at hrankValue hnonneg hlast ⊢
  have hindex : rank.floor.toInt.toNat = ⌊x⌋₊ := by
    rw [Decimal.toInt_floor, Int.floor_toNat, hrankValue]
  have hpart : fraction.value = x - ⌊x⌋₊ := by
    rw [hfractionValue, Decimal.value_floor, hrankValue,
      natCast_floor_eq_intCast_floor hnonneg]
  have hlow := List.getElem?_eq_getElem
    (show ⌊x⌋₊ < (sorted values).length by
      rw [sorted, List.length_mergeSort]
      exact (Nat.floor_le_ceil x).trans_lt hlast)
  rw [hindex] at hsteps
  obtain ⟨result, hresult, hvalue⟩ := (hsteps _ hlow).exists_result
  refine ⟨result, ?_, ?_⟩
  · have hpercentile : percentile? values p = some result := by
      simp [percentile?, hrank, hfraction, hindex, hlow, hresult]
    rw [percentile, if_neg (by simpa using hvalues), hpercentile]
  · rw [hvalue, hpart, lineAt_sorted hnonneg hlast hlow]

theorem length_sorted (values : List Decimal) :
    ((sorted values).map Decimal.value).length = values.length := by
  rw [List.length_map, sorted, List.length_mergeSort]

theorem perm_map_value_sorted (values : List Decimal) :
    (values.map Decimal.value).Perm ((sorted values).map Decimal.value) :=
  ((List.mergeSort_perm values _).map _).symm

theorem map_value_eq_sorted {ordered : List Decimal}
    (hperm : ordered.Perm values)
    (hordered : ordered.Pairwise fun a b => a.value ≤ b.value) :
    ordered.map Decimal.value = (sorted values).map Decimal.value :=
  ((hperm.map _).trans (perm_map_value_sorted values)).eq_of_pairwise'
    (List.pairwise_map.mpr hordered) (pairwise_map_value_sorted values)

/-- The line stays between the values that are next to a place. -/
theorem exists_neighbours {ordered : List Decimal}
    (hordered : ordered.Pairwise fun a b => a.value ≤ b.value)
    {x : ℚ} (hx : 0 ≤ x) (hlast : ⌈x⌉₊ < ordered.length) :
    ∃ low high, ordered[⌊x⌋₊]? = some low ∧ ordered[⌈x⌉₊]? = some high ∧
      low.value ≤ lineAt (ordered.map Decimal.value) x ∧
      lineAt (ordered.map Decimal.value) x ≤ high.value := by
  have hnumbers : (ordered.map Decimal.value).Pairwise (· ≤ ·) :=
    List.pairwise_map.mpr hordered
  have hlength : ⌈x⌉₊ < (ordered.map Decimal.value).length := by
    rwa [List.length_map]
  have hlow := List.getElem?_eq_getElem ((Nat.floor_le_ceil x).trans_lt hlast)
  have hhigh := List.getElem?_eq_getElem hlast
  refine ⟨_, _, hlow, hhigh, ?_, ?_⟩
  · rw [← getD_map_value hlow]
    exact le_lineAt hnumbers hx hlength
  · rw [← getD_map_value hhigh]
    exact lineAt_le hnumbers hlength

theorem exists_extremes (hvalues : values ≠ []) (hzero : 0 ≤ p.value)
    (hone : p.value ≤ 1) :
    ∃ least greatest, (values.map Decimal.value).min? = some least ∧
      (values.map Decimal.value).max? = some greatest ∧
      least ≤ lineAt ((sorted values).map Decimal.value)
          (rankAt values.length p) ∧
      lineAt ((sorted values).map Decimal.value) (rankAt values.length p) ≤
        greatest ∧
      (p.value = 0 →
        lineAt ((sorted values).map Decimal.value) (rankAt values.length p) =
          least) ∧
      (p.value = 1 →
        lineAt ((sorted values).map Decimal.value) (rankAt values.length p) =
          greatest) := by
  have hpos := List.length_pos_iff.mpr hvalues
  have hrank := rankAt_nonneg values.length hzero
  have hlast := ceil_rankAt_lt hpos hone
  have hlength := length_sorted values
  have hordered := pairwise_map_value_sorted values
  have hperm := perm_map_value_sorted values
  have hmin := min?_of_perm hperm hordered (by omega)
  have hmax := max?_of_perm hperm hordered (by omega)
  rw [hlength] at hmax
  refine ⟨_, _, hmin, hmax, ?_, ?_, ?_, ?_⟩
  · have hfirst := Nat.zero_le ⌊rankAt values.length p⌋₊
    have hfloor := (Nat.floor_le_ceil (rankAt values.length p)).trans_lt hlast
    exact (getD_le_getD hordered hfirst (by omega)).trans
      (le_lineAt hordered hrank (by omega))
  · have hend : ⌈rankAt values.length p⌉₊ ≤ values.length - 1 := by omega
    exact (lineAt_le hordered (by omega)).trans
      (getD_le_getD hordered hend (by omega))
  · intro hp
    have hstart : rankAt values.length p = (0 : Nat) := by
      rw [rankAt, hp, zero_mul, Nat.cast_zero]
    rw [hstart, lineAt_natCast]
  · intro hp
    have hend : rankAt values.length p = (values.length - 1 : Nat) := by
      rw [rankAt, hp, one_mul]
    rw [hend, lineAt_natCast]

theorem exists_percentile_of_perm {values' : List Decimal}
    (hperm : values'.Perm values) {result : Decimal}
    (hresult : percentile values p = .ok (.number result)) :
    ∃ result', percentile values' p = .ok (.number result') ∧
      result'.value = result.value := by
  obtain ⟨cell, hcell, hcontent⟩ :=
    (percentile_perm hperm.symm rfl).exists_right hresult
  rcases Cell.eq_or_numbers hcontent with rfl | ⟨m, n, hm, rfl, hvalue⟩
  · exact ⟨result, hcell, rfl⟩
  · cases hm
    exact ⟨n, hcell, hvalue.symm⟩

theorem Exact.exists_later (h : Exact values p) (hvalues : values ≠ [])
    (hzero : 0 ≤ p.value) {q : Decimal} (hpq : p.value ≤ q.value)
    (hone : q.value ≤ 1) (hexact : Exact values q) {result : Decimal}
    (hresult : percentile values p = .ok (.number result)) :
    ∃ later, percentile values q = .ok (.number later) ∧
      result.value ≤ later.value := by
  obtain ⟨_, hfirst, hvalue⟩ :=
    h.exists_percentile hvalues hzero (hpq.trans hone)
  cases hresult.symm.trans hfirst
  obtain ⟨later, hlater, hlaterValue⟩ :=
    hexact.exists_percentile hvalues (hzero.trans hpq) hone
  refine ⟨later, hlater, ?_⟩
  rw [hvalue, hlaterValue]
  apply lineAt_mono (pairwise_map_value_sorted values) (rankAt_nonneg _ hzero)
  · exact mul_le_mul_of_nonneg_right hpq (Nat.cast_nonneg _)
  · rw [length_sorted]
    exact ceil_rankAt_lt (List.length_pos_iff.mpr hvalues) hone

/-- A percentile of a group with numbers is the continuous order statistic, if
no operation rounds or overflows: a value that does not hang on the order of the
numbers, between the two that are next to its rank in that order, at the `k`-th
of them if the rank is `k`, and not less for a greater share. -/
theorem percentile_orderStatistic (hvalues : values ≠ []) (hzero : 0 ≤ p.value)
    (hone : p.value ≤ 1) (hexact : Exact values p) :
    ∃ result, percentile values p = .ok (.number result) ∧
      (∀ values' : List Decimal, values'.Perm values →
        ∃ result', percentile values' p = .ok (.number result') ∧
          result'.value = result.value) ∧
      (∀ ordered : List Decimal, ordered.Perm values →
        ordered.Pairwise (fun a b => a.value ≤ b.value) →
        result.value = lineAt (ordered.map Decimal.value)
          (rankAt values.length p) ∧
        (∃ low high, ordered[⌊rankAt values.length p⌋₊]? = some low ∧
          ordered[⌈rankAt values.length p⌉₊]? = some high ∧
          low.value ≤ result.value ∧ result.value ≤ high.value) ∧
        ∀ k : Nat, rankAt values.length p = k →
          ∃ kth, ordered[k]? = some kth ∧ result.value = kth.value) ∧
      (∃ least greatest, (values.map Decimal.value).min? = some least ∧
        (values.map Decimal.value).max? = some greatest ∧
        least ≤ result.value ∧ result.value ≤ greatest ∧
        (p.value = 0 → result.value = least) ∧
        (p.value = 1 → result.value = greatest)) ∧
      ∀ q : Decimal, p.value ≤ q.value → q.value ≤ 1 → Exact values q →
        ∃ later, percentile values q = .ok (.number later) ∧
          result.value ≤ later.value := by
  obtain ⟨result, hresult, hvalue⟩ :=
    hexact.exists_percentile hvalues hzero hone
  refine ⟨result, hresult,
    fun _ hperm => exists_percentile_of_perm hperm hresult, ?_, ?_,
    fun q hpq hq hlater =>
    hexact.exists_later hvalues hzero hpq hq hlater hresult⟩
  · intro ordered hperm hordered
    rw [← map_value_eq_sorted hperm hordered] at hvalue
    have hlast : ⌈rankAt values.length p⌉₊ < ordered.length := by
      rw [hperm.length_eq]
      exact ceil_rankAt_lt (List.length_pos_iff.mpr hvalues) hone
    refine ⟨hvalue, ?_, ?_⟩
    · rw [hvalue]
      exact exists_neighbours hordered (rankAt_nonneg _ hzero) hlast
    · intro k hk
      rw [hk, Nat.ceil_natCast] at hlast
      have hkth := List.getElem?_eq_getElem hlast
      refine ⟨_, hkth, ?_⟩
      rw [hvalue, hk, lineAt_natCast, getD_map_value hkth]
  · rw [hvalue]
    exact exists_extremes hvalues hzero hone

end Exact

/-! ### Prices -/

def price (scale coefficient : Nat) : Decimal :=
  (Decimal.ofParts? false coefficient scale).getD .zero

def prices : List Decimal := [price 0 30, price 0 10, price 1 205]

theorem sorted_prices :
    sorted prices = [price 0 10, price 1 205, price 0 30] := by
  have hthirty : (price 0 30).le (price 0 10) = false := by decide
  have hten : (price 0 10).le (price 1 205) = true := by decide
  have htwenty : (price 0 30).le (price 1 205) = false := by decide
  simp [sorted, prices, List.mergeSort, List.MergeSort.Internal.splitInTwo,
    hthirty, hten, htwenty]

theorem exact_quarter : Exact prices (price 2 25) where
  count := by decide +kernel
  steps := by
    refine ⟨price 2 50, price 2 50, by decide +kernel, by decide +kernel,
      by decide +kernel, by decide +kernel, ?_⟩
    rw [sorted_prices]
    intro low hlow
    obtain rfl : price 0 10 = low := Option.some.inj hlow
    exact ⟨price 1 105, price 3 5250, price 3 15250, by decide +kernel⟩

theorem exact_half : Exact prices .half where
  count := by decide +kernel
  steps := by
    refine ⟨price 1 10, price 1 0, by decide +kernel, by decide +kernel,
      by decide +kernel, by decide +kernel, ?_⟩
    rw [sorted_prices]
    intro low hlow
    obtain rfl : price 1 205 = low := Option.some.inj hlow
    exact ⟨price 1 95, .zero, price 1 205, by decide +kernel⟩

theorem percentile_orderStatistic_prices :
    prices ≠ [] ∧ 0 ≤ (price 2 25).value ∧ (price 2 25).value ≤ 1 ∧
      Exact prices (price 2 25) ∧
      ∃ result later,
        percentile prices (price 2 25) = .ok (.number result) ∧
        percentile prices .half = .ok (.number later) ∧
        (price 0 10).value ≤ result.value ∧ result.value ≤ (price 1 205).value ∧
        result.value ≤ later.value := by
  have hne : prices ≠ [] := List.cons_ne_nil _ _
  have hzero : 0 ≤ (price 2 25).value := by decide +kernel
  have hone : (price 2 25).value ≤ 1 := by decide +kernel
  obtain ⟨result, hresult, -, hordered, -, hlater⟩ :=
    percentile_orderStatistic hne hzero hone exact_quarter
  obtain ⟨later, hhalf, hle⟩ :=
    hlater .half (by decide +kernel) (by decide +kernel) exact_half
  obtain ⟨-, ⟨low, high, hlow, hhigh, hlowLe, hleHigh⟩, -⟩ :=
    hordered (sorted prices) (List.mergeSort_perm _ _) (pairwise_sorted prices)
  have hfloor : ⌊rankAt prices.length (price 2 25)⌋₊ = 0 := by decide +kernel
  have hceil : ⌈rankAt prices.length (price 2 25)⌉₊ = 1 := by decide +kernel
  rw [sorted_prices, hfloor] at hlow
  rw [sorted_prices, hceil] at hhigh
  cases hlow
  cases hhigh
  exact ⟨hne, hzero, hone, exact_quarter, result, later, hresult, hhalf,
    hlowLe, hleHigh, hle⟩

end TableQuery.Statistics
