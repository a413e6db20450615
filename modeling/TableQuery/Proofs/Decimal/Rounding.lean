import TableQuery.Proofs.Decimal.Value

/-!
# How far rounding goes

A result is rounded to a whole coefficient at the largest scale that fits.  So
it overflows exactly if it is too large at scale zero, it is off by at most a
half, or a twentieth where one digit fits behind the point, and it never crosses
a whole number.
-/

namespace TableQuery.Decimal

/-! ## Coefficients -/

/-- The smallest size that rounds to a coefficient that does not fit.  It lies
half-way between the largest coefficient, which is odd, and the next. -/
def overflowBound : ℚ := coefficientBound - 1 / 2

theorem le_divHalfEven {n num den : Nat} (hden : 0 < den) (h : n * den ≤ num) :
    n ≤ divHalfEven num den := by
  have hquotient : n ≤ num / den := (Nat.le_div_iff_mul_le hden).mpr h
  unfold divHalfEven
  dsimp only
  split <;> omega

theorem divHalfEven_le_of_le_mul {n num den : Nat} (hden : 0 < den)
    (h : num ≤ n * den) : divHalfEven num den ≤ n := by
  have hsplit := Nat.div_add_mod num den
  have hmod := Nat.mod_lt num hden
  rcases Nat.lt_or_ge (num / den) n with hlt | hge
  · exact Nat.le_trans (divHalfEven_le num den) hlt
  · -- The quotient is exact, so nothing is rounded.
    have hnum : num = den * n := by
      have := Nat.mul_le_mul_left den hge
      rw [Nat.mul_comm n den] at h
      omega
    rw [hnum, divHalfEven_of_exact hden]

theorem abs_divHalfEven_sub_le (num : Nat) {den : Nat} (hden : 0 < den) :
    |(divHalfEven num den : ℚ) - num / den| ≤ 1 / 2 := by
  have hdenq : (0 : ℚ) < den := Nat.cast_pos.mpr hden
  have hsplit := Nat.div_add_mod num den
  have hmod := Nat.mod_lt num hden
  have hbounds : 2 * (den * divHalfEven num den) ≤ 2 * num + den ∧
      2 * num ≤ 2 * (den * divHalfEven num den) + den := by
    unfold divHalfEven
    dsimp only
    split
    · rw [Nat.mul_add, Nat.mul_one]
      omega
    · omega
  have hupper : (2 * (den * divHalfEven num den) : ℚ) ≤ 2 * num + den := by
    exact_mod_cast hbounds.1
  have hlower : (2 * num : ℚ) ≤ 2 * (den * divHalfEven num den) + den := by
    exact_mod_cast hbounds.2
  rw [abs_le, neg_le_sub_iff_le_add, sub_le_iff_le_add, div_le_iff₀ hdenq,
    ← sub_le_iff_le_add', le_div_iff₀ hdenq]
  constructor <;> linarith

theorem coefficientBound_le_divHalfEven_iff {num den : Nat} (hden : 0 < den) :
    coefficientBound ≤ divHalfEven num den ↔
      overflowBound ≤ (num / den : ℚ) := by
  have hdenq : (0 : ℚ) < den := Nat.cast_pos.mpr hden
  constructor
  · intro h
    have herror := (abs_le.mp (abs_divHalfEven_sub_le num hden)).2
    have hcast : (coefficientBound : ℚ) ≤ divHalfEven num den :=
      Nat.cast_le.mpr h
    unfold overflowBound
    linarith
  · intro h
    have hsize : (2 * coefficientBound - 1) * den ≤ 2 * num := by
      rw [overflowBound, le_div_iff₀ hdenq] at h
      have hcast : ((2 * coefficientBound : ℚ) - 1) * den ≤ 2 * num := by
        linarith
      have hone : 1 ≤ 2 * coefficientBound := by decide
      exact_mod_cast (by push_cast [Nat.cast_sub hone]; exact hcast :
        (((2 * coefficientBound - 1 : Nat) * den : Nat) : ℚ) ≤ (2 * num : Nat))
    have hsplit := Nat.div_add_mod num den
    have hmod := Nat.mod_lt num hden
    have hquotient : coefficientBound - 1 ≤ num / den := by
      rw [Nat.le_div_iff_mul_le hden]
      unfold coefficientBound at hsize ⊢
      omega
    rcases Nat.eq_or_lt_of_le hquotient with heq | hlt
    · -- The remainder is at least a half, and the largest coefficient is odd.
      unfold divHalfEven
      rw [← heq] at hsplit ⊢
      unfold coefficientBound at hsize hsplit ⊢
      dsimp only
      split <;> omega
    · have hle := le_divHalfEven hden (Nat.div_mul_le_self num den)
      omega

/-! ## Scales -/

theorem ofRatio?_eq_none_iff {negative : Bool} {num den limit : Nat}
    (hden : 0 < den) :
    ofRatio? negative num den limit = none ↔
      coefficientBound ≤ divHalfEven num den := by
  induction limit with
  | zero => simp [ofRatio?, ofParts?]
  | succ limit ih =>
      have hscaled : coefficientBound ≤ divHalfEven num den →
          coefficientBound ≤
            divHalfEven (num * scaleFactor (limit + 1)) den := by
        rw [coefficientBound_le_divHalfEven_iff hden,
          coefficientBound_le_divHalfEven_iff hden]
        intro h
        refine h.trans ?_
        gcongr
        exact Nat.le_mul_of_pos_right num (scaleFactor_pos _)
      rw [ofRatio?]
      split
      case h_1 d hd =>
          have hfits : divHalfEven (num * scaleFactor (limit + 1)) den <
              coefficientBound := by
            unfold ofParts? at hd
            split at hd
            case isTrue h => exact h.1
            case isFalse => cases hd
          simp only [reduceCtorEq, false_iff]
          intro h
          have := hscaled h
          omega
      case h_2 => exact ih

/-- A rounded quotient gives up its last digit behind the point only if it does
not fit with one. -/
theorem ofRatio?_eq_some {negative : Bool} {num den limit : Nat} {d : Decimal}
    (hlimit : limit ≤ maxScale) (h : ofRatio? negative num den limit = some d) :
    d.negative = negative ∧
      d.coefficient = divHalfEven (num * scaleFactor d.scale) den ∧
      (d.scale = 0 →
        limit = 0 ∨ coefficientBound ≤ divHalfEven
          (num * scaleFactor 1) den) := by
  induction limit with
  | zero =>
      simp only [ofRatio?, ofParts?, Option.dite_none_right_eq_some,
        Option.some.injEq] at h
      obtain ⟨-, rfl⟩ := h
      simp [scaleFactor]
  | succ limit ih =>
      rw [ofRatio?] at h
      split at h
      case h_1 d' hd =>
          cases h
          simp only [ofParts?, Option.dite_none_right_eq_some,
            Option.some.injEq] at hd
          obtain ⟨-, rfl⟩ := hd
          simp
      case h_2 hnone =>
          obtain ⟨hnegative, hcoefficient, hscale⟩ := ih (by omega) h
          refine ⟨hnegative, hcoefficient, fun hzero => .inr ?_⟩
          rcases hscale hzero with rfl | hlarge
          · simpa [ofParts?, hlimit] using hnone
          · exact hlarge

/-! ## Rounded values -/

theorem abs_eq_natAbs_div (q : ℚ) : |q| = q.num.natAbs / q.den := by
  rw [Rat.abs_def, Rat.divInt_eq_div, Int.cast_natCast, Int.cast_natCast]

/-- A result overflows if and only if it is too large for a whole
coefficient. -/
theorem rounded_eq_none_iff {q : ℚ} :
    rounded q = none ↔ overflowBound ≤ |q| := by
  rw [rounded, Option.map_eq_none_iff, ofRatio?_eq_none_iff q.den_pos,
    coefficientBound_le_divHalfEven_iff q.den_pos, ← abs_eq_natAbs_div]

theorem exists_coefficient_of_rounded {q r : ℚ} (h : rounded q = some r) :
    ∃ scale : Nat, r = sign (decide (q < 0)) *
        ((divHalfEven (q.num.natAbs * scaleFactor scale) q.den : ℚ) /
          scaleFactor scale) ∧
      (scale = 0 → overflowBound ≤ |q| * 10) := by
  obtain ⟨d, hd, rfl⟩ := Option.map_eq_some_iff.mp h
  obtain ⟨hnegative, hcoefficient, hscale⟩ :=
    ofRatio?_eq_some (Nat.le_refl _) hd
  refine ⟨d.scale, ?_, fun hzero => ?_⟩
  · rw [value_eq, hnegative, hcoefficient]
  · have hlarge := (hscale hzero).resolve_left (by decide)
    rw [coefficientBound_le_divHalfEven_iff q.den_pos] at hlarge
    rw [abs_eq_natAbs_div]
    refine hlarge.trans_eq ?_
    simp only [scaleFactor]
    push_cast
    ring

theorem exists_error_of_rounded {q r : ℚ} (h : rounded q = some r) :
    ∃ scale : Nat, |r - q| ≤ 1 / 2 / scaleFactor scale ∧
      (scale = 0 → overflowBound ≤ |q| * 10) := by
  obtain ⟨scale, rfl, hscale⟩ := exists_coefficient_of_rounded h
  refine ⟨scale, ?_, hscale⟩
  have hfactor := cast_scaleFactor_pos scale
  have hsign : |sign (decide (q < 0))| = 1 := by
    cases decide (q < 0) <;> simp [sign]
  have herror :=
    abs_divHalfEven_sub_le (q.num.natAbs * scaleFactor scale) q.den_pos
  generalize divHalfEven (q.num.natAbs * scaleFactor scale) q.den =
    coefficient at herror ⊢
  have hscaled : ((q.num.natAbs * scaleFactor scale : Nat) : ℚ) / q.den =
      |q| * scaleFactor scale := by
    rw [abs_eq_natAbs_div]
    push_cast
    ring
  have hdifference :
      sign (decide (q < 0)) * (coefficient / scaleFactor scale) - q =
        sign (decide (q < 0)) * ((coefficient - |q| * scaleFactor scale) /
          scaleFactor scale) := by
    rw [sub_div, mul_div_cancel_right₀ _ hfactor.ne', mul_sub, sign_mul_abs]
  rw [hdifference, abs_mul, hsign, one_mul, abs_div, abs_of_pos hfactor,
    ← hscaled]
  exact div_le_div_of_nonneg_right herror hfactor.le

theorem abs_rounded_sub_le {q r : ℚ} (h : rounded q = some r) :
    |r - q| ≤ 1 / 2 := by
  obtain ⟨scale, herror, -⟩ := exists_error_of_rounded h
  have hone : (1 : ℚ) ≤ scaleFactor scale :=
    Nat.one_le_cast.mpr (scaleFactor_pos scale)
  exact herror.trans (div_le_self (by norm_num) hone)

/-- Where one digit fits behind the point, it is kept. -/
theorem abs_rounded_sub_le_of_lt {q r : ℚ} (h : rounded q = some r)
    (hsize : |q| * 10 < overflowBound) : |r - q| ≤ 1 / 20 := by
  obtain ⟨scale, herror, hscale⟩ := exists_error_of_rounded h
  have hne : scale ≠ 0 := fun hzero => absurd (hscale hzero) (not_le.mpr hsize)
  have hten : (10 : ℚ) ≤ scaleFactor scale := by
    exact_mod_cast ten_le_scaleFactor hne
  calc |r - q| ≤ 1 / 2 / scaleFactor scale := herror
    _ ≤ 1 / 2 / 10 := by gcongr
    _ = 1 / 20 := by norm_num

theorem rounded_nonneg {q r : ℚ} (h : rounded q = some r) (hq : 0 ≤ q) :
    0 ≤ r := by
  obtain ⟨scale, rfl, -⟩ := exists_coefficient_of_rounded h
  rw [sign, if_neg (by simpa using hq), one_mul]
  exact div_nonneg (Nat.cast_nonneg _) (cast_scaleFactor_pos scale).le

/-- Rounding does not cross a whole number. -/
theorem rounded_le {q r : ℚ} (h : rounded q = some r) (hq : 0 ≤ q) {n : Nat}
    (hn : q ≤ n) : r ≤ n := by
  obtain ⟨scale, rfl, -⟩ := exists_coefficient_of_rounded h
  rw [sign, if_neg (by simpa using hq), one_mul,
    div_le_iff₀ (cast_scaleFactor_pos scale)]
  have hratio : q.num.natAbs ≤ n * q.den := by
    rw [← abs_of_nonneg hq, abs_eq_natAbs_div,
      div_le_iff₀ (Nat.cast_pos.mpr q.den_pos)] at hn
    exact_mod_cast hn
  have hscaled : q.num.natAbs * scaleFactor scale ≤
      n * scaleFactor scale * q.den := by
    rw [Nat.mul_right_comm]
    exact Nat.mul_le_mul_right _ hratio
  exact_mod_cast divHalfEven_le_of_le_mul q.den_pos hscaled

/-! ## Results -/

theorem value_of_sub? {a b d : Decimal} (h : a.sub? b = some d) :
    rounded (a.value - b.value) = some d.value := by
  rw [← map_value_sub?, h, Option.map_some]

theorem value_of_mul? {a b d : Decimal} (h : a.mul? b = some d) :
    rounded (a.value * b.value) = some d.value := by
  rw [← map_value_mul?, h, Option.map_some]

theorem add?_eq_none_iff {a b : Decimal} :
    a.add? b = none ↔ overflowBound ≤ |a.value + b.value| := by
  rw [← rounded_eq_none_iff, ← map_value_add?, Option.map_eq_none_iff]

theorem sub?_eq_none_iff {a b : Decimal} :
    a.sub? b = none ↔ overflowBound ≤ |a.value - b.value| := by
  rw [← rounded_eq_none_iff, ← map_value_sub?, Option.map_eq_none_iff]

theorem mul?_eq_none_iff {a b : Decimal} :
    a.mul? b = none ↔ overflowBound ≤ |a.value * b.value| := by
  rw [← rounded_eq_none_iff, ← map_value_mul?, Option.map_eq_none_iff]

/-! ## Whole and fractional parts -/

theorem abs_value_le (d : Decimal) : |d.value| ≤ overflowBound - 1 / 2 := by
  have hone : (1 : ℚ) ≤ scaleFactor d.scale :=
    Nat.one_le_cast.mpr (scaleFactor_pos d.scale)
  have hcoefficient : (d.coefficient : ℚ) + 1 ≤ coefficientBound := by
    exact_mod_cast d.coefficient_lt
  rw [abs_value]
  calc (d.coefficient : ℚ) / scaleFactor d.scale ≤ d.coefficient :=
        div_le_self (Nat.cast_nonneg _) hone
    _ ≤ overflowBound - 1 / 2 := by
        unfold overflowBound
        linarith

theorem fract_value (d : Decimal) :
    Int.fract d.value =
      (d.signed % scaleFactor d.scale : Int) / scaleFactor d.scale := by
  rw [value, Int.fract_div_intCast_eq_div_intCast_mod]

theorem value_half : half.value = 1 / 2 := by
  norm_num [value, half, signed, scaleFactor]

theorem value_ofNat (n : Nat) :
    (ofNat n).value = (min n (coefficientBound - 1) : Nat) := by
  rw [value_of_scale_eq_zero rfl]
  exact Int.cast_natCast _

theorem rounded_fract (d : Decimal) :
    rounded (Int.fract d.value) = some (Int.fract d.value) := by
  have hpos : (0 : Int) < scaleFactor d.scale :=
    Nat.cast_pos.mpr (scaleFactor_pos d.scale)
  have hnonneg := Int.emod_nonneg d.signed hpos.ne'
  have hlt := Int.emod_lt_of_pos d.signed hpos
  have hbound : scaleFactor d.scale ≤ scaleFactor maxScale :=
    Nat.pow_le_pow_right (by decide) d.scale_le
  have hmax : scaleFactor maxScale < coefficientBound := by decide
  let fraction : Decimal :=
    ⟨false, (d.signed % scaleFactor d.scale).toNat, d.scale,
      by omega, d.scale_le⟩
  have hvalue : fraction.value = Int.fract d.value := by
    rw [fract_value, value, signed, if_neg (by simp [fraction])]
    simp only [fraction, Int.toNat_of_nonneg hnonneg]
  rw [← hvalue, rounded_value]

theorem fract_value_le (d : Decimal) :
    Int.fract d.value ≤ 1 - 1 / scaleFactor maxScale := by
  have hpos := cast_scaleFactor_pos d.scale
  have hint : (0 : Int) < scaleFactor d.scale :=
    Nat.cast_pos.mpr (scaleFactor_pos d.scale)
  have hlt : d.signed % scaleFactor d.scale + 1 ≤ (scaleFactor d.scale : Int) :=
    Int.emod_lt_of_pos d.signed hint
  have hltq : ((d.signed % scaleFactor d.scale : Int) : ℚ) + 1 ≤
      scaleFactor d.scale := by
    exact_mod_cast hlt
  have hbound : (scaleFactor d.scale : ℚ) ≤ scaleFactor maxScale :=
    Nat.cast_le.mpr (Nat.pow_le_pow_right (by decide) d.scale_le)
  calc Int.fract d.value ≤ (scaleFactor d.scale - 1) / scaleFactor d.scale := by
        rw [fract_value]
        exact div_le_div_of_nonneg_right (by linarith) hpos.le
    _ = 1 - 1 / scaleFactor d.scale := by rw [sub_div, div_self hpos.ne']
    _ ≤ 1 - 1 / scaleFactor maxScale := by gcongr

end TableQuery.Decimal
