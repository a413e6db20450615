import Mathlib.Algebra.Order.Ring.Unbundled.Basic
import Mathlib.Data.Rat.Floor
import Mathlib.Tactic.FieldSimp
import Mathlib.Tactic.Linarith
import Mathlib.Tactic.Ring
import TableQuery.Decimal.Arithmetic

/-!
# The values of decimals

A decimal stands for a rational number.  Arithmetic computes the value of its
result from the values of its operands alone: it rounds the exact result, and
the scales of the operands do not matter.
-/

namespace TableQuery.Decimal

def value (d : Decimal) : ℚ := d.signed / scaleFactor d.scale

theorem scaleFactor_add (m n : Nat) :
    scaleFactor (m + n) = scaleFactor m * scaleFactor n :=
  Nat.pow_add 10 m n

theorem cast_scaleFactor_pos (n : Nat) : (0 : ℚ) < scaleFactor n :=
  Nat.cast_pos.mpr (scaleFactor_pos n)

theorem cast_scaleFactor_ne_zero (n : Nat) : (scaleFactor n : ℚ) ≠ 0 :=
  (cast_scaleFactor_pos n).ne'

theorem cast_scaleFactor (n : Nat) : (scaleFactor n : ℚ) = 10 ^ n :=
  Nat.cast_pow 10 n

theorem value_mul_zpow (d : Decimal) (exponent : Int) :
    d.value * 10 ^ exponent = d.signed * (10 : ℚ) ^ (exponent - d.scale) := by
  rw [value, cast_scaleFactor, zpow_sub₀ (by norm_num), zpow_natCast,
    div_mul_eq_mul_div, mul_div_assoc]

/-! ## Comparison -/

theorem compare_eq_cmp (a b : Decimal) : a.compare b = cmp a.value b.value := by
  have ha : a.value * (scaleFactor a.scale * scaleFactor b.scale) =
      (a.signed * scaleFactor b.scale : Int) := by
    have hscale := cast_scaleFactor_ne_zero a.scale
    rw [value]
    push_cast
    field_simp
  have hb : b.value * (scaleFactor a.scale * scaleFactor b.scale) =
      (b.signed * scaleFactor a.scale : Int) := by
    have hscale := cast_scaleFactor_ne_zero b.scale
    rw [value]
    push_cast
    field_simp
  have hpos :=
    mul_pos (cast_scaleFactor_pos a.scale) (cast_scaleFactor_pos b.scale)
  rw [← cmp_mul_pos_right hpos, ha, hb, compare, ← cmp_eq_compare]
  exact (Int.cast_strictMono.cmp_map_eq _ _).symm

theorem sameValue_iff {a b : Decimal} :
    a.sameValue b = true ↔ a.value = b.value := by
  rw [sameValue, beq_iff_eq, compare_eq_cmp, cmp_eq_eq_iff]

theorem lt_iff {a b : Decimal} : a.lt b = true ↔ a.value < b.value := by
  rw [lt, compare_eq_cmp, ← cmp_eq_lt_iff]
  cases cmp a.value b.value <;> decide

theorem le_iff {a b : Decimal} : a.le b = true ↔ a.value ≤ b.value := by
  rw [le, compare_eq_cmp, ← not_lt, ← cmp_eq_gt_iff]
  cases cmp a.value b.value <;> decide

/-! ## Sign and size -/

def sign (negative : Bool) : ℚ := if negative then -1 else 1

theorem natAbs_signed (d : Decimal) : d.signed.natAbs = d.coefficient := by
  rw [signed]
  split <;> omega

theorem value_eq (d : Decimal) :
    d.value = sign d.negative * (d.coefficient / scaleFactor d.scale) := by
  cases h : d.negative with
  | true => simp [value, signed, sign, h, neg_div]
  | false => simp [value, signed, sign, h]

theorem isZero_iff {d : Decimal} : d.isZero = true ↔ d.value = 0 := by
  have hscale := cast_scaleFactor_ne_zero d.scale
  have hsign : sign d.negative ≠ 0 := by cases d.negative <;> simp [sign]
  simp [isZero, value_eq, hscale, hsign]

theorem abs_value (d : Decimal) :
    |d.value| = d.coefficient / scaleFactor d.scale := by
  have hsize : (0 : ℚ) ≤ d.coefficient / scaleFactor d.scale :=
    div_nonneg (Nat.cast_nonneg _) (cast_scaleFactor_pos d.scale).le
  have hsign : |sign d.negative| = 1 := by cases d.negative <;> simp [sign]
  rw [value_eq, abs_mul, hsign, one_mul, abs_of_nonneg hsize]

theorem negative_eq {d : Decimal} (h : d.value ≠ 0) :
    d.negative = decide (d.value < 0) := by
  have hsize : (0 : ℚ) ≤ d.coefficient / scaleFactor d.scale :=
    div_nonneg (Nat.cast_nonneg _) (cast_scaleFactor_pos d.scale).le
  have hvalue := value_eq d
  cases hnegative : d.negative with
  | true =>
      rw [hnegative, sign, if_pos rfl, neg_one_mul] at hvalue
      rw [true_eq_decide_iff]
      apply lt_of_le_of_ne _ h
      linarith
  | false =>
      rw [hnegative, sign, if_neg Bool.false_ne_true, one_mul] at hvalue
      rw [false_eq_decide_iff]
      linarith

theorem sign_mul_abs (q : ℚ) : sign (decide (q < 0)) * |q| = q := by
  by_cases h : q < 0
  · simp [sign, h, abs_of_neg h]
  · simp [sign, h, abs_of_nonneg (not_lt.mp h)]

@[simp] theorem value_neg (d : Decimal) : d.neg.value = -d.value := by
  cases h : d.negative <;> simp [value, neg, signed, h, neg_div]

/-! ## Rounding -/

theorem divHalfEven_mul_right {k : Nat} (hk : 0 < k) (num den : Nat) :
    divHalfEven (num * k) (den * k) = divHalfEven num den := by
  have htwice : 2 * (num % den * k) = 2 * (num % den) * k := by
    rw [Nat.mul_assoc]
  simp only [divHalfEven, Nat.mul_div_mul_right num den hk,
    Nat.mul_mod_mul_right, htwice, Nat.mul_lt_mul_right hk,
    Nat.mul_left_inj hk.ne']

theorem divHalfEven_congr {num den num' den' : Nat} (hden : 0 < den)
    (hden' : 0 < den') (h : num * den' = num' * den) :
    divHalfEven num den = divHalfEven num' den' := by
  rw [← divHalfEven_mul_right hden' num den, h, Nat.mul_comm den den',
    divHalfEven_mul_right hden num' den']

theorem divHalfEven_of_exact {den : Nat} (hden : 0 < den) (n : Nat) :
    divHalfEven (den * n) den = n := by
  have hne := hden.ne
  simp [divHalfEven, hne, Nat.mul_div_cancel_left n hden]

theorem ofRatio?_congr {num den num' den' : Nat} (hden : 0 < den)
    (hden' : 0 < den') (h : num * den' = num' * den) (negative : Bool)
    (limit : Nat) :
    ofRatio? negative num den limit = ofRatio? negative num' den' limit := by
  induction limit with
  | zero => rw [ofRatio?, ofRatio?, divHalfEven_congr hden hden' h]
  | succ limit ih =>
      have hscaled : num * scaleFactor (limit + 1) * den' =
          num' * scaleFactor (limit + 1) * den := by
        rw [Nat.mul_right_comm, h, Nat.mul_right_comm]
      rw [ofRatio?, ofRatio?, divHalfEven_congr hden hden' hscaled, ih]

theorem ofRatio?_of_exact {negative : Bool} {num den limit n : Nat}
    (hden : 0 < den) (h : num * scaleFactor limit = den * n)
    (hn : n < coefficientBound) (hlimit : limit ≤ maxScale) :
    ofRatio? negative num den limit =
      some ⟨negative, n, limit, hn, hlimit⟩ := by
  cases limit with
  | zero =>
      have hnum : num = den * n := by simpa [scaleFactor] using h
      rw [ofRatio?, hnum, divHalfEven_of_exact hden]
      simp [ofParts?, hn]
  | succ limit =>
      rw [ofRatio?, h, divHalfEven_of_exact hden]
      simp [ofParts?, hn, hlimit]

/-- Beyond the digits of an exact quotient, more digits make no difference. -/
theorem map_value_ofRatio?_succ {negative : Bool} {num den limit : Nat}
    (hden : 0 < den) (hexact : den ∣ num * scaleFactor limit)
    (hlimit : limit + 1 ≤ maxScale) :
    (ofRatio? negative num den (limit + 1)).map value =
      (ofRatio? negative num den limit).map value := by
  rcases hexact with ⟨n, hn⟩
  have hnext : num * scaleFactor (limit + 1) = den * (n * 10) := by
    rw [scaleFactor_succ, ← Nat.mul_assoc, hn, Nat.mul_assoc]
  by_cases hfits : n * 10 < coefficientBound
  · rw [ofRatio?_of_exact hden hnext hfits hlimit,
      ofRatio?_of_exact hden hn (by omega) (by omega)]
    have hscale := cast_scaleFactor_ne_zero limit
    simp only [Option.map_some, value_eq, scaleFactor_succ, Option.some.injEq]
    push_cast
    field_simp
  · rw [ofRatio?, hnext, divHalfEven_of_exact hden]
    simp [ofParts?, hfits]

theorem map_value_ofRatio?_maxScale {negative : Bool} {num den limit : Nat}
    (hden : 0 < den) (hexact : den ∣ num * scaleFactor limit)
    (hlimit : limit ≤ maxScale) :
    (ofRatio? negative num den maxScale).map value =
      (ofRatio? negative num den limit).map value := by
  have hall : ∀ extra, limit + extra ≤ maxScale →
      (ofRatio? negative num den (limit + extra)).map value =
        (ofRatio? negative num den limit).map value := by
    intro extra hextra
    induction extra with
    | zero => rfl
    | succ extra ih =>
        have hdvd : den ∣ num * scaleFactor (limit + extra) := by
          rw [scaleFactor_add, ← Nat.mul_assoc]
          exact Dvd.dvd.mul_right hexact _
        rw [← Nat.add_assoc, map_value_ofRatio?_succ hden hdvd hextra,
          ih (by omega)]
  have hmax := hall (maxScale - limit) (by omega)
  rwa [Nat.add_sub_cancel' hlimit] at hmax

/-- The value that an exact result is rounded to, unless it does not fit. -/
def rounded (q : ℚ) : Option ℚ :=
  (ofRatio? (decide (q < 0)) q.num.natAbs q.den maxScale).map value

theorem map_value_ofRatio? {q : ℚ} {negative : Bool} {num den limit : Nat}
    (hden : 0 < den) (hnegative : negative = decide (q < 0))
    (hq : |q| = num / den) (hlimit : limit ≤ maxScale)
    (hexact : limit = maxScale ∨ den ∣ num * scaleFactor limit) :
    (ofRatio? negative num den limit).map value = rounded q := by
  have hratio : num * q.den = q.num.natAbs * den := by
    have hqden : (q.den : ℚ) ≠ 0 := Nat.cast_ne_zero.mpr q.den_nz
    have hdenq : (den : ℚ) ≠ 0 := Nat.cast_ne_zero.mpr hden.ne'
    rw [Rat.abs_def, Rat.divInt_eq_div, Int.cast_natCast, Int.cast_natCast,
      div_eq_div_iff hqden hdenq] at hq
    exact_mod_cast hq.symm
  rw [rounded, ← hnegative, ← ofRatio?_congr hden q.den_pos hratio]
  rcases hexact with rfl | hdvd
  · rfl
  · exact (map_value_ofRatio?_maxScale hden hdvd hlimit).symm

theorem rounded_value (d : Decimal) : rounded d.value = some d.value := by
  have hexact : d.coefficient * scaleFactor d.scale =
      scaleFactor d.scale * d.coefficient :=
    Nat.mul_comm _ _
  have hratio :=
    map_value_ofRatio? (scaleFactor_pos d.scale) rfl (abs_value d) d.scale_le
      (.inr ⟨_, hexact⟩)
  rw [ofRatio?_of_exact (scaleFactor_pos d.scale) hexact d.coefficient_lt
    d.scale_le,
    Option.map_some, value_eq] at hratio
  dsimp only at hratio
  rw [← hratio, ← abs_value, sign_mul_abs]

@[simp] theorem rounded_zero : rounded 0 = some 0 := by
  have hzero : zero.value = 0 := isZero_iff.mp rfl
  rw [← hzero, rounded_value]

/-! ## Arithmetic -/

theorem signed_mul_scaleFactor {d : Decimal} {scale : Nat}
    (h : d.scale ≤ scale) :
    ((d.signed * scaleFactor (scale - d.scale) : Int) : ℚ) =
      d.value * scaleFactor scale := by
  have hne := cast_scaleFactor_ne_zero d.scale
  have hsplit : scaleFactor scale =
      scaleFactor d.scale * scaleFactor (scale - d.scale) := by
    rw [← scaleFactor_add, Nat.add_sub_cancel' h]
  rw [hsplit, value]
  push_cast
  field_simp

theorem map_value_add? (a b : Decimal) :
    (a.add? b).map value = rounded (a.value + b.value) := by
  unfold add?
  split
  case isTrue hzero =>
      rw [isZero_iff.mp hzero, zero_add, rounded_value, Option.map_some]
  case isFalse =>
      split
      case isTrue hzero =>
          rw [isZero_iff.mp hzero, add_zero, rounded_value, Option.map_some]
      case isFalse =>
          generalize hscale : max a.scale b.scale = scale
          have ha : a.scale ≤ scale := by omega
          have hb : b.scale ≤ scale := by omega
          have hlimit : scale ≤ maxScale :=
            hscale ▸ max_le a.scale_le b.scale_le
          generalize htotal : a.signed * (scaleFactor (scale - a.scale) : Int) +
            b.signed * (scaleFactor (scale - b.scale) : Int) = total
          have hpos := cast_scaleFactor_pos scale
          have hvalue : a.value + b.value = total / scaleFactor scale := by
            rw [eq_div_iff hpos.ne', add_mul, ← signed_mul_scaleFactor ha,
              ← signed_mul_scaleFactor hb, ← Int.cast_add, htotal]
          rw [← htotal] at hvalue
          apply map_value_ofRatio? (scaleFactor_pos scale) _ _ hlimit
            (.inr (dvd_mul_left _ _))
          · rw [hvalue, decide_eq_decide, div_lt_iff₀ hpos, zero_mul,
              Int.cast_lt_zero]
          · rw [hvalue, abs_div, abs_of_pos hpos, Nat.cast_natAbs, Int.cast_abs]

theorem map_value_sub? (a b : Decimal) :
    (a.sub? b).map value = rounded (a.value - b.value) := by
  unfold sub?
  split
  case isTrue hb =>
      rw [isZero_iff.mp hb, sub_zero, rounded_value, Option.map_some]
      split
      case isTrue ha => rw [isZero_iff.mp ha, isZero_iff.mp hb]
      case isFalse => rfl
  case isFalse => rw [map_value_add?, value_neg, sub_eq_add_neg]

theorem bne_negative {a b : Decimal} (ha : a.value ≠ 0)
    (hb : b.value ≠ 0) {q : ℚ} (hq : q < 0 ↔ a.value * b.value < 0) :
    (a.negative != b.negative) = decide (q < 0) := by
  rw [negative_eq ha, negative_eq hb, Bool.eq_iff_iff, bne_iff_ne,
    decide_eq_true_iff, hq, mul_neg_iff, ne_eq, decide_eq_decide]
  rcases lt_or_gt_of_ne ha with ha | ha <;> rcases lt_or_gt_of_ne hb with
    hb | hb <;>
    simp [ha, hb, ha.not_gt, hb.not_gt]

theorem map_value_mul? (a b : Decimal) :
    (a.mul? b).map value = rounded (a.value * b.value) := by
  unfold mul?
  split
  case isTrue hzero =>
      have hproduct : a.value * b.value = 0 := by
        simpa [isZero_iff] using hzero
      rw [hproduct, rounded_zero, Option.map_some, isZero_iff.mp rfl]
  case isFalse hzero =>
      simp only [Bool.or_eq_true, isZero_iff, not_or] at hzero
      apply map_value_ofRatio? (scaleFactor_pos _)
        (bne_negative hzero.1 hzero.2 Iff.rfl) _ (Nat.min_le_left _ _)
      · by_cases hscale : maxScale ≤ a.scale + b.scale
        · exact .inl (Nat.min_eq_left hscale)
        · rw [Nat.min_eq_right (by omega)]
          exact .inr (dvd_mul_left _ _)
      · rw [abs_mul, abs_value, abs_value, scaleFactor_add]
        push_cast
        rw [div_mul_div_comm]

/-! ### Quotients -/

theorem stripZeros_spec (c s : Nat) :
    (stripZeros c s).1 * scaleFactor (s - (stripZeros c s).2) = c := by
  induction s generalizing c with
  | zero => simp [stripZeros, scaleFactor]
  | succ s ih =>
      rw [stripZeros]
      split
      case isTrue hc =>
          have hle := stripZeros_snd_le (c / 10) s
          rw [Nat.succ_sub hle, scaleFactor_succ, ← Nat.mul_assoc, ih]
          omega
      case isFalse => simp [scaleFactor]

theorem value_shorten (floor : Nat) (d : Decimal) :
    (shorten floor d).value = d.value := by
  have hspec := stripZeros_spec d.coefficient (d.scale - floor)
  have hle := stripZeros_snd_le d.coefficient (d.scale - floor)
  unfold shorten
  dsimp only
  split
  case isTrue =>
      rw [value_eq, value_eq d]
      dsimp only
      generalize stripZeros d.coefficient (d.scale - floor) = parts at hspec hle
      have hscale : d.scale =
          d.scale - floor - parts.2 + (parts.2 + min floor d.scale) := by omega
      have hfactor : scaleFactor d.scale =
          scaleFactor (d.scale - floor - parts.2) *
          scaleFactor (parts.2 + min floor d.scale) := by
        rw [← scaleFactor_add, ← hscale]
      have hdropped := cast_scaleFactor_ne_zero (d.scale - floor - parts.2)
      have hkept := cast_scaleFactor_ne_zero (parts.2 + min floor d.scale)
      rw [← hspec, hfactor]
      push_cast
      field_simp
  case isFalse => rfl

theorem map_value_div? {a b : Decimal} (hb : b.value ≠ 0) :
    (a.div? b).map value = rounded (a.value / b.value) := by
  have hzero : ¬b.isZero = true := fun h => hb (isZero_iff.mp h)
  rw [div?, if_neg hzero]
  split
  case isTrue ha =>
      rw [isZero_iff.mp ha, zero_div, rounded_zero, Option.map_some,
        isZero_iff.mp rfl]
  case isFalse ha =>
      rw [isZero_iff] at ha
      have hcoefficient : 0 < b.coefficient := by
        apply Nat.pos_of_ne_zero
        intro h
        exact hzero (by simp [isZero, h])
      have hsign : a.value / b.value < 0 ↔ a.value * b.value < 0 := by
        rw [div_neg_iff, mul_neg_iff]
      dsimp only
      rw [← map_value_ofRatio?
        (Nat.mul_pos hcoefficient (scaleFactor_pos a.scale))
        (bne_negative ha hb hsign) _ (Nat.le_refl _) (.inl rfl), Option.map_map]
      · congr 1
        funext q
        simp only [Function.comp_apply]
        split
        · exact value_shorten _ _
        · rfl
      · have hscaleA := cast_scaleFactor_ne_zero a.scale
        have hscaleB := cast_scaleFactor_ne_zero b.scale
        have hcast : (b.coefficient : ℚ) ≠ 0 :=
          Nat.cast_ne_zero.mpr hcoefficient.ne'
        rw [abs_div, abs_value, abs_value]
        push_cast
        field_simp

theorem map_value_div?_congr {a a' b b' : Decimal} (ha : a.value = a'.value)
    (hb : b.value = b'.value) :
    (a.div? b).map value = (a'.div? b').map value := by
  by_cases hzero : b.value = 0
  · have hzero' : b'.value = 0 := hb ▸ hzero
    rw [div?, if_pos (isZero_iff.mpr hzero), div?,
      if_pos (isZero_iff.mpr hzero')]
  · have hzero' : b'.value ≠ 0 := hb ▸ hzero
    rw [map_value_div? hzero, map_value_div? hzero', ha, hb]

/-! ## Whole numbers -/

theorem value_of_scale_eq_zero {d : Decimal} (h : d.scale = 0) :
    d.value = d.signed := by
  simp [value, h, scaleFactor]

theorem toInt_of_scale_eq_zero {d : Decimal} (h : d.scale = 0) :
    d.toInt = d.signed := by
  simp [toInt, signed, h, scaleFactor]

theorem floor_value (d : Decimal) :
    ⌊d.value⌋ = d.signed / scaleFactor d.scale := by
  rw [value, Rat.floor_intCast_div_natCast]

theorem scale_floor (d : Decimal) : d.floor.scale = 0 := by
  unfold floor
  split
  case isTrue h => exact h
  case isFalse => split <;> rfl

theorem signed_floor (d : Decimal) :
    d.floor.signed = d.signed / scaleFactor d.scale := by
  have hpos := scaleFactor_pos d.scale
  unfold floor
  split
  case isTrue h => simp [h, scaleFactor]
  case isFalse =>
      cases hnegative : d.negative with
      | false => simp [hnegative, trunc, signed]
      | true =>
          have hsign : Int.sign (scaleFactor d.scale) = 1 :=
            Int.sign_natCast_of_ne_zero hpos.ne'
          have hdvd : d.hasFraction = false ↔
              (scaleFactor d.scale : Int) ∣ d.coefficient := by
            rw [Int.natCast_dvd_natCast, Nat.dvd_iff_mod_eq_zero]
            simp [hasFraction]
          have hsigned : d.signed = -d.coefficient := by
            simp [signed, hnegative]
          rw [hsigned, Int.neg_ediv, hsign]
          cases hfraction : d.hasFraction with
          | true =>
              have hnot : ¬(scaleFactor d.scale : Int) ∣ d.coefficient := by
                rw [← hdvd, hfraction]
                simp
              rw [if_neg hnot]
              simp [awayFromZero, signed, hnegative]
              omega
          | false =>
              rw [if_pos (hdvd.mp hfraction)]
              simp [trunc, signed, hnegative]

theorem value_floor (d : Decimal) : d.floor.value = ⌊d.value⌋ := by
  rw [value_of_scale_eq_zero (scale_floor d), signed_floor, floor_value]

theorem toInt_floor (d : Decimal) : d.floor.toInt = ⌊d.value⌋ := by
  rw [toInt_of_scale_eq_zero (scale_floor d), signed_floor, floor_value]

end TableQuery.Decimal
