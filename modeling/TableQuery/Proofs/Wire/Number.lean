import TableQuery.Proofs.Decimal.Rounding
import TableQuery.Proofs.Except
import TableQuery.Proofs.Json.NumberText
import TableQuery.Proofs.Word
import TableQuery.Wire.Number

/-!
# Stored numbers are exact or refused

The decimal that is read from the text of a number is the number that is
written.  The one result on the way that nothing checks is the negation of a
scale, and it fits its word because the exponent fits one and no scale of a
decimal is negative.
-/

namespace TableQuery.Wire

open Decimal (digitsValue)

/-! ## Words -/

section

variable {α : Type}

theorem orRefused_eq_ok_iff {x : Option α} {a : α} :
    orRefused x = .ok a ↔ x = some a := by
  cases x <;> simp [orRefused]

theorem checked_eq_ok_iff {size : Nat} {n k : Int} :
    checked size n = .ok k ↔ Word.fitsSigned size n = true ∧ n = k := by
  unfold checked
  split <;> simp_all

theorem unchecked_eq_ok_iff {size : Nat} {n k : Int} :
    unchecked size n = .ok k ↔ Word.fitsSigned size n = true ∧ n = k := by
  unfold unchecked
  split <;> simp_all

theorem unsigned32_eq_ok_iff {n : Int} {k : Nat} :
    unsigned32 n = .ok k ↔ n = k ∧ k < Word.size32 := by
  unfold unsigned32
  split
  case isTrue h =>
      simp only [Bool.and_eq_true, decide_eq_true_eq] at h
      rw [Except.ok.injEq]
      omega
  case isFalse h =>
      simp only [Bool.and_eq_true, decide_eq_true_eq, not_and_or] at h
      simp only [reduceCtorEq, false_iff]
      omega

/-- Whether a computation does without a result that does not fit its word. -/
def StaysInWords (x : Except Misfit α) : Prop := x ≠ .error .overflow

theorem staysInWords_orRefused (x : Option α) : StaysInWords (orRefused x) := by
  cases x <;> exact nofun

theorem staysInWords_checked (size : Nat) (n : Int) :
    StaysInWords (checked size n) := by
  unfold checked StaysInWords
  split <;> exact nofun

theorem staysInWords_unsigned32 (n : Int) : StaysInWords (unsigned32 n) := by
  unfold unsigned32 StaysInWords
  split <;> exact nofun

theorem StaysInWords.bind {β : Type} {x : Except Misfit α}
    {f : α → Except Misfit β} (hx : StaysInWords x)
    (hf : ∀ a, x = .ok a → StaysInWords (f a)) : StaysInWords (x >>= f) := by
  intro h
  rcases bind_eq_error_iff.mp h with h | ⟨a, ha, h⟩
  · exact hx h
  · exact hf a ha h

end

/-! ## Powers of ten -/

/-- Multiplying by ten again and again is one multiplication, checked at its
end. -/
theorem timesPowerOfTen_eq {factor : Int} (hpos : 0 < factor)
    (hfits : Word.fitsSigned Word.size128 factor = true) (power : Nat) :
    timesPowerOfTen factor power =
      checked Word.size128 (factor * 10 ^ power) := by
  induction power generalizing factor with
  | zero =>
      rw [timesPowerOfTen, pow_zero, mul_one, checked, if_pos hfits]
  | succ power ih =>
      have hproduct : factor * 10 ^ (power + 1) =
          factor * 10 * 10 ^ power := by ring
      rw [timesPowerOfTen, hproduct]
      by_cases hnext : Word.fitsSigned Word.size128 (factor * 10) = true
      · rw [checked, if_pos hnext]
        exact ih (by omega) hnext
      · have hlarge : factor * 10 ≤ factor * 10 * 10 ^ power :=
          le_mul_of_one_le_right (by omega) (one_le_pow₀ (by norm_num))
        rw [checked, if_neg hnext, checked, if_neg]
        · rfl
        · rw [Word.fitsSigned_iff] at hnext ⊢
          omega

theorem fitsSigned_ten_pow_iff {power : Nat} :
    Word.fitsSigned Word.size128 (10 ^ power) = true ↔ power ≤ 38 := by
  rw [Word.fitsSigned_iff]
  constructor
  · rintro ⟨-, hlt⟩
    by_contra! hlarge
    have hle : (10 : Int) ^ 39 ≤ 10 ^ power :=
      pow_le_pow_right₀ (by norm_num) hlarge
    have hlast : ((Word.size128 / 2 : Nat) : Int) < 10 ^ 39 := by decide +kernel
    omega
  · intro hpower
    have hle : (10 : Int) ^ power ≤ 10 ^ 38 :=
      pow_le_pow_right₀ (by norm_num) hpower
    have hpos : (0 : Int) < 10 ^ power := by positivity
    have hlast : (10 : Int) ^ 38 < (Word.size128 / 2 : Nat) := by decide +kernel
    omega

/-! ## Decimals -/

theorem ofSigned_eq_ok_iff {n : Int} {scale : Nat} {d : Decimal} :
    ofSigned n scale = .ok d ↔
      d.negative = decide (n < 0) ∧ d.coefficient = n.natAbs ∧
      d.scale = scale := by
  rw [ofSigned, orRefused_eq_ok_iff, Decimal.ofParts?]
  constructor
  · intro h
    split at h <;> cases h
    exact ⟨rfl, rfl, rfl⟩
  · obtain ⟨negative, coefficient, scale', hcoefficient, hscale⟩ := d
    rintro ⟨rfl, rfl, rfl⟩
    exact dif_pos ⟨hcoefficient, hscale⟩

theorem exists_ofSigned_iff {n : Int} {scale : Nat} :
    (∃ d, ofSigned n scale = .ok d) ↔
      n.natAbs < Decimal.coefficientBound ∧ scale ≤ 28 := by
  constructor
  · rintro ⟨d, hd⟩
    obtain ⟨-, hcoefficient, hscale⟩ := ofSigned_eq_ok_iff.mp hd
    exact ⟨hcoefficient ▸ d.coefficient_lt, hscale ▸ d.scale_le⟩
  · rintro ⟨hcoefficient, hscale⟩
    exact ⟨⟨_, _, _, hcoefficient, hscale⟩,
      ofSigned_eq_ok_iff.mpr ⟨rfl, rfl, rfl⟩⟩

theorem value_of_ofSigned {n : Int} {scale : Nat} {d : Decimal}
    (h : ofSigned n scale = .ok d) : d.value = n / 10 ^ scale := by
  obtain ⟨hnegative, hcoefficient, hscale⟩ := ofSigned_eq_ok_iff.mp h
  have hsigned : d.signed = n := by
    rw [Decimal.signed, hnegative, hcoefficient]
    simp only [decide_eq_true_eq]
    omega
  rw [Decimal.value, hsigned, hscale, Decimal.cast_scaleFactor]

/-! ## Scaling -/

section

variable {m d : Decimal} {exponent : Int} {k : Nat}

theorem scaleBy_of_fraction (hk : m.scale - exponent = k)
    (h : ofSigned m.signed k = .ok d) : scaleBy m exponent = .ok d := by
  have hscale := (exists_ofSigned_iff.mp ⟨d, h⟩).2
  have hword : (28 : Int) < (Word.size64 / 2 : Nat) := by decide
  have hword32 : 28 < Word.size32 := by decide
  have hfits : Word.fitsSigned Word.size64 (m.scale - exponent) = true := by
    rw [Word.fitsSigned_iff]
    omega
  refine bind_eq_ok_iff.mpr ⟨k, checked_eq_ok_iff.mpr ⟨hfits, hk⟩, ?_⟩
  rw [if_pos (Int.natCast_nonneg k)]
  exact bind_eq_ok_iff.mpr ⟨k, unsigned32_eq_ok_iff.mpr ⟨rfl, by omega⟩, h⟩

theorem scaleBy_of_zeros (hk : exponent - m.scale = k) (hpos : 0 < k)
    (hpower : k ≤ 38) (h : ofSigned (m.signed * 10 ^ k) 0 = .ok d) :
    scaleBy m exponent = .ok d := by
  have hcoefficient := (exists_ofSigned_iff.mp ⟨d, h⟩).1
  have hword : (38 : Int) < (Word.size64 / 2 : Nat) := by decide
  have hword32 : 38 < Word.size32 := by decide
  have hword128 : (Decimal.coefficientBound : Int) <
      (Word.size128 / 2 : Nat) := by decide
  have hfits : Word.fitsSigned Word.size64 (m.scale - exponent) = true := by
    rw [Word.fitsSigned_iff]
    omega
  have hnegated : Word.fitsSigned Word.size64 (-(m.scale - exponent)) =
      true := by
    rw [Word.fitsSigned_iff]
    omega
  have hproduct : Word.fitsSigned Word.size128 (m.signed * 10 ^ k) = true := by
    rw [Word.fitsSigned_iff]
    omega
  refine bind_eq_ok_iff.mpr ⟨_, checked_eq_ok_iff.mpr ⟨hfits, rfl⟩, ?_⟩
  rw [if_neg (by omega)]
  refine bind_eq_ok_iff.mpr ⟨_, unchecked_eq_ok_iff.mpr ⟨hnegated, rfl⟩, ?_⟩
  refine bind_eq_ok_iff.mpr ⟨k,
    unsigned32_eq_ok_iff.mpr ⟨by omega, by omega⟩, ?_⟩
  rw [timesPowerOfTen_eq one_pos rfl, one_mul]
  refine bind_eq_ok_iff.mpr
    ⟨_, checked_eq_ok_iff.mpr ⟨fitsSigned_ten_pow_iff.mpr hpower, rfl⟩, ?_⟩
  exact bind_eq_ok_iff.mpr ⟨_, checked_eq_ok_iff.mpr ⟨hproduct, rfl⟩, h⟩

/-- Either the digits are moved into the fraction, or zeros are put behind
them. -/
theorem scaleBy_eq_ok_iff :
    scaleBy m exponent = .ok d ↔
      (∃ k : Nat, m.scale - exponent = k ∧ ofSigned m.signed k = .ok d) ∨
      ∃ k : Nat, exponent - m.scale = k ∧ 0 < k ∧ k ≤ 38 ∧
        ofSigned (m.signed * 10 ^ k) 0 = .ok d := by
  constructor
  · intro h
    obtain ⟨scale, hscale, h⟩ := bind_eq_ok_iff.mp h
    obtain ⟨-, rfl⟩ := checked_eq_ok_iff.mp hscale
    split at h
    case isTrue =>
        obtain ⟨k, hk, h⟩ := bind_eq_ok_iff.mp h
        exact .inl ⟨k, (unsigned32_eq_ok_iff.mp hk).1, h⟩
    case isFalse =>
        obtain ⟨negated, hnegated, h⟩ := bind_eq_ok_iff.mp h
        obtain ⟨k, hk, h⟩ := bind_eq_ok_iff.mp h
        obtain ⟨factor, hfactor, h⟩ := bind_eq_ok_iff.mp h
        obtain ⟨product, hproduct, h⟩ := bind_eq_ok_iff.mp h
        obtain ⟨-, rfl⟩ := unchecked_eq_ok_iff.mp hnegated
        obtain ⟨hk, -⟩ := unsigned32_eq_ok_iff.mp hk
        rw [timesPowerOfTen_eq one_pos rfl, checked_eq_ok_iff, one_mul,
          fitsSigned_ten_pow_iff] at hfactor
        obtain ⟨hpower, rfl⟩ := hfactor
        obtain ⟨-, rfl⟩ := checked_eq_ok_iff.mp hproduct
        exact .inr ⟨k, by omega, by omega, hpower, h⟩
  · rintro (⟨k, hk, h⟩ | ⟨k, hk, hpos, hpower, h⟩)
    · exact scaleBy_of_fraction hk h
    · exact scaleBy_of_zeros hk hpos hpower h

theorem value_of_scaleBy (h : scaleBy m exponent = .ok d) :
    d.value = m.value * 10 ^ exponent := by
  rw [Decimal.value_mul_zpow]
  rcases scaleBy_eq_ok_iff.mp h with ⟨k, hk, h⟩ | ⟨k, hk, -, -, h⟩
  · have hexponent : exponent - m.scale = -(k : Int) := by omega
    rw [value_of_ofSigned h, hexponent, zpow_neg, zpow_natCast, div_eq_mul_inv]
  · rw [value_of_ofSigned h, hk, zpow_natCast, pow_zero, div_one]
    push_cast
    rfl

theorem exists_scaleBy_iff :
    (∃ d, scaleBy m exponent = .ok d) ↔
      -38 ≤ m.scale - exponent ∧ m.scale - exponent ≤ 28 ∧
      |m.value * 10 ^ exponent| < 2 ^ 96 := by
  constructor
  · rintro ⟨d, h⟩
    have hsize : |d.value| < 2 ^ 96 :=
      d.abs_value_le.trans_lt
        (by norm_num [Decimal.overflowBound, Decimal.coefficientBound])
    rw [← value_of_scaleBy h]
    rcases scaleBy_eq_ok_iff.mp h with ⟨k, hk, h⟩ | ⟨k, hk, hpos, hpower, -⟩
    · have hscale := (exists_ofSigned_iff.mp ⟨d, h⟩).2
      exact ⟨by omega, by omega, hsize⟩
    · exact ⟨by omega, by omega, hsize⟩
  · rintro ⟨hlow, hhigh, hsize⟩
    rcases le_or_gt 0 (m.scale - exponent) with hfraction | hzeros
    · obtain ⟨k, hk⟩ := Int.eq_ofNat_of_zero_le hfraction
      obtain ⟨d, hd⟩ : ∃ d, ofSigned m.signed k = .ok d :=
        exists_ofSigned_iff.mpr ⟨m.natAbs_signed ▸ m.coefficient_lt, by omega⟩
      exact ⟨d, scaleBy_of_fraction hk hd⟩
    · obtain ⟨k, hk⟩ :=
        Int.eq_ofNat_of_zero_le (show 0 ≤ exponent - m.scale by omega)
      have hcoefficient : (m.signed * 10 ^ k).natAbs <
          Decimal.coefficientBound := by
        rw [Decimal.value_mul_zpow, hk, zpow_natCast] at hsize
        have hcast : ((m.signed * 10 ^ k).natAbs : ℚ) < 2 ^ 96 := by
          rw [Nat.cast_natAbs, Int.cast_abs]
          push_cast
          exact hsize
        exact_mod_cast hcast
      obtain ⟨d, hd⟩ := exists_ofSigned_iff.mpr ⟨hcoefficient, Nat.zero_le 28⟩
      exact ⟨d, scaleBy_of_zeros hk (by omega) (by omega) hd⟩

end

theorem staysInWords_scaleBy (m : Decimal) {exponent : Int}
    (h : Word.fitsSigned Word.size64 exponent = true) :
    StaysInWords (scaleBy m exponent) := by
  refine (staysInWords_checked _ _).bind fun scale hscale => ?_
  obtain ⟨-, rfl⟩ := checked_eq_ok_iff.mp hscale
  split
  case isTrue =>
      exact (staysInWords_unsigned32 _).bind fun k _ => staysInWords_orRefused _
  case isFalse hneg =>
      have hfits : Word.fitsSigned Word.size64 (-(m.scale - exponent)) =
          true := by
        rw [Word.fitsSigned_iff] at h ⊢
        omega
      rw [unchecked, if_pos hfits]
      refine (staysInWords_unsigned32 _).bind fun k _ => ?_
      rw [timesPowerOfTen_eq one_pos rfl]
      refine (staysInWords_checked _ _).bind fun factor _ => ?_
      exact (staysInWords_checked _ _).bind fun product _ =>
        staysInWords_orRefused _

/-! ## Texts -/

theorem ofChars?_mantissa (n : Json.NumberText) :
    Decimal.ofChars? n.mantissa =
      Decimal.unsigned?.number n.negative n.whole n.fraction := by
  have hunsigned :=
    Decimal.unsigned?_append n.negative n.whole_ne_nil n.isDigit_digits
  obtain ⟨c, cs, hwhole, -⟩ := n.whole_text.2
  rw [Json.NumberText.mantissa]
  cases hnegative : n.negative with
  | true =>
      rw [hnegative] at hunsigned
      exact hunsigned
  | false =>
      rw [hnegative, hwhole] at hunsigned
      have hdigit : c.isDigit = true :=
        n.whole_text.1 c (hwhole ▸ List.mem_cons_self)
      rw [hwhole]
      exact (Decimal.ofChars?_of_isDigit hdigit _).trans hunsigned

theorem value_of_ofChars?_mantissa {n : Json.NumberText} {m : Decimal}
    (h : Decimal.ofChars? n.mantissa = some m) :
    m.value = n.significand ∧ m.scale = n.fraction.length := by
  rw [ofChars?_mantissa, Decimal.unsigned?.number, Decimal.ofParts?] at h
  split at h <;> cases h
  refine ⟨?_, rfl⟩
  rw [Decimal.value_eq, Json.NumberText.significand]
  by_cases hzero : digitsValue (n.whole ++ n.fraction) = 0
  · simp [hzero]
  · rw [bne_iff_ne.mpr hzero, Bool.and_true, Decimal.cast_scaleFactor]

theorem exists_ofChars?_mantissa_iff {n : Json.NumberText} :
    (∃ m, Decimal.ofChars? n.mantissa = some m) ↔
      digitsValue (n.whole ++ n.fraction) < 2 ^ 96 ∧
      n.fraction.length ≤ 28 := by
  rw [ofChars?_mantissa, Decimal.unsigned?.number, ← Option.isSome_iff_exists,
    Decimal.ofParts?]
  split
  case isTrue h => exact iff_of_true rfl h
  case isFalse h => exact iff_of_false Bool.false_ne_true h

theorem int64?_of_isDigit {c : Char} (h : c.isDigit = true) (cs : List Char) :
    int64? (c :: cs) = magnitude64? false (c :: cs) := by
  unfold int64?
  split
  case h_1 heq =>
      obtain ⟨rfl, -⟩ := List.cons.inj heq
      exact absurd h (by decide)
  case h_2 heq =>
      obtain ⟨rfl, -⟩ := List.cons.inj heq
      exact absurd h (by decide)
  case h_3 => rfl

theorem int64?_tail (e : Json.ExponentText) :
    int64? e.tail = if Word.fitsSigned Word.size64 e.value then some e.value
    else none := by
  have hguard : ¬(e.digits.isEmpty || !e.digits.all Char.isDigit) = true := by
    rw [List.all_eq_true.mpr e.isDigit]
    simpa using e.digits_ne_nil
  have htail : int64? e.tail = magnitude64? (e.sign = some '-') e.digits := by
    cases hsign : e.sign with
    | none =>
        obtain ⟨c, cs, hcs⟩ := List.exists_cons_of_ne_nil e.digits_ne_nil
        have hdigit : c.isDigit = true := e.isDigit c (hcs ▸ List.mem_cons_self)
        rw [Json.ExponentText.tail, hsign, hcs]
        exact int64?_of_isDigit hdigit cs
    | some c =>
        rw [Json.ExponentText.tail, hsign]
        rcases e.sign_eq c hsign with rfl | rfl <;> rfl
  rw [htail, magnitude64?, if_neg hguard, Json.ExponentText.value]
  simp only [decide_eq_true_eq]

theorem exactDecimal_text (n : Json.NumberText) :
    exactDecimal n.text =
      (match n.exponent with
      | none => orRefused (Decimal.ofChars? n.mantissa)
      | some e => do
        let m ← orRefused (Decimal.ofChars? n.mantissa)
        scaleBy m (← orRefused (int64? e.tail))) := by
  have hbefore : ∀ c ∈ n.mantissa, (!(c == 'e' || c == 'E')) = true := by
    intro c hc
    obtain ⟨he, hE⟩ := n.not_mark_of_mem_mantissa c hc
    simp [he, hE]
  rw [exactDecimal, Json.NumberText.text, String.toList_ofList]
  dsimp only
  cases n.exponent with
  | none =>
      rw [Option.map_none, Option.getD_none, List.append_nil,
        List.dropWhile_eq_nil_iff.mpr hbefore]
  | some e =>
      have hmark : ∀ c ∈ e.chars.head?, (!(c == 'e' || c == 'E')) = false := by
        rintro c ⟨⟩
        rcases e.mark_eq with h | h <;> simp [h]
      rw [Option.map_some, Option.getD_some,
        takeWhile_append_of_head? hbefore hmark,
        dropWhile_append_of_head? hbefore hmark]
      rfl

theorem value_of_exactDecimal {n : Json.NumberText} {d : Decimal}
    (h : exactDecimal n.text = .ok d) : d.value = n.value := by
  rw [exactDecimal_text] at h
  rw [Json.NumberText.value]
  split at h
  case h_1 hexponent =>
      rw [hexponent, (value_of_ofChars?_mantissa (orRefused_eq_ok_iff.mp h)).1]
      simp
  case h_2 e hexponent =>
      obtain ⟨m, hm, h⟩ := bind_eq_ok_iff.mp h
      obtain ⟨exponent, he, h⟩ := bind_eq_ok_iff.mp h
      rw [orRefused_eq_ok_iff, int64?_tail] at he
      split at he <;> cases he
      rw [hexponent, value_of_scaleBy h,
        (value_of_ofChars?_mantissa (orRefused_eq_ok_iff.mp hm)).1]
      rfl

/-- What is read: digits before the exponent that make a decimal, and an
exponent that moves the point at most 28 places into the digits or 38 behind
them, to a number below `2 ^ 96`. -/
theorem exists_exactDecimal_iff (n : Json.NumberText) :
    (∃ d, exactDecimal n.text = .ok d) ↔
      digitsValue (n.whole ++ n.fraction) < 2 ^ 96 ∧ n.fraction.length ≤ 28 ∧
        ∀ e ∈ n.exponent, -38 ≤ n.fraction.length - e.value ∧
          n.fraction.length - e.value ≤ 28 ∧ |n.value| < 2 ^ 96 := by
  rw [exactDecimal_text]
  cases hexponent : n.exponent with
  | none =>
      simp only [orRefused_eq_ok_iff, exists_ofChars?_mantissa_iff]
      simp
  | some e =>
      have hvalue : n.value = n.significand * 10 ^ e.value := by
        rw [Json.NumberText.value, hexponent]
        rfl
      simp only [Option.mem_some_iff, forall_eq', hvalue]
      rw [← and_assoc, ← exists_ofChars?_mantissa_iff]
      constructor
      · rintro ⟨d, h⟩
        obtain ⟨m, hm, h⟩ := bind_eq_ok_iff.mp h
        obtain ⟨exponent, he, h⟩ := bind_eq_ok_iff.mp h
        rw [orRefused_eq_ok_iff] at hm
        rw [orRefused_eq_ok_iff, int64?_tail] at he
        split at he <;> cases he
        obtain ⟨hsignificand, hscale⟩ := value_of_ofChars?_mantissa hm
        rw [← hsignificand, ← hscale]
        exact ⟨⟨m, hm⟩, exists_scaleBy_iff.mp ⟨d, h⟩⟩
      · rintro ⟨⟨m, hm⟩, hlow, hhigh, hsize⟩
        have hbounds := exists_ofChars?_mantissa_iff.mp ⟨m, hm⟩
        obtain ⟨hsignificand, hscale⟩ := value_of_ofChars?_mantissa hm
        rw [← hscale] at hlow hhigh
        rw [← hsignificand] at hsize
        obtain ⟨d, hd⟩ := exists_scaleBy_iff.mpr ⟨hlow, hhigh, hsize⟩
        have hword : (66 : Int) < (Word.size64 / 2 : Nat) := by decide
        have hfits : Word.fitsSigned Word.size64 e.value = true := by
          rw [Word.fitsSigned_iff]
          omega
        refine ⟨d, bind_eq_ok_iff.mpr ⟨m, orRefused_eq_ok_iff.mpr hm, ?_⟩⟩
        refine bind_eq_ok_iff.mpr ⟨e.value, orRefused_eq_ok_iff.mpr ?_, hd⟩
        rw [int64?_tail, if_pos hfits]

theorem staysInWords_exactDecimal (n : Json.NumberText) :
    StaysInWords (exactDecimal n.text) := by
  rw [exactDecimal_text]
  split
  case h_1 => exact staysInWords_orRefused _
  case h_2 e _ =>
      refine (staysInWords_orRefused _).bind fun m _ => ?_
      refine (staysInWords_orRefused _).bind fun exponent he => ?_
      rw [orRefused_eq_ok_iff, int64?_tail] at he
      split at he <;> cases he
      case isTrue hfits => exact staysInWords_scaleBy m hfits

/-- A decimal that is read from the text of a number is the number that is
written; a number that is no coefficient below `2 ^ 96` at a scale of at most 28
gives none; on the way every result fits its word, whatever the digits of the
exponent; and a decimal is read from each text whose digits before the exponent
make one and whose exponent moves the point at most 28 places into them or 38
behind them, to a number below `2 ^ 96`. -/
theorem exactDecimal_numberText (n : Json.NumberText) :
    (∀ d, exactDecimal? n.text = some d → d.value = n.value) ∧
    ((¬∃ coefficient scale : Nat, coefficient < 2 ^ 96 ∧ scale ≤ 28 ∧
        |n.value| = coefficient / 10 ^ scale) → exactDecimal? n.text = none) ∧
    exactDecimal n.text ≠ .error .overflow ∧
    ((∃ d, exactDecimal? n.text = some d) ↔
      digitsValue (n.whole ++ n.fraction) < 2 ^ 96 ∧ n.fraction.length ≤ 28 ∧
        ∀ e ∈ n.exponent, -38 ≤ n.fraction.length - e.value ∧
          n.fraction.length - e.value ≤ 28 ∧ |n.value| < 2 ^ 96) := by
  have hexact : ∀ d, exactDecimal? n.text = some d → d.value = n.value :=
    fun d h => value_of_exactDecimal (toOption_eq_some_iff.mp h)
  refine ⟨hexact, fun hnone => ?_, staysInWords_exactDecimal n, ?_⟩
  · rw [Option.eq_none_iff_forall_ne_some]
    intro d hd
    apply hnone
    refine ⟨d.coefficient, d.scale, d.coefficient_lt, d.scale_le, ?_⟩
    rw [← hexact d hd, Decimal.abs_value, Decimal.cast_scaleFactor]
  · simp only [exactDecimal?, toOption_eq_some_iff]
    exact exists_exactDecimal_iff n

/-! ### The largest coefficient -/

def largestNumber : Json.NumberText where
  negative := false
  whole := ['7']
  fraction := "9228162514264337593543950335".toList
  exponent := some {
    mark := 'e'
    sign := none
    digits := ['2', '8']
    mark_eq := .inl rfl
    sign_eq := nofun
    digits_ne_nil := List.cons_ne_nil _ _
    isDigit := List.all_eq_true.mp rfl }
  whole_text := ⟨List.all_eq_true.mp rfl, '7', [], rfl, fun _ => rfl⟩
  isDigit_fraction := List.all_eq_true.mp rfl

def beyondLargest : Json.NumberText :=
  { largestNumber with
    fraction := "9228162514264337593543950336".toList
    isDigit_fraction := List.all_eq_true.mp rfl }

theorem value_beyondLargest : beyondLargest.value = 2 ^ 96 := by
  have hdigits : digitsValue (beyondLargest.whole ++ beyondLargest.fraction) =
      2 ^ 96 := by
    decide +kernel
  have hlength : beyondLargest.fraction.length = 28 := by decide
  have hexponent : (beyondLargest.exponent.map Json.ExponentText.value).getD 0 =
      28 := by decide
  have hsign : Decimal.sign beyondLargest.negative = 1 := rfl
  rw [Json.NumberText.value, Json.NumberText.significand, hdigits, hlength,
    hexponent, hsign]
  norm_num

theorem exactDecimal_numberText_largest :
    (∃ d, exactDecimal? largestNumber.text = some d ∧
      d.value = largestNumber.value) ∧
      exactDecimal? beyondLargest.text = none := by
  constructor
  · have hread : (exactDecimal? largestNumber.text).isSome = true := by
      decide +kernel
    obtain ⟨d, hd⟩ := Option.isSome_iff_exists.mp hread
    exact ⟨d, hd, (exactDecimal_numberText largestNumber).1 d hd⟩
  · apply (exactDecimal_numberText beyondLargest).2.1
    rintro ⟨coefficient, scale, hcoefficient, -, hvalue⟩
    have hle : (coefficient / 10 ^ scale : ℚ) ≤ coefficient :=
      div_le_self (Nat.cast_nonneg _) (one_le_pow₀ (by norm_num))
    have hlt : (coefficient : ℚ) < 2 ^ 96 := by exact_mod_cast hcoefficient
    rw [value_beyondLargest, abs_of_pos (by norm_num)] at hvalue
    linarith

end TableQuery.Wire
