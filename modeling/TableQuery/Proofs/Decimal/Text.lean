import TableQuery.Decimal.Basic
import TableQuery.Proofs.Text

/-!
# Decimals as text

The text of a decimal reads back as the same coefficient at the same scale.
Only the sign of a zero is lost.
-/

namespace TableQuery

namespace Decimal

/-! ## Digits -/

theorem digitsValue_digits (d : Decimal) :
    digitsValue d.digits = d.coefficient := by
  have hvalue : digitsValue d.digits = Nat.ofDigitChars 10 d.digits 0 := rfl
  rw [hvalue, digits, Nat.ofDigitChars_append, Nat.ofDigitChars_replicate_zero,
    Nat.mul_zero, Nat.ofDigitChars_ten_toDigits]

theorem isDigit_of_mem_digits {d : Decimal} {c : Char} (h : c ∈ d.digits) :
    c.isDigit := by
  rw [digits, List.mem_append] at h
  obtain hzero | hdigit := h
  · rw [List.eq_of_mem_replicate hzero]
    decide
  · exact Nat.isDigit_of_mem_toDigits (by decide) (by decide) hdigit

theorem scale_lt_length_digits (d : Decimal) : d.scale < d.digits.length := by
  rw [digits, List.length_append, List.length_replicate]
  omega

/-! ## Reading back -/

theorem exists_abs_toChars (d : Decimal) :
    ∃ whole fraction,
    d.abs.toChars = whole ++ (if d.scale = 0 then [] else '.' :: fraction) ∧
      whole ≠ [] ∧ fraction.length = d.scale ∧
      whole ++ fraction = d.digits := by
  have hlength := scale_lt_length_digits d
  refine ⟨d.digits.take (d.digits.length - d.scale),
    d.digits.drop (d.digits.length - d.scale), rfl, ?_, ?_,
    List.take_append_drop _ _⟩
  · intro hnil
    have hzero := congrArg List.length hnil
    rw [List.length_take, List.length_nil] at hzero
    omega
  · rw [List.length_drop]
    omega

theorem unsigned?_append {whole fraction : List Char} (negative : Bool)
    (hwhole : whole ≠ [])
    (hdigits : ∀ c ∈ whole ++ fraction, c.isDigit = true) :
    unsigned? negative (whole ++ if fraction = [] then [] else
      '.' :: fraction) =
      unsigned?.number negative whole fraction := by
  obtain ⟨hdigitsWhole, hdigitsFraction⟩ := List.forall_mem_append.mp hdigits
  have hends : ∀ c ∈ (if fraction = [] then [] else '.' :: fraction).head?,
      c.isDigit = false := by
    split <;> simp
  have htake := takeWhile_append_of_head? hdigitsWhole hends
  have hdrop := dropWhile_append_of_head? hdigitsWhole hends
  simp only [unsigned?, htake, hdrop, List.isEmpty_iff, if_neg hwhole]
  by_cases hfraction : fraction = []
  · simp [hfraction]
  · have hall : fraction.all Char.isDigit = true :=
      List.all_eq_true.mpr hdigitsFraction
    simp [hfraction, hall]

theorem unsigned?_abs_toChars (negative : Bool) (d : Decimal) :
    unsigned? negative d.abs.toChars =
      some { d with negative := negative && d.coefficient != 0 } := by
  obtain ⟨whole, fraction, htext, hwhole, hfraction, hdigits⟩ :=
    exists_abs_toChars d
  have hdigit : ∀ c ∈ whole ++ fraction, c.isDigit :=
    fun c hc => isDigit_of_mem_digits (hdigits ▸ hc)
  have hpoint : d.scale = 0 ↔ fraction = [] := by
    rw [← hfraction, List.length_eq_zero_iff]
  have hbounds : d.coefficient < coefficientBound ∧ d.scale ≤ maxScale :=
    ⟨d.coefficient_lt, d.scale_le⟩
  simp only [htext, hpoint]
  rw [unsigned?_append negative hwhole hdigit]
  simp [unsigned?.number, ofParts?, hdigits, digitsValue_digits,
    hfraction, hbounds]

theorem exists_abs_toChars_cons (d : Decimal) :
    ∃ c cs, d.abs.toChars = c :: cs ∧ c.isDigit := by
  obtain ⟨whole, fraction, htext, hwhole, -, hdigits⟩ := exists_abs_toChars d
  obtain ⟨c, whole, rfl⟩ := List.exists_cons_of_ne_nil hwhole
  have hmem : c ∈ d.digits := hdigits ▸ List.mem_cons_self
  exact ⟨c, _, htext, isDigit_of_mem_digits hmem⟩

theorem toChars_of_negative {d : Decimal} (h : d.negative = true) :
    d.toChars = '-' :: d.abs.toChars := by
  simp only [toChars, h]
  rfl

theorem toChars_of_not_negative {d : Decimal} (h : d.negative = false) :
    d.toChars = d.abs.toChars := by
  simp only [toChars, h]
  rfl

theorem toChars_ne_nil (d : Decimal) : d.toChars ≠ [] := by
  cases hnegative : d.negative with
  | true =>
      rw [toChars_of_negative hnegative]
      exact List.cons_ne_nil _ _
  | false =>
      obtain ⟨c, cs, hcs, -⟩ := exists_abs_toChars_cons d
      rw [toChars_of_not_negative hnegative, hcs]
      exact List.cons_ne_nil _ _

theorem ofChars?_of_isDigit {c : Char} (h : c.isDigit = true) (cs : List Char) :
    ofChars? (c :: cs) = unsigned? false (c :: cs) := by
  unfold ofChars?
  split
  case h_1 _ heq =>
      obtain ⟨rfl, -⟩ := List.cons.inj heq
      exact absurd h (by decide)
  case h_2 _ heq =>
      obtain ⟨rfl, -⟩ := List.cons.inj heq
      exact absurd h (by decide)
  case h_3 => rfl

/-- A decimal as its text tells it: a zero loses its sign. -/
def reread (d : Decimal) : Decimal :=
  { d with negative := d.negative && d.coefficient != 0 }

theorem ofChars?_toChars (d : Decimal) :
    ofChars? d.toChars = some d.reread := by
  unfold reread
  cases hnegative : d.negative with
  | true =>
      rw [toChars_of_negative hnegative]
      exact unsigned?_abs_toChars true d
  | false =>
      obtain ⟨c, cs, hcs, hdigit⟩ := exists_abs_toChars_cons d
      have hunsigned := unsigned?_abs_toChars false d
      rw [toChars_of_not_negative hnegative]
      rw [hcs] at hunsigned ⊢
      rw [ofChars?_of_isDigit hdigit, hunsigned]

theorem signed_reread (d : Decimal) : d.reread.signed = d.signed := by
  by_cases hzero : d.coefficient = 0 <;> simp [reread, signed, hzero]

theorem sameValue_reread (d : Decimal) : d.reread.sameValue d = true := by
  rw [sameValue, compare, signed_reread]
  simp [reread]

theorem sameValue_of_toChars_eq {d d' : Decimal} (h : d.toChars = d'.toChars) :
    d.sameValue d' = true := by
  have hread := congrArg ofChars? h
  rw [ofChars?_toChars, ofChars?_toChars, Option.some.injEq] at hread
  have hsigned : d.signed = d'.signed := by
    rw [← signed_reread, hread, signed_reread]
  have hscales := congrArg Decimal.scale hread
  have hscale : d.scale = d'.scale := hscales
  rw [sameValue, compare, hsigned, hscale]
  simp

theorem ofString?_render {d : Decimal} (h : d.negative = false) :
    ofString? d.render = some d := by
  rw [ofString?, render, String.toList_ofList, ofChars?_toChars, reread, h,
    Bool.false_and, ← h]

theorem negative_of_unsigned? {negative : Bool} {cs : List Char} {d : Decimal}
    (h : unsigned? negative cs = some d) :
    d.negative = (negative && d.coefficient != 0) := by
  have hnumber : ∀ whole fraction,
      unsigned?.number negative whole fraction = some d →
      d.negative = (negative && d.coefficient != 0) := by
    intro whole fraction hparts
    simp only [unsigned?.number, ofParts?] at hparts
    split at hparts <;> cases hparts
    rfl
  unfold unsigned? at h
  dsimp only at h
  split at h
  case isTrue => cases h
  case isFalse =>
      split at h
      case h_1 => exact hnumber _ _ h
      case h_2 =>
          split at h
          case isTrue => exact hnumber _ _ h
          case isFalse => cases h
      case h_3 => cases h

theorem reread_eq_self_iff {d : Decimal} :
    d.reread = d ↔ (d.negative = true → d.coefficient ≠ 0) := by
  obtain ⟨negative, coefficient, scale, hcoefficient, hscale⟩ := d
  cases negative <;> simp [reread]

theorem reread_of_ofChars? {cs : List Char} {d : Decimal}
    (h : ofChars? cs = some d) : d.reread = d := by
  have hsigned : ∃ negative rest, unsigned? negative rest = some d := by
    unfold ofChars? at h
    split at h <;> exact ⟨_, _, h⟩
  obtain ⟨negative, rest, hsigned⟩ := hsigned
  rw [reread_eq_self_iff, negative_of_unsigned? hsigned]
  simp

theorem negative_of_ofString? {digits : String} {d : Decimal}
    (hdigits : ∃ c cs, digits.toList = c :: cs ∧ c.isDigit = true)
    (h : ofString? digits = some d) : d.negative = false := by
  obtain ⟨c, cs, hcs, hdigit⟩ := hdigits
  rw [ofString?, hcs, ofChars?_of_isDigit hdigit] at h
  rw [negative_of_unsigned? h, Bool.false_and]

end Decimal

end TableQuery
