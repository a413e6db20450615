import TableQuery.Proofs.Decimal.Value
import TableQuery.Proofs.Json.Numbers

/-!
# What the texts of numbers stand for

A number is written with digits, and with a sign, a fraction and an exponent if
it has them.  Such a text stands for a rational number, and the reader keeps no
other ones.
-/

namespace TableQuery.Json

open Decimal (digitsValue)

structure ExponentText where
  mark : Char
  sign : Option Char
  digits : List Char
  mark_eq : mark = 'e' ∨ mark = 'E'
  sign_eq : ∀ c ∈ sign, c = '+' ∨ c = '-'
  digits_ne_nil : digits ≠ []
  isDigit : ∀ c ∈ digits, c.isDigit = true

structure NumberText where
  negative : Bool
  whole : List Char
  fraction : List Char
  exponent : Option ExponentText
  whole_text : WholeText whole
  isDigit_fraction : ∀ c ∈ fraction, c.isDigit = true

namespace ExponentText

def tail (e : ExponentText) : List Char := e.sign.toList ++ e.digits

def chars (e : ExponentText) : List Char := e.mark :: e.tail

def value (e : ExponentText) : Int :=
  if e.sign = some '-' then -(digitsValue e.digits : Int)
  else digitsValue e.digits

end ExponentText

namespace NumberText

def mantissa (n : NumberText) : List Char :=
  (if n.negative then ['-'] else []) ++ n.whole ++
    (if n.fraction = [] then [] else '.' :: n.fraction)

def text (n : NumberText) : String :=
  String.ofList (n.mantissa ++ (n.exponent.map ExponentText.chars).getD [])

def significand (n : NumberText) : ℚ :=
  Decimal.sign n.negative *
  (digitsValue (n.whole ++ n.fraction) / 10 ^ n.fraction.length)

def value (n : NumberText) : ℚ :=
  n.significand * 10 ^ (n.exponent.map ExponentText.value).getD 0

theorem isDigit_digits (n : NumberText) : ∀ c ∈ n.whole ++ n.fraction,
    c.isDigit = true :=
  List.forall_mem_append.mpr ⟨n.whole_text.1, n.isDigit_fraction⟩

theorem whole_ne_nil (n : NumberText) : n.whole ≠ [] := by
  obtain ⟨c, cs, hwhole, -⟩ := n.whole_text.2
  rw [hwhole]
  exact List.cons_ne_nil c cs

theorem not_mark_of_mem_mantissa (n : NumberText) :
    ∀ c ∈ n.mantissa, c ≠ 'e' ∧ c ≠ 'E' := by
  have hdigit : ∀ c : Char, c.isDigit = true → c ≠ 'e' ∧ c ≠ 'E' := by
    intro c hc
    constructor <;> rintro rfl <;> exact absurd hc (by decide)
  have hfraction : ∀ c ∈ n.fraction, c ≠ 'e' ∧ c ≠ 'E' :=
    fun c hc => hdigit c (n.isDigit_fraction c hc)
  rw [mantissa, List.forall_mem_append, List.forall_mem_append]
  refine ⟨⟨?_, fun c hc => hdigit c (n.whole_text.1 c hc)⟩, ?_⟩
  · cases n.negative <;> simp
  · split
    case isTrue => exact List.forall_mem_nil _
    case isFalse => exact List.forall_mem_cons.mpr ⟨by decide, hfraction⟩

end NumberText

/-! ## Texts that are read -/

theorem wholeText_of_wholePart? {cs whole rest : List Char}
    (h : wholePart? cs = some (whole, rest)) : WholeText whole := by
  unfold wholePart? at h
  split at h
  case h_1 =>
      cases h
      exact ⟨List.forall_mem_singleton.mpr rfl, '0', [], rfl, fun _ => rfl⟩
  case h_2 hzero =>
      dsimp only at h
      split at h
      case isTrue => cases h
      case isFalse hne =>
          cases h
          refine ⟨fun c hc => List.mem_takeWhile_imp hc, ?_⟩
          cases cs with
          | nil => exact absurd rfl hne
          | cons c cs =>
              rw [List.takeWhile_cons] at hne ⊢
              split
              case isTrue =>
                  refine ⟨c, _, rfl, ?_⟩
                  rintro rfl
                  exact absurd rfl (hzero cs)
              case isFalse hc => simp [hc] at hne

theorem fractionText_of_fractionPart? {cs fraction rest : List Char}
    (h : fractionPart? cs = some (fraction, rest)) : FractionText fraction := by
  unfold fractionPart? at h
  split at h
  case h_1 =>
      dsimp only at h
      split at h
      case isTrue => cases h
      case isFalse hne =>
          cases h
          exact .inr ⟨_, rfl, by simpa using hne,
            fun c hc => List.mem_takeWhile_imp hc⟩
  case h_2 =>
      cases h
      exact .inl rfl

theorem FractionText.exists_digits {fraction : List Char}
    (h : FractionText fraction) :
    ∃ digits, (∀ c ∈ digits, c.isDigit = true) ∧
      fraction = if digits = [] then [] else '.' :: digits := by
  obtain rfl | ⟨digits, rfl, hne, hdigits⟩ := h
  · exact ⟨[], List.forall_mem_nil _, rfl⟩
  · exact ⟨digits, hdigits, (if_neg hne).symm⟩

theorem exists_exponentText_of_exponentPart? {cs exponent rest : List Char}
    (h : exponentPart? cs = some (exponent, rest)) :
    ∃ e : Option ExponentText, exponent =
      (e.map ExponentText.chars).getD [] := by
  unfold exponentPart? at h
  split at h
  case h_1 =>
      cases h
      exact ⟨none, rfl⟩
  case h_2 c cs =>
      split at h
      case isFalse =>
          cases h
          exact ⟨none, rfl⟩
      case isTrue =>
          split at h
          case h_1 sign rest' hsigned =>
              have hsign : sign = '+' ∨ sign = '-' := by
                split at hsigned <;> cases hsigned
                case h_1 => exact .inr rfl
                case h_2 => exact .inl rfl
                case h_3 => exact .inl rfl
              dsimp only at h
              split at h
              case isTrue => cases h
              case isFalse hne =>
                  cases h
                  exact ⟨some {
                    mark := 'e'
                    sign := some sign
                    digits := rest'.takeWhile Char.isDigit
                    mark_eq := .inl rfl
                    sign_eq := by
                      rintro _ ⟨⟩
                      exact hsign
                    digits_ne_nil := by simpa using hne
                    isDigit := fun c hc => List.mem_takeWhile_imp hc }, rfl⟩

/-- What the reader keeps of a number is the text of one. -/
theorem exists_numberText_of_readNumber? {cs rest : List Char} {text : String}
    (h : readNumber? cs = some (text, rest)) :
    ∃ n : NumberText, n.text = text := by
  unfold readNumber? at h
  split at h
  case h_1 sign cs' hsigned =>
      obtain ⟨negative, hsign⟩ : ∃ negative : Bool, sign = if negative then
          ['-'] else [] := by
        split at hsigned <;> cases hsigned
        case h_1 => exact ⟨true, rfl⟩
        case h_2 => exact ⟨false, rfl⟩
      obtain ⟨⟨whole, cs₁⟩, hwhole, h⟩ := Option.bind_eq_some_iff.mp h
      obtain ⟨⟨fraction, cs₂⟩, hfraction, h⟩ := Option.bind_eq_some_iff.mp h
      obtain ⟨⟨exponent, cs₃⟩, hexponent, h⟩ := Option.bind_eq_some_iff.mp h
      obtain ⟨digits, hdigits, hpoint⟩ :=
        (fractionText_of_fractionPart? hfraction).exists_digits
      obtain ⟨e, he⟩ := exists_exponentText_of_exponentPart? hexponent
      cases h
      refine ⟨⟨negative, whole, digits, e, wholeText_of_wholePart? hwhole,
        hdigits⟩, ?_⟩
      rw [hsign, hpoint, he]
      rfl

end TableQuery.Json
