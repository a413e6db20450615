import Mathlib.Tactic.IntervalCases
import TableQuery.Json.Reader
import TableQuery.Proofs.Decimal.Text

/-!
# Numbers of documents

Counts and decimals are written so that their texts end where no further digit,
sign, point or exponent follows, and are read back as they are written.
-/

namespace TableQuery

/-! ## Texts of numbers -/

namespace Json

def isNumberChar (c : Char) : Bool :=
  c.isDigit || ['+', '-', '.', 'e', 'E'].contains c

def EndsNumber (rest : List Char) : Prop :=
  ∀ c ∈ rest.head?, isNumberChar c = false

/-- Whether a text is made of such characters. -/
structure PlainNumber (text : String) : Prop where
  ne_nil : text.toList ≠ []
  chars : ∀ c ∈ text.toList, isNumberChar c = true

structure ReadableNumber (text : String) : Prop extends PlainNumber text where
  read : ∀ rest, EndsNumber rest →
    readNumber? (text.toList ++ rest) = some (text, rest)

theorem endsNumber_cons {c : Char} (h : isNumberChar c = false)
    (rest : List Char) : EndsNumber (c :: rest) := by
  intro c' hc'
  rw [List.head?_cons, Option.mem_some_iff] at hc'
  exact hc' ▸ h

theorem isNumberChar_of_isDigit {c : Char} (h : c.isDigit = true) :
    isNumberChar c = true := by
  rw [isNumberChar, h, Bool.true_or]

theorem EndsNumber.not_isDigit {rest : List Char} (h : EndsNumber rest) :
    ∀ c ∈ rest.head?, c.isDigit = false := by
  intro c hc
  have hother := h c hc
  rw [isNumberChar, Bool.or_eq_false_iff] at hother
  exact hother.1

/-! ## Reading the parts -/

/-- Whether digits may stand before the point: a lone zero, or any that start
with another. -/
def WholeText (whole : List Char) : Prop :=
  (∀ c ∈ whole, c.isDigit = true) ∧ ∃ c cs, whole = c :: cs ∧
  (c = '0' → cs = [])

def FractionText (fraction : List Char) : Prop :=
  fraction = [] ∨ ∃ digits, fraction = '.' :: digits ∧ digits ≠ [] ∧
    ∀ c ∈ digits, c.isDigit = true

theorem wholePart?_append {whole rest : List Char} (h : WholeText whole)
    (hrest : ∀ c ∈ rest.head?, c.isDigit = false) :
    wholePart? (whole ++ rest) = some (whole, rest) := by
  obtain ⟨hdigits, c, cs, rfl, hzero⟩ := h
  unfold wholePart?
  split
  case h_1 heq =>
      rw [List.cons_append] at heq
      obtain ⟨rfl, rfl⟩ := List.cons.inj heq
      rw [hzero rfl, List.nil_append]
  case h_2 =>
      dsimp only
      rw [takeWhile_append_of_head? hdigits hrest,
        dropWhile_append_of_head? hdigits hrest]
      rfl

theorem fractionPart?_append {fraction rest : List Char}
    (hfraction : FractionText fraction) (h : EndsNumber rest) :
    fractionPart? (fraction ++ rest) = some (fraction, rest) := by
  obtain rfl | ⟨digits, rfl, hne, hdigits⟩ := hfraction
  · rw [List.nil_append]
    unfold fractionPart?
    split
    case h_1 => exact absurd (h '.' rfl) (by decide)
    case h_2 => rfl
  · rw [List.cons_append, fractionPart?,
      takeWhile_append_of_head? hdigits h.not_isDigit,
      dropWhile_append_of_head? hdigits h.not_isDigit,
      if_neg (by simpa using hne)]

theorem exponentPart?_of_endsNumber {rest : List Char} (h : EndsNumber rest) :
    exponentPart? rest = some ([], rest) := by
  cases rest with
  | nil => rfl
  | cons c rest =>
      have hc := h c rfl
      have hmark : ¬(c == 'e' || c == 'E') = true := by
        rw [Bool.or_eq_true, beq_iff_eq, beq_iff_eq]
        rintro (rfl | rfl)
        · exact absurd hc (by decide)
        · exact absurd hc (by decide)
      exact if_neg hmark

theorem readNumber?_append {negative : Bool} {whole fraction rest : List Char}
    (hwhole : WholeText whole) (hfraction : FractionText fraction)
    (h : EndsNumber rest) :
    readNumber? ((if negative then ['-'] else []) ++ whole ++
      fraction ++ rest) =
      some (String.ofList
        ((if negative then ['-'] else []) ++ whole ++ fraction), rest) := by
  have hrest : ∀ c ∈ (fraction ++ rest).head?, c.isDigit = false := by
    obtain rfl | ⟨digits, rfl, -, -⟩ := hfraction
    · exact h.not_isDigit
    · simp
  have hfraction' := fractionPart?_append hfraction h
  have hwhole' := wholePart?_append hwhole hrest
  have hexponent := exponentPart?_of_endsNumber h
  cases negative with
  | true =>
      simp [readNumber?, hwhole', hfraction', hexponent]
  | false =>
      obtain ⟨hdigits, c, cs, rfl, -⟩ := hwhole
      have hminus : c ≠ '-' := by
        rintro rfl
        exact absurd (hdigits '-' List.mem_cons_self) (by decide)
      rw [List.cons_append] at hwhole'
      simp [readNumber?, hminus, hwhole', hfraction', hexponent,
        String.append_assoc]

/-! ## Counts -/

theorem exists_toDigits_cons (n : Nat) :
    ∃ c cs, Nat.toDigits 10 n = c :: cs ∧ (c = '0' → n = 0) := by
  induction n using Nat.strongRecOn with
  | ind n ih =>
      by_cases hlt : n < 10
      · refine ⟨n.digitChar, [], Nat.toDigits_of_lt_base hlt, fun hzero => ?_⟩
        interval_cases n <;> first | rfl | cases hzero
      · obtain ⟨c, cs, hcs, hzero⟩ := ih (n / 10) (by omega)
        refine ⟨c, cs ++ [(n % 10).digitChar], ?_, fun hc => ?_⟩
        · rw [Nat.toDigits_of_base_le (by decide) (Nat.le_of_not_lt hlt), hcs,
            List.cons_append]
        · have := hzero hc
          omega

theorem wholeText_toDigits (n : Nat) : WholeText (Nat.toDigits 10 n) := by
  obtain ⟨c, cs, hcs, hzero⟩ := exists_toDigits_cons n
  refine ⟨fun d hd => Nat.isDigit_of_mem_toDigits (by decide) (by decide) hd,
    c, cs, hcs, ?_⟩
  intro hc
  rw [hzero hc, Nat.toDigits_zero] at hcs
  exact (List.cons.inj hcs).2.symm

theorem toList_toString (n : Nat) : (toString n).toList = Nat.toDigits 10 n :=
  Nat.toList_repr

theorem plainNumber_toString (n : Nat) : PlainNumber (toString n) where
  ne_nil := by
    rw [toList_toString]
    exact Nat.toDigits_ne_nil
  chars := by
    rw [toList_toString]
    exact fun c hc => isNumberChar_of_isDigit ((wholeText_toDigits n).1 c hc)

theorem readableNumber_toString (n : Nat) : ReadableNumber (toString n) := by
  refine ⟨plainNumber_toString n, fun rest hrest => ?_⟩
  have hread :=
    @readNumber?_append false (Nat.toDigits 10 n) [] rest (wholeText_toDigits n)
      (.inl rfl) hrest
  have htext : String.ofList (Nat.toDigits 10 n) = toString n := by
    rw [← toList_toString, String.ofList_toList]
  rw [List.append_nil, if_neg Bool.false_ne_true, List.nil_append, htext]
    at hread
  rwa [toList_toString]

theorem ofNat_inj {m n : Nat} : ofNat m = ofNat n ↔ m = n := by
  refine ⟨fun h => ?_, congrArg ofNat⟩
  have htext := congrArg String.toList (number.inj h)
  rw [toList_toString, toList_toString] at htext
  have hvalue := congrArg (Nat.ofDigitChars 10 · 0) htext
  rwa [Nat.ofDigitChars_ten_toDigits, Nat.ofDigitChars_ten_toDigits] at hvalue

end Json

/-! ## Decimals -/

namespace Decimal

theorem wholeText_of_digits {d : Decimal} {whole fraction : List Char}
    (hlength : fraction.length = d.scale)
    (hdigits : whole ++ fraction = d.digits) : Json.WholeText whole := by
  have hdigit : ∀ c ∈ whole, c.isDigit = true := fun c hc =>
    isDigit_of_mem_digits (hdigits ▸ List.mem_append_left fraction hc)
  refine ⟨hdigit, ?_⟩
  have hlengths := congrArg List.length hdigits
  rw [List.length_append, hlength, digits, List.length_append,
    List.length_replicate] at hlengths
  by_cases hshort : (Nat.toDigits 10 d.coefficient).length ≤ d.scale
  · -- The number is below one, so that a zero is put before the point.
    obtain ⟨c, rfl⟩ := List.length_eq_one_iff.mp (by omega : whole.length = 1)
    exact ⟨c, [], rfl, fun _ => rfl⟩
  · obtain ⟨c, cs, hcs, hzero⟩ := Json.exists_toDigits_cons d.coefficient
    have hpad : d.scale + 1 - (Nat.toDigits 10 d.coefficient).length =
        0 := by omega
    have hwhole : whole ++ fraction = c :: cs := by
      rw [hdigits, digits, hpad, List.replicate_zero, List.nil_append, hcs]
    cases whole with
    | nil =>
        rw [List.length_nil] at hlengths
        omega
    | cons c' rest =>
        obtain ⟨rfl, hrest⟩ := List.cons.inj hwhole
        refine ⟨c', rest, rfl, fun hc => ?_⟩
        rw [hzero hc, Nat.toDigits_zero] at hcs
        rw [← (List.cons.inj hcs).2] at hrest
        exact (List.append_eq_nil_iff.mp hrest).1

theorem exists_toChars (d : Decimal) :
    ∃ whole fraction, Json.WholeText whole ∧ Json.FractionText fraction ∧
      d.toChars = (if d.negative then ['-'] else []) ++ whole ++ fraction := by
  obtain ⟨whole, fraction, htext, -, hlength, hdigits⟩ := d.exists_abs_toChars
  refine ⟨whole, if d.scale = 0 then [] else '.' :: fraction,
    wholeText_of_digits hlength hdigits, ?_, ?_⟩
  · split
    case isTrue => exact .inl rfl
    case isFalse hscale =>
        refine .inr ⟨fraction, rfl, List.ne_nil_of_length_pos (by omega),
          fun c hc => ?_⟩
        exact isDigit_of_mem_digits (hdigits ▸ List.mem_append_right whole hc)
  · cases hnegative : d.negative with
    | true =>
        rw [toChars_of_negative hnegative, htext]
        rfl
    | false =>
        rw [toChars_of_not_negative hnegative, htext]
        rfl

theorem plainNumber_render (d : Decimal) : Json.PlainNumber d.render := by
  rw [render]
  refine ⟨?_, ?_⟩ <;> rw [String.toList_ofList]
  · exact d.toChars_ne_nil
  · obtain ⟨whole, fraction, hwhole, hfraction, htext⟩ := d.exists_toChars
    have hsign : ∀ c ∈ (if d.negative then ['-'] else []), Json.isNumberChar c =
        true := by
      cases d.negative <;> simp [Json.isNumberChar]
    have hdigits : ∀ c ∈ fraction, Json.isNumberChar c = true := by
      obtain rfl | ⟨digits, rfl, -, hdigits⟩ := hfraction
      · exact List.forall_mem_nil _
      · exact List.forall_mem_cons.mpr
          ⟨by decide, fun c hc => Json.isNumberChar_of_isDigit (hdigits c hc)⟩
    rw [htext, List.forall_mem_append, List.forall_mem_append]
    exact ⟨⟨hsign, fun c hc => Json.isNumberChar_of_isDigit (hwhole.1 c hc)⟩,
      hdigits⟩

theorem readableNumber_render (d : Decimal) : Json.ReadableNumber d.render := by
  refine ⟨d.plainNumber_render, fun rest hrest => ?_⟩
  obtain ⟨whole, fraction, hwhole, hfraction, htext⟩ := d.exists_toChars
  rw [render, String.toList_ofList, htext]
  exact Json.readNumber?_append hwhole hfraction hrest

end Decimal

end TableQuery
