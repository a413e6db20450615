import TableQuery.Proofs.Calendar.Truncation

/-!
# Fractions of seconds and offsets

What may follow the seconds of a timestamp is read over: a fraction, an offset
from universal time, or both.  There is one exception, an offset behind
universal time right after the seconds: its minus sign is taken for a part of
the seconds, and the text cannot be read.
-/

namespace TableQuery

namespace Timestamp

/-! ## Texts -/

structure Digits where
  chars : List Char
  isDigit : ∀ c ∈ chars, c.isDigit = true

structure DateTimeText where
  date : List Char
  mark : Char
  hour : Digits
  minute : Digits
  second : Digits
  isDate : (date? date).isSome
  isMark : isTimeMark mark = true

inductive Offset where
  | zero
  | ahead (hour minute : Digits)
  | behind (hour minute : Digits)

structure Suffix where
  fraction : Option Digits
  offset : Option Offset

def clockChars (hour minute : Digits) (rest : List Char) : List Char :=
  hour.chars ++ ':' :: (minute.chars ++ ':' :: rest)

def DateTimeText.toChars (t : DateTimeText) : List Char :=
  t.date ++ t.mark :: clockChars t.hour t.minute t.second.chars

def Offset.toChars : Offset → List Char
  | zero => ['Z']
  | ahead hour minute => '+' :: (hour.chars ++ ':' :: minute.chars)
  | behind hour minute => '-' :: (hour.chars ++ ':' :: minute.chars)

def Suffix.toChars (s : Suffix) : List Char :=
  ((s.fraction.map fun digits => '.' :: digits.chars).getD []) ++
    (s.offset.map Offset.toChars).getD []

/-- Whether the offset is behind universal time and comes right after the
seconds. -/
def Suffix.TakenForSeconds (s : Suffix) : Prop :=
  s.fraction = none ∧ ∃ hour minute, s.offset = some (.behind hour minute)

/-! ## What is read as seconds -/

variable {text : DateTimeText} {suffix : Suffix} {t : Timestamp}

def secondChars (cs : List Char) : List Char :=
  (withoutOffset cs).takeWhile (· != '.')

theorem secondChars_append (digits : Digits) (cs : List Char) :
    secondChars (digits.chars ++ cs) = digits.chars ++ secondChars cs := by
  rw [secondChars, withoutOffset_append digits.isDigit,
    List.takeWhile_append_of_pos]
  · rfl
  · intro c hc
    rw [bne_iff_ne]
    rintro rfl
    exact absurd (digits.isDigit _ hc) (by decide)

theorem secondChars_suffix (h : ¬suffix.TakenForSeconds) :
    secondChars suffix.toChars = [] := by
  obtain ⟨fraction, offset⟩ := suffix
  cases fraction with
  | some digits => rfl
  | none =>
      cases offset with
      | none => rfl
      | some offset =>
          cases offset with
          | zero => rfl
          | ahead hour minute => rfl
          | behind hour minute => exact absurd ⟨rfl, hour, minute, rfl⟩ h

theorem mem_secondChars_suffix (h : suffix.TakenForSeconds) :
    '-' ∈ secondChars suffix.toChars := by
  obtain ⟨fraction, offset⟩ := suffix
  obtain ⟨rfl, hour, minute, rfl⟩ := h
  exact List.mem_cons_self

/-- What follows the seconds is read over, or makes the seconds unreadable. -/
theorem time?_clockChars (hour minute second : Digits) (suffix : Suffix) :
    (¬suffix.TakenForSeconds →
      time? (clockChars hour minute (second.chars ++ suffix.toChars)) =
        time? (clockChars hour minute second.chars)) ∧
    (suffix.TakenForSeconds →
      time? (clockChars hour minute (second.chars ++ suffix.toChars)) =
        none) := by
  have hread : ∀ rest, time? (clockChars hour minute rest) =
      (number? Word.size32 hour.chars).bind fun h =>
        (number? Word.size32 minute.chars).bind fun m =>
          (number? Word.size32 (secondChars rest)).bind fun s =>
            checkedTime? h m s :=
    fun _ => time?_append hour.isDigit minute.isDigit
  have hsecond : secondChars second.chars = second.chars := by
    simpa [secondChars, withoutOffset] using secondChars_append second []
  simp only [hread, secondChars_append, hsecond]
  constructor
  · intro h
    rw [secondChars_suffix h, List.append_nil]
  · intro h
    have hnumber : number? Word.size32
        (second.chars ++ secondChars suffix.toChars) = none := by
      rw [Option.eq_none_iff_forall_ne_some]
      intro n hn
      have hdash :=
        List.mem_append_right second.chars (mem_secondChars_suffix h)
      obtain hdigit | heq :=
        isDigit_or_eq_of_number? hn _ hdash <;> contradiction
    rw [hnumber]
    simp

/-! ## What is read of the text -/

def Inked (cs : List Char) : Prop := ∀ c ∈ cs, Unicode.isWhiteSpace c = false

theorem Inked.append {as bs : List Char} (has : Inked as) (hbs : Inked bs) :
    Inked (as ++ bs) :=
  fun c hc => (List.mem_append.mp hc).elim (has c) (hbs c)

theorem Inked.cons {a : Char} {as : List Char}
    (ha : Unicode.isWhiteSpace a = false) (has : Inked as) :
    Inked (a :: as) := by
  rintro c (_ | ⟨_, hc⟩)
  · exact ha
  · exact has c hc

theorem inked_nil : Inked [] := fun _ h => absurd h List.not_mem_nil

theorem Digits.inked (digits : Digits) : Inked digits.chars :=
  fun c hc => isWhiteSpace_of_isDigit (digits.isDigit c hc)

theorem Offset.inked (offset : Offset) : Inked offset.toChars := by
  cases offset with
  | zero => exact inked_nil.cons rfl
  | ahead hour minute =>
      exact (hour.inked.append (minute.inked.cons rfl)).cons rfl
  | behind hour minute =>
      exact (hour.inked.append (minute.inked.cons rfl)).cons rfl

theorem Suffix.inked (suffix : Suffix) : Inked suffix.toChars := by
  obtain ⟨fraction, offset⟩ := suffix
  apply Inked.append
  · cases fraction with
    | none => exact inked_nil
    | some digits => exact digits.inked.cons rfl
  · cases offset with
    | none => exact inked_nil
    | some offset => exact offset.inked

theorem inked_clockChars (hour minute : Digits) {rest : List Char}
    (hrest : Inked rest) : Inked (clockChars hour minute rest) :=
  hour.inked.append ((minute.inked.append (hrest.cons rfl)).cons rfl)

theorem ofChars?_clock {rest : List Char} {d : CivilDate}
    (hd : date? text.date = some d) (hrest : Inked rest) :
    ofChars? (text.date ++ text.mark :: clockChars text.hour text.minute rest) =
      (time? (clockChars text.hour text.minute rest)).map fun c =>
        ⟨some d, some c⟩ := by
  have hne : clockChars text.hour text.minute rest ≠ [] :=
    List.append_ne_nil_of_right_ne_nil _ (List.cons_ne_nil _ _)
  exact ofChars?_append hd text.isMark hne fun c hc =>
    inked_clockChars text.hour text.minute hrest c (List.mem_of_mem_getLast? hc)

theorem DateTimeText.toChars_append (text : DateTimeText) (cs : List Char) :
    text.toChars ++ cs =
      text.date ++ text.mark :: clockChars text.hour text.minute
        (text.second.chars ++ cs) := by
  simp [DateTimeText.toChars, clockChars]

theorem ofChars?_append_suffix (text : DateTimeText) (suffix : Suffix) :
    (¬suffix.TakenForSeconds →
      ofChars? (text.toChars ++ suffix.toChars) = ofChars? text.toChars) ∧
    (suffix.TakenForSeconds →
      ofChars? (text.toChars ++ suffix.toChars) = none) := by
  obtain ⟨d, hd⟩ := Option.isSome_iff_exists.mp text.isDate
  obtain ⟨hover, htaken⟩ :=
    time?_clockChars text.hour text.minute text.second suffix
  rw [text.toChars_append,
    ofChars?_clock hd (text.second.inked.append suffix.inked),
    DateTimeText.toChars, ofChars?_clock hd text.second.inked]
  exact ⟨fun h => by rw [hover h], fun h => by rw [htaken h]; rfl⟩

theorem shape_of_ofChars? (h : ofChars? text.toChars = some t) :
    t.shape = .dateTime := by
  obtain ⟨d, hd⟩ := Option.isSome_iff_exists.mp text.isDate
  rw [DateTimeText.toChars, ofChars?_clock hd text.second.inked] at h
  obtain ⟨c, -, rfl⟩ := Option.map_eq_some_iff.mp h
  rfl

end Timestamp

/-! ## Buckets -/

namespace Cell

open Timestamp

variable {text : DateTimeText} {suffix : Suffix} {cell : String → Cell}

inductive OfText : (String → Cell) → Prop
  | string : OfText string
  | temporal : OfText temporal

theorem OfText.timestamp?_eq (h : OfText cell) (cs : List Char) :
    (cell (String.ofList cs)).timestamp? = ofChars? cs := by
  cases h <;> rw [timestamp?, parse?, String.toList_ofList]

theorem validFor_dateTime (u : CalendarUnit) : u.validFor .dateTime = true := by
  cases u <;> rfl

/-- A suffix makes no difference to any unit, if and only if it is not an offset
behind universal time without a fraction before it. -/
theorem bucket_append_suffix (hcell : OfText cell)
    (accepted : (ofChars? text.toChars).isSome) (suffix : Suffix)
    (u : CalendarUnit) :
    (cell (String.ofList (text.toChars ++ suffix.toChars))).bucket u =
        (cell (String.ofList text.toChars)).bucket u ↔
      ¬suffix.TakenForSeconds := by
  obtain ⟨t, ht⟩ := Option.isSome_iff_exists.mp accepted
  obtain ⟨hover, htaken⟩ := ofChars?_append_suffix text suffix
  constructor
  · intro heq h
    have hread := (hcell.timestamp?_eq text.toChars).trans ht
    have hnull :
        (cell (String.ofList (text.toChars ++ suffix.toChars))).bucket u =
          .ok null := by
      rw [bucket_eq, hcell.timestamp?_eq, htaken h]
      rfl
    have hfits : u.validFor t.shape = true :=
      shape_of_ofChars? ht ▸ validFor_dateTime u
    exact bucket_ne_null hread hfits (heq.symm.trans hnull)
  · intro h
    rw [bucket_eq, bucket_eq, hcell.timestamp?_eq, hcell.timestamp?_eq, hover h]

/-! ### Half past ten on the east coast -/

def halfPastTen : DateTimeText where
  date := "2024-03-15".toList
  mark := 'T'
  hour := ⟨['1', '0'], List.all_eq_true.mp rfl⟩
  minute := ⟨['3', '0'], List.all_eq_true.mp rfl⟩
  second := ⟨['0', '0'], List.all_eq_true.mp rfl⟩
  isDate := rfl
  isMark := rfl

def fiveHoursBehind : Offset :=
  .behind ⟨['0', '5'], List.all_eq_true.mp rfl⟩
    ⟨['0', '0'], List.all_eq_true.mp rfl⟩

theorem bucket_append_suffix_halfPastTen :
    (ofChars? halfPastTen.toChars).isSome ∧
      bucket .day (.temporal "2024-03-15T10:30:00") = .ok
          (.temporal "2024-03-15") ∧
      bucket .day (.temporal "2024-03-15T10:30:00.25-05:00") =
        bucket .day (.temporal "2024-03-15T10:30:00") ∧
      bucket .day (.temporal "2024-03-15T10:30:00-05:00") ≠
        bucket .day (.temporal "2024-03-15T10:30:00") := by
  have accepted : (ofChars? halfPastTen.toChars).isSome := rfl
  have hsuffix :=
    fun suffix => bucket_append_suffix .temporal accepted suffix .day
  refine ⟨accepted, rfl, ?_, ?_⟩
  · have hfraction :=
      hsuffix ⟨some ⟨['2', '5'], List.all_eq_true.mp rfl⟩, some fiveHoursBehind⟩
    exact hfraction.mpr fun h => nomatch h.1
  · exact fun heq => (hsuffix ⟨none, some fiveHoursBehind⟩).mp heq
      ⟨rfl, _, _, rfl⟩

/-- An offset right after the seconds can make a text unreadable. -/
theorem not_forall_bucket_append_suffix :
    ¬∀ (cell : String → Cell) (text : DateTimeText) (suffix : Suffix)
      (u : CalendarUnit),
      OfText cell → (ofChars? text.toChars).isSome →
      (cell (String.ofList (text.toChars ++ suffix.toChars))).bucket u =
        (cell (String.ofList text.toChars)).bucket u := by
  intro h
  have hday :=
    h .temporal halfPastTen ⟨none, some fiveHoursBehind⟩ .day .temporal rfl
  exact absurd hday (by decide)

end Cell

end TableQuery
