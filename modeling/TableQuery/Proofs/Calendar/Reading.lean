import Mathlib.Algebra.Group.Nat.Defs
import Mathlib.Data.List.Basic
import TableQuery.Calendar.Timestamp
import TableQuery.Proofs.Text

/-!
# Timestamps as text

A text is cut at the first separator of each kind, and the pieces are read as
numbers.  What is read has a month, a day and a time of day within their bounds,
and every such timestamp is read back from its own text.
-/

namespace TableQuery

/-- A date that can be read: the month may be too short for the day. -/
structure CivilDate.Readable (d : CivilDate) : Prop where
  year_nonneg : 0 ≤ d.year
  year_lt : d.year < (Word.size64 / 2 : Nat)
  month_bounds : 1 ≤ d.month ∧ d.month ≤ 12
  day_bounds : 1 ≤ d.day ∧ d.day ≤ 31

structure ClockTime.Readable (c : ClockTime) : Prop where
  hour_lt : c.hour < 24
  minute_lt : c.minute < 60
  second_lt : c.second < 61

namespace Timestamp

variable {p : Char → Bool} {as bs cs : List Char} {bound n width : Nat}
  {d : CivilDate} {c : ClockTime} {t : Timestamp}

structure Readable (t : Timestamp) : Prop where
  date : ∀ d ∈ t.date, d.Readable
  time : ∀ c ∈ t.time, c.Readable
  present : t.date.isSome ∨ t.time.isSome

/-! ## Cutting -/

theorem splitOnce?_append {c : Char} (has : ∀ a ∈ as, p a = false)
    (hc : p c = true) : splitOnce? p (as ++ c :: bs) = some (as, bs) := by
  have hrun : ∀ a ∈ as, (!p a) = true := by simpa using has
  have hend : ∀ b ∈ (c :: bs).head?, (!p b) = false := by simp [hc]
  rw [splitOnce?, dropWhile_append_of_head? hrun hend,
    takeWhile_append_of_head? hrun hend]

theorem splitOnce?_eq_none (h : ∀ c ∈ cs, p c = false) :
    splitOnce? p cs = none := by
  rw [splitOnce?, List.dropWhile_eq_nil_iff.mpr (by simpa using h)]

theorem splitOnce?_mark {mark : Char} (h : mark ∉ as) :
    splitOnce? (· == mark) (as ++ mark :: bs) = some (as, bs) :=
  splitOnce?_append (fun _ ha => beq_eq_false_iff_ne.mpr fun heq =>
      h (heq ▸ ha))
    (beq_self_eq_true mark)

theorem exists_of_splitOnce? (h : splitOnce? p cs = some (as, bs)) :
    ∃ c, cs = as ++ c :: bs ∧ p c = true := by
  unfold splitOnce? at h
  split at h
  case h_1 => cases h
  case h_2 c rest hrest =>
      cases h
      refine ⟨c, ?_, ?_⟩
      · rw [← hrest, List.takeWhile_append_dropWhile]
      · have hhead := List.head?_dropWhile_not (!p ·) cs
        rw [hrest] at hhead
        simpa using hhead

/-! ## Numbers -/

theorem digits?_eq_some_iff : digits? bound cs = some n ↔
    cs ≠ [] ∧ (∀ c ∈ cs, c.isDigit = true) ∧ Nat.ofDigitChars 10 cs 0 = n ∧
      n < bound := by
  have hvalue : cs.foldl (fun n c => 10 * n + (c.toNat - '0'.toNat)) 0 =
    Nat.ofDigitChars 10 cs 0 := rfl
  rw [digits?, hvalue]
  split
  case isTrue h =>
      rw [Bool.or_eq_true, List.isEmpty_iff, Bool.not_eq_true',
        List.all_eq_false] at h
      constructor
      · rintro ⟨⟩
      · rintro ⟨hne, hdigits, -⟩
        obtain hnil | ⟨c, hc, hdigit⟩ := h
        · exact absurd hnil hne
        · exact absurd (hdigits c hc) hdigit
  case isFalse h =>
      rw [Bool.or_eq_true, not_or, List.isEmpty_iff, Bool.not_eq_true',
        Bool.not_eq_false, List.all_eq_true] at h
      rw [Option.ite_none_right_eq_some, Option.some.injEq, and_comm]
      constructor
      · rintro ⟨rfl, hlt⟩
        exact ⟨h.1, h.2, rfl, hlt⟩
      · rintro ⟨-, -, rfl, hlt⟩
        exact ⟨rfl, hlt⟩

theorem number?_of_isDigit (h : ∀ c ∈ cs, c.isDigit = true) :
    number? bound cs = digits? bound cs := by
  unfold number?
  split
  case h_1 => exact absurd (h '+' List.mem_cons_self) (by decide)
  case h_2 => rfl

theorem isDigit_or_eq_of_number? (h : number? bound cs = some n) :
    ∀ c ∈ cs, c.isDigit = true ∨ c = '+' := by
  unfold number? at h
  split at h
  case h_1 cs =>
      intro c hc
      rw [List.mem_cons] at hc
      exact hc.symm.imp_left ((digits?_eq_some_iff.mp h).2.1 c)
  case h_2 => exact fun c hc => .inl ((digits?_eq_some_iff.mp h).2.1 c hc)

theorem lt_of_number? (h : number? bound cs = some n) : n < bound := by
  unfold number? at h
  split at h <;> exact (digits?_eq_some_iff.mp h).2.2.2

/-! ### Leading zeros -/

theorem isDigit_of_mem_padded {c : Char} (h : c ∈ padded width n) :
    c.isDigit = true := by
  rw [padded, List.mem_append] at h
  obtain hzero | hdigit := h
  · rw [List.eq_of_mem_replicate hzero]
    decide
  · exact Nat.isDigit_of_mem_toDigits (by decide) (by decide) hdigit

theorem padded_ne_nil (width n : Nat) : padded width n ≠ [] :=
  List.append_ne_nil_of_right_ne_nil _ Nat.toDigits_ne_nil

theorem ofDigitChars_padded (width n : Nat) :
    Nat.ofDigitChars 10 (padded width n) 0 = n := by
  rw [padded, Nat.ofDigitChars_append, Nat.ofDigitChars_replicate_zero,
    Nat.mul_zero, Nat.ofDigitChars_ten_toDigits]

theorem length_padded (hwidth : 0 < width) (h : n < 10 ^ width) :
    (padded width n).length = width := by
  have hle := (Nat.length_toDigits_le_iff (by decide) hwidth).mpr h
  rw [padded, List.length_append, List.length_replicate]
  omega

theorem number?_padded (width : Nat) (h : n < bound) :
    number? bound (padded width n) = some n := by
  rw [number?_of_isDigit fun _ => isDigit_of_mem_padded, digits?_eq_some_iff]
  exact ⟨padded_ne_nil width n, fun _ => isDigit_of_mem_padded,
    ofDigitChars_padded width n, h⟩

/-! ## Dates -/

def checkedDate? (year month day : Nat) : Option CivilDate :=
  if 1 ≤ month ∧ month ≤ 12 ∧ 1 ≤ day ∧ day ≤ 31 then some ⟨year, month, day⟩
  else none

theorem date?_append {year month day : List Char} (hyear : '-' ∉ year)
    (hmonth : '-' ∉ month) :
    date? (year ++ '-' :: (month ++ '-' :: day)) =
      (number? (Word.size64 / 2) year).bind fun y =>
        (number? Word.size32 month).bind fun m =>
          (number? Word.size32 day).bind fun d => checkedDate? y m d := by
  rw [date?, splitOnce?_mark hyear]
  simp only [Option.bind_eq_bind, Option.bind_some, splitOnce?_mark hmonth]
  rfl

theorem not_mem_padded {mark : Char} (hmark : mark.isDigit = false) :
    mark ∉ padded width n :=
  fun hmem => absurd (isDigit_of_mem_padded hmem) (by simp [hmark])

theorem date?_dateChars (h : d.Readable) : date? (dateChars d) = some d := by
  obtain ⟨year, month, day⟩ := d
  obtain ⟨hnonneg, hlt, hmonth, hday⟩ := h
  dsimp only at hnonneg hlt hmonth hday
  obtain ⟨year, rfl⟩ := Int.eq_ofNat_of_zero_le hnonneg
  have hyear : yearChars year = padded 4 year := if_neg (Int.not_lt.mpr hnonneg)
  have hsize : Word.size32 = 4294967296 := rfl
  rw [dateChars, hyear, List.append_assoc, List.cons_append,
    date?_append (not_mem_padded rfl) (not_mem_padded rfl),
    number?_padded 4 (by exact_mod_cast hlt),
    number?_padded 2 (n := month) (by omega),
    number?_padded 2 (n := day) (by omega)]
  exact if_pos ⟨hmonth.1, hmonth.2, hday.1, hday.2⟩

theorem exists_of_date? (hdate : date? cs = some d) :
    ∃ year month day y m k, cs = year ++ '-' :: (month ++ '-' :: day) ∧
      number? (Word.size64 / 2) year = some y ∧
      number? Word.size32 month = some m ∧ number? Word.size32 day = some k ∧
      checkedDate? y m k = some d := by
  obtain ⟨⟨year, rest⟩, hyear, hrest⟩ := Option.bind_eq_some_iff.mp hdate
  obtain ⟨⟨month, day⟩, hmonth, hpieces⟩ := Option.bind_eq_some_iff.mp hrest
  obtain ⟨y, hy, hpieces⟩ := Option.bind_eq_some_iff.mp hpieces
  obtain ⟨m, hm, hpieces⟩ := Option.bind_eq_some_iff.mp hpieces
  obtain ⟨k, hk, hchecked⟩ := Option.bind_eq_some_iff.mp hpieces
  obtain ⟨_, rfl, hdash⟩ := exists_of_splitOnce? hyear
  obtain ⟨_, rfl, hdash'⟩ := exists_of_splitOnce? hmonth
  rw [eq_of_beq hdash, eq_of_beq hdash']
  exact ⟨year, month, day, y, m, k, rfl, hy, hm, hk, hchecked⟩

theorem readable_of_date? (h : date? cs = some d) : d.Readable := by
  obtain ⟨year, month, day, y, m, k, -, hy, hm, hk, hd⟩ := exists_of_date? h
  unfold checkedDate? at hd
  split at hd
  case isTrue hbounds =>
      cases hd
      obtain ⟨hm₁, hm₂, hk₁, hk₂⟩ := hbounds
      exact ⟨Int.natCast_nonneg y, Int.ofNat_lt.mpr (lt_of_number? hy),
        ⟨hm₁, hm₂⟩, ⟨hk₁, hk₂⟩⟩
  case isFalse => cases hd

/-- A date is written with digits, dashes and plus signs. -/
theorem mem_of_date? (h : date? cs = some d) :
    ∀ c ∈ cs, c.isDigit = true ∨ c = '+' ∨ c = '-' := by
  obtain ⟨year, month, day, y, m, k, rfl, hy, hm, hk, -⟩ := exists_of_date? h
  intro c hc
  simp only [List.mem_append, List.mem_cons] at hc
  obtain hc | hc | hc | hc | hc := hc
  · exact (isDigit_or_eq_of_number? hy c hc).imp_right .inl
  · exact .inr (.inr hc)
  · exact (isDigit_or_eq_of_number? hm c hc).imp_right .inl
  · exact .inr (.inr hc)
  · exact (isDigit_or_eq_of_number? hk c hc).imp_right .inl

/-! ## Times -/

def checkedTime? (hour minute second : Nat) : Option ClockTime :=
  if hour < 24 ∧ minute < 60 ∧ second < 61 then some ⟨hour, minute, second⟩
  else none

theorem withoutOffset_append (has : ∀ a ∈ as, a.isDigit = true) :
    withoutOffset (as ++ bs) = as ++ withoutOffset bs := by
  apply List.takeWhile_append_of_pos
  intro a ha
  rw [Bool.and_eq_true, bne_iff_ne, bne_iff_ne]
  constructor <;> rintro rfl <;> exact absurd (has _ ha) (by decide)

theorem withoutOffset_colon (cs : List Char) :
    withoutOffset (':' :: cs) = ':' :: withoutOffset cs := rfl

theorem time?_append {hour minute rest : List Char}
    (hhour : ∀ c ∈ hour, c.isDigit = true)
    (hminute : ∀ c ∈ minute, c.isDigit = true) :
    time? (hour ++ ':' :: (minute ++ ':' :: rest)) =
      (number? Word.size32 hour).bind fun h =>
        (number? Word.size32 minute).bind fun m =>
          (number? Word.size32 ((withoutOffset rest).takeWhile (· != '.'))).bind
            fun s =>
            checkedTime? h m s := by
  have hhour' : ':' ∉ hour := fun h => absurd (hhour _ h) (by decide)
  have hminute' : ':' ∉ minute := fun h => absurd (hminute _ h) (by decide)
  rw [time?, withoutOffset_append hhour, withoutOffset_colon,
    withoutOffset_append hminute, withoutOffset_colon, splitOnce?_mark hhour']
  simp only [Option.bind_eq_bind, Option.bind_some, splitOnce?_mark hminute']
  rfl

theorem time?_timeChars (h : c.Readable) : time? (timeChars c) = some c := by
  have hsize : Word.size32 = 4294967296 := rfl
  obtain ⟨hhour, hminute, hsecond⟩ := h
  have hlast : (withoutOffset (padded 2 c.second)).takeWhile (· != '.') =
      padded 2 c.second := by
    have hall : withoutOffset (padded 2 c.second) = padded 2 c.second := by
      have happend : withoutOffset (padded 2 c.second ++ []) =
          padded 2 c.second ++ [] :=
        withoutOffset_append fun _ => isDigit_of_mem_padded
      rwa [List.append_nil] at happend
    rw [hall, List.takeWhile_eq_self_iff]
    intro c hc
    rw [bne_iff_ne]
    rintro rfl
    exact absurd hc (not_mem_padded rfl)
  rw [timeChars, List.append_assoc, List.cons_append,
    time?_append (fun _ => isDigit_of_mem_padded)
      (fun _ => isDigit_of_mem_padded), hlast,
    number?_padded 2 (by omega), number?_padded 2 (by omega),
    number?_padded 2 (by omega)]
  exact if_pos ⟨hhour, hminute, hsecond⟩

theorem ClockTime.readable_of_checkedTime? {hour minute second : Nat}
    (h : checkedTime? hour minute second = some c) : c.Readable := by
  unfold checkedTime? at h
  split at h
  case isTrue hbounds =>
      cases h
      exact ⟨hbounds.1, hbounds.2.1, hbounds.2.2⟩
  case isFalse => cases h

theorem readable_of_time? (htime : time? cs = some c) : c.Readable := by
  obtain ⟨⟨hour, rest⟩, -, hrest⟩ := Option.bind_eq_some_iff.mp htime
  obtain ⟨h, -, hrest⟩ := Option.bind_eq_some_iff.mp hrest
  obtain ⟨m, -, hrest⟩ := Option.bind_eq_some_iff.mp hrest
  -- Seconds that are not given count as 0.
  dsimp only at hrest
  split at hrest
  case h_1 =>
      obtain ⟨s, -, hchecked⟩ := Option.bind_eq_some_iff.mp hrest
      exact ClockTime.readable_of_checkedTime? hchecked
  case h_2 =>
      have hchecked : checkedTime? h m 0 = some c := hrest
      exact ClockTime.readable_of_checkedTime? hchecked

/-! ## Timestamps -/

def isTimeMark (c : Char) : Bool := c == 'T' || c == ' '

theorem isTimeMark_of_mem_date (h : date? cs = some d) :
    ∀ c ∈ cs, isTimeMark c = false := by
  intro c hc
  obtain hdigit | rfl | rfl := mem_of_date? h c hc
  · rw [isTimeMark, Bool.or_eq_false_iff, beq_eq_false_iff_ne,
      beq_eq_false_iff_ne]
    constructor <;> rintro rfl <;> exact absurd hdigit (by decide)
  · rfl
  · rfl

theorem isWhiteSpace_of_mem_date (h : date? cs = some d) :
    ∀ c ∈ cs, Unicode.isWhiteSpace c = false := by
  intro c hc
  obtain hdigit | rfl | rfl := mem_of_date? h c hc
  · exact isWhiteSpace_of_isDigit hdigit
  · rfl
  · rfl

theorem ne_nil_of_date? (h : date? cs = some d) : cs ≠ [] := by
  rintro rfl
  cases h

theorem ofChars?_append {mark : Char} {date time : List Char}
    (hdate : date? date = some d) (hmark : isTimeMark mark = true)
    (htime : time ≠ [])
    (hlast : ∀ c ∈ time.getLast?, Unicode.isWhiteSpace c = false) :
    ofChars? (date ++ mark :: time) = (time? time).map fun c =>
      ⟨some d, some c⟩ := by
  have htrim : Text.trim (date ++ mark :: time) = date ++ mark :: time := by
    apply Text.Trimmed.trim_eq
    constructor
    · rw [List.head?_append_of_ne_nil _ (ne_nil_of_date? hdate)]
      exact fun c hc =>
        isWhiteSpace_of_mem_date hdate c (List.mem_of_mem_head? hc)
    · rwa [List.getLast?_append_of_ne_nil _ (List.cons_ne_nil _ _),
        List.getLast?_cons_of_ne_nil htime]
  have hsplit : splitOnce? (fun c => c == 'T' || c == ' ')
      (date ++ mark :: time) =
        some (date, time) :=
      splitOnce?_append (isTimeMark_of_mem_date hdate) hmark
  rw [ofChars?]
  simp only [htrim, hsplit, hdate, Option.bind_eq_bind, Option.bind_some]
  cases time? time <;> rfl

theorem ofChars?_of_date? (hdate : date? cs = some d) :
    ofChars? cs = some ⟨some d, none⟩ := by
  have htrim : Text.trim cs = cs := Text.Trimmed.trim_eq
    ⟨fun c hc => isWhiteSpace_of_mem_date hdate c (List.mem_of_mem_head? hc),
      fun c hc =>
      isWhiteSpace_of_mem_date hdate c (List.mem_of_mem_getLast? hc)⟩
  have hsplit : splitOnce? (fun c => c == 'T' || c == ' ') cs = none :=
    splitOnce?_eq_none (isTimeMark_of_mem_date hdate)
  have hcolon : cs.contains ':' = false := by
    rw [List.contains_eq_mem, decide_eq_false_iff_not]
    intro hmem
    obtain hdigit | heq | heq := mem_of_date? hdate _ hmem <;> contradiction
  rw [ofChars?]
  simp only [htrim, hsplit, hcolon, hdate]
  rfl

theorem isDigit_or_eq_of_mem_timeChars {a : Char} (h : a ∈ timeChars c) :
    a.isDigit = true ∨ a = ':' := by
  simp only [timeChars, List.mem_append, List.mem_cons] at h
  obtain (h | h | h) | h | h := h
  · exact .inl (isDigit_of_mem_padded h)
  · exact .inr h
  · exact .inl (isDigit_of_mem_padded h)
  · exact .inr h
  · exact .inl (isDigit_of_mem_padded h)

theorem isWhiteSpace_of_mem_timeChars {a : Char} (h : a ∈ timeChars c) :
    Unicode.isWhiteSpace a = false := by
  obtain hdigit | rfl := isDigit_or_eq_of_mem_timeChars h
  · exact isWhiteSpace_of_isDigit hdigit
  · rfl

theorem timeChars_ne_nil (c : ClockTime) : timeChars c ≠ [] :=
  List.append_ne_nil_of_right_ne_nil _ (List.cons_ne_nil _ _)

theorem ofChars?_timeChars (h : c.Readable) :
    ofChars? (timeChars c) = some ⟨none, some c⟩ := by
  have htrim : Text.trim (timeChars c) = timeChars c := Text.Trimmed.trim_eq
    ⟨fun _ ha => isWhiteSpace_of_mem_timeChars (List.mem_of_mem_head? ha),
      fun _ ha => isWhiteSpace_of_mem_timeChars (List.mem_of_mem_getLast? ha)⟩
  have hsplit : splitOnce? (fun c => c == 'T' || c == ' ') (timeChars c) =
      none := by
    apply splitOnce?_eq_none
    intro a ha
    obtain hdigit | rfl := isDigit_or_eq_of_mem_timeChars ha
    · rw [Bool.or_eq_false_iff, beq_eq_false_iff_ne, beq_eq_false_iff_ne]
      constructor <;> rintro rfl <;> exact absurd hdigit (by decide)
    · rfl
  have hcolon : (timeChars c).contains ':' = true := by simp [timeChars]
  rw [ofChars?]
  simp only [htrim, hsplit, hcolon, time?_timeChars h]
  rfl

theorem ofChars?_toChars (h : t.Readable) : ofChars? t.toChars = some t := by
  obtain ⟨date, time⟩ := t
  obtain ⟨hdate, htime, hpresent⟩ := h
  cases date with
  | none =>
      cases time with
      | none => simp at hpresent
      | some c => exact ofChars?_timeChars (htime c rfl)
  | some d =>
      have hread := date?_dateChars (hdate d rfl)
      cases time with
      | none => exact ofChars?_of_date? hread
      | some c =>
          rw [toChars,
            ofChars?_append hread rfl (timeChars_ne_nil c) fun _ ha =>
            isWhiteSpace_of_mem_timeChars (List.mem_of_mem_getLast? ha),
            time?_timeChars (htime c rfl)]
          rfl

theorem parse?_render (h : t.Readable) : parse? t.render = some t := by
  rw [parse?, render, String.toList_ofList, ofChars?_toChars h]

theorem readable_of_ofChars? (hread : ofChars? cs = some t) : t.Readable := by
  unfold ofChars? at hread
  dsimp only at hread
  split at hread
  case h_1 =>
      obtain ⟨d, hdate, hread⟩ := Option.bind_eq_some_iff.mp hread
      obtain ⟨c, htime, hread⟩ := Option.bind_eq_some_iff.mp hread
      cases hread
      exact ⟨by simpa using readable_of_date? hdate,
        by simpa using readable_of_time? htime, .inl rfl⟩
  case h_2 =>
      split at hread
      case isTrue =>
          obtain ⟨c, htime, hread⟩ := Option.bind_eq_some_iff.mp hread
          cases hread
          exact ⟨by simp, by simpa using readable_of_time? htime, .inr rfl⟩
      case isFalse =>
          obtain ⟨d, hdate, hread⟩ := Option.bind_eq_some_iff.mp hread
          cases hread
          exact ⟨by simpa using readable_of_date? hdate, by simp, .inl rfl⟩

end Timestamp

end TableQuery
