import TableQuery.Evaluation.Bucket
import TableQuery.Proofs.Calendar.Counting

/-!
# Cutting timestamps off

A truncating unit takes a timestamp to the start of the minute, week or year
that it falls in, which is a timestamp itself.  So its cell is read back, and
cutting it off again, by the same unit or by a coarser one, is the same as
cutting off the first timestamp.
-/

namespace TableQuery

/-! ## Days within 64 bits -/

namespace CivilDate

variable {d : CivilDate}

structure InRange (d : CivilDate) : Prop where
  year_bounds : 0 ≤ d.year ∧ d.year ≤ 10000
  month_bounds : 1 ≤ d.month ∧ d.month ≤ 12
  day_bounds : 1 ≤ d.day ∧ d.day ≤ 31

theorem Readable.inRange (hd : d.Readable) (hyear : d.year ≤ 10000) :
    d.InRange :=
  ⟨⟨hd.year_nonneg, hyear⟩, hd.month_bounds, hd.day_bounds⟩

theorem InRange.readable (hd : d.InRange) : d.Readable where
  year_nonneg := hd.year_bounds.1
  year_lt := hd.year_bounds.2.trans_lt (by decide)
  month_bounds := hd.month_bounds
  day_bounds := hd.day_bounds

theorem IsReal.inRange (hd : d.IsReal) (hyear : 0 ≤ d.year ∧ d.year ≤ 10000) :
    d.InRange :=
  ⟨hyear, ⟨hd.one_le_month, hd.month_le⟩,
    ⟨hd.one_le_day, hd.day_le.trans (monthLength_le _ _)⟩⟩

theorem InRange.firstOfMonth (hd : d.InRange) {month : Nat}
    (h : 1 ≤ month ∧ month ≤ 12) : InRange ⟨d.year, month, 1⟩ :=
  ⟨hd.year_bounds, h, ⟨Nat.le_refl 1, Nat.le_add_left 1 30⟩⟩

theorem InRange.firstOfYear (hd : d.InRange) : InRange ⟨d.year, 1, 1⟩ :=
  hd.firstOfMonth (by decide)

theorem InRange.le_lastCounted (hd : d.InRange) : d ≤ lastCounted := by
  have hyear : lastCounted.year = 25252734927766554 := rfl
  have hbound := hd.year_bounds.2
  exact le_of_lt (lt_def.mpr (.inl (by omega)))

theorem dayNumber_weekStart (d : CivilDate) :
    d.weekStart.dayNumber = d.dayNumber - weekday d.dayNumber :=
  dayNumber_ofDayNumber _

theorem isReal_weekStart (d : CivilDate) : d.weekStart.IsReal :=
  isReal_ofDayNumber _

theorem weekStart_weekStart (d : CivilDate) :
    d.weekStart.weekStart = d.weekStart := by
  have hsunday : weekday d.weekStart.dayNumber = 0 := by
    rw [dayNumber_weekStart]
    unfold weekday
    omega
  rw [weekStart, hsunday, Int.sub_zero,
    (isReal_weekStart d).ofDayNumber_dayNumber]

/-- A week may start in the year before. -/
theorem InRange.year_weekStart (hd : d.InRange) :
    d.year - 1 ≤ d.weekStart.year ∧ d.weekStart.year ≤ d.year := by
  have hbounds := hd.readable.dayNumber_bounds
  have hweekday := weekday_bounds d.dayNumber
  have hreal := isReal_weekStart d
  constructor
  · have hlast := newYear_add_one (d.year - 1)
    have hlength : 365 ≤ yearLength (d.year - 1) := by
      unfold yearLength
      split <;> decide
    rw [hreal.le_year_iff, dayNumber_weekStart]
    rw [Int.sub_add_cancel] at hlast
    omega
  · have hnext : ¬d.year + 1 ≤ d.weekStart.year := by
      rw [hreal.le_year_iff, dayNumber_weekStart]
      omega
    omega

theorem InRange.weekStart (hd : d.InRange) (hyear : 1 ≤ d.year) :
    d.weekStart.InRange :=
  have hstart := hd.year_weekStart
  have hle := hd.year_bounds.2
  (isReal_weekStart d).inRange ⟨by omega, by omega⟩

end CivilDate

/-! ## Cells -/

def CalendarUnit.countsDays : CalendarUnit → Bool
  | week | dayOfWeek | dayOfYear | weekOfYear => true
  | _ => false

namespace Cell

theorem ofInt_natCast (n : Nat) : ofInt n = ofCount n := by
  have hsign : decide ((n : Int) < 0) = false :=
    decide_eq_false (Int.not_lt.mpr (Int.natCast_nonneg n))
  rw [ofInt, hsign]
  rfl

theorem countedNumber_eq {w : Word64} {n : Nat} (hw : w.Computes n) :
    countedNumber w = .ok (ofCount n) := by
  rw [hw.eq_of, countedNumber, ofInt_natCast]

end Cell

/-! ## Starts of units -/

theorem ClockTime.Readable.startOfMinute {c : ClockTime} (hc : c.Readable) :
    ClockTime.Readable ⟨c.hour, c.minute, 0⟩ :=
  ⟨hc.hour_lt, hc.minute_lt, Nat.zero_lt_succ 60⟩

theorem ClockTime.Readable.startOfHour {c : ClockTime} (hc : c.Readable) :
    ClockTime.Readable ⟨c.hour, 0, 0⟩ :=
  ⟨hc.hour_lt, Nat.zero_lt_succ 59, Nat.zero_lt_succ 60⟩

namespace Timestamp

variable {t s : Timestamp} {u u₁ u₂ : CalendarUnit}

/-- The start of the minute, hour, day, week, month, quarter or year of a
timestamp.  A time alone has no date to cut off, and a date alone no time. -/
def start? (t : Timestamp) : CalendarUnit → Option Timestamp
  | .minute => t.time.map fun c => ⟨t.date, some ⟨c.hour, c.minute, 0⟩⟩
  | .hour => t.time.map fun c => ⟨t.date, some ⟨c.hour, 0, 0⟩⟩
  | .day => t.date.map fun d => ⟨some d, none⟩
  | .week => t.date.map fun d => ⟨some d.weekStart, none⟩
  | .month => t.date.map fun d => ⟨some ⟨d.year, d.month, 1⟩, none⟩
  | .quarter => t.date.map fun d =>
    ⟨some ⟨d.year, (d.month - 1) / 3 * 3 + 1, 1⟩, none⟩
  | .year => t.date.map fun d => ⟨some ⟨d.year, 1, 1⟩, none⟩
  | _ => none

def calendarCell? (t : Timestamp) : CalendarUnit → Option Cell
  | .minuteOfHour => t.time.map fun c => .ofCount c.minute
  | .hourOfDay => t.time.map fun c => .ofCount c.hour
  | .dayOfWeek => t.date.map fun d => .ofCount d.dayOfWeek
  | .dayOfMonth => t.date.map fun d => .ofCount d.day
  | .dayOfYear => t.date.map fun d => .ofCount d.dayOfYear
  | .weekOfYear => t.date.map fun d => .ofCount d.weekOfYear
  | .monthOfYear => t.date.map fun d => .ofCount d.month
  | .quarterOfYear => t.date.map fun d => .ofCount ((d.month - 1) / 3 + 1)
  | u => (t.start? u).map fun s => .temporal s.render

theorem calendarCell?_eq (hu : u.isExtraction = false) :
    t.calendarCell? u = (t.start? u).map fun s => .temporal s.render := by
  cases u with
  | minute | hour | day | week | month | quarter | year => rfl
  | _ => cases hu

/-- The unit counts days, and the date is after the last one that is counted. -/
def Uncounted (t : Timestamp) (u : CalendarUnit) : Prop :=
  u.countsDays = true ∧ ∃ d ∈ t.date, .lastCounted < d

theorem not_uncounted (hrange : ∀ d ∈ t.date, d.InRange) : ¬t.Uncounted u := by
  rintro ⟨-, d, hd, hlater⟩
  exact (hrange d hd).le_lastCounted.not_gt hlater

theorem Readable.truncate?_of_uncounted (ht : t.Readable)
    (h : t.Uncounted u) : Cell.truncate? t u = some (.error .dayCount) := by
  obtain ⟨hu, d, hdate, hlater⟩ := h
  have hnumber := (ht.date d hdate).dayNumber64_eq_overflow hlater
  have hdate : t.date = some d := hdate
  cases u with
  | week | dayOfWeek | dayOfYear | weekOfYear =>
      simp only [Cell.truncate?, hdate, hnumber, Option.map_some]
      rfl
  | _ => cases hu

theorem Readable.truncate?_of_counted (ht : t.Readable)
    (h : ¬t.Uncounted u) :
    Cell.truncate? t u = (t.calendarCell? u).map .ok := by
  obtain ⟨date, time⟩ := t
  cases date with
  | none => cases u <;> cases time <;> rfl
  | some d =>
      have hd := ht.date d rfl
      have hlast : u.countsDays = true → d ≤ .lastCounted :=
        fun hu => not_lt.mp fun hlater => h ⟨hu, d, rfl, hlater⟩
      cases u with
      | week =>
          simp only [Cell.truncate?, Option.map_some,
            hd.weekStart64_eq (hlast rfl)]
          rfl
      | dayOfWeek =>
          simp only [Cell.truncate?, Option.map_some,
            Cell.countedNumber_eq (hd.computes_dayOfWeek (hlast rfl))]
          rfl
      | dayOfYear =>
          simp only [Cell.truncate?, Option.map_some,
            Cell.countedNumber_eq (hd.computes_dayOfYear (hlast rfl))]
          rfl
      | weekOfYear =>
          simp only [Cell.truncate?, Option.map_some,
            Cell.countedNumber_eq (hd.computes_weekOfYear (hlast rfl))]
          rfl
      | minute | hour | minuteOfHour | hourOfDay => cases time <;> rfl
      | _ => rfl

theorem start?_start? (h : t.start? u = some s) : s.start? u = some s := by
  cases u with
  | minute | hour =>
      obtain ⟨c, -, rfl⟩ := Option.map_eq_some_iff.mp h
      rfl
  | week =>
      obtain ⟨d, -, rfl⟩ := Option.map_eq_some_iff.mp h
      rw [start?, Option.map_some, d.weekStart_weekStart]
  | quarter =>
      obtain ⟨d, -, rfl⟩ := Option.map_eq_some_iff.mp h
      simp [start?]
  | day | month | year =>
      obtain ⟨d, -, rfl⟩ := Option.map_eq_some_iff.mp h
      rfl
  | _ => cases h

def FourDigitYear (t : Timestamp) : Prop :=
  ∀ d ∈ t.date, 1 ≤ d.year ∧ d.year ≤ 9999

theorem Readable.inRange (ht : t.Readable) (hyear : t.FourDigitYear) :
    ∀ d ∈ t.date, d.InRange :=
  fun d hd => (ht.date d hd).inRange ((hyear d hd).2.trans (by decide))

/-- What a unit cuts off is replaced by its least value, which can be read. -/
theorem Readable.start? (ht : t.Readable) (hyear : t.FourDigitYear)
    (h : t.start? u = some s) : s.Readable ∧ ∀ d ∈ s.date, d.InRange := by
  have ofTime : ∀ c : ClockTime, c.Readable → s = ⟨t.date, some c⟩ →
      s.Readable ∧ ∀ d ∈ s.date, d.InRange := by
    rintro c hc rfl
    exact ⟨⟨ht.date, by simpa using hc, .inr rfl⟩, ht.inRange hyear⟩
  have ofDate : ∀ d : CivilDate, d.InRange → s = ⟨some d, none⟩ →
      s.Readable ∧ ∀ d ∈ s.date, d.InRange := by
    rintro d hd rfl
    exact ⟨⟨by simpa using hd.readable, by simp, .inl rfl⟩, by simpa using hd⟩
  cases u with
  | minute =>
      obtain ⟨c, hc, rfl⟩ := Option.map_eq_some_iff.mp h
      exact ofTime _ (ht.time c hc).startOfMinute rfl
  | hour =>
      obtain ⟨c, hc, rfl⟩ := Option.map_eq_some_iff.mp h
      exact ofTime _ (ht.time c hc).startOfHour rfl
  | day =>
      obtain ⟨d, hd, rfl⟩ := Option.map_eq_some_iff.mp h
      exact ofDate d (ht.inRange hyear d hd) rfl
  | week =>
      obtain ⟨d, hd, rfl⟩ := Option.map_eq_some_iff.mp h
      exact ofDate _ ((ht.inRange hyear d hd).weekStart (hyear d hd).1) rfl
  | month =>
      obtain ⟨d, hd, rfl⟩ := Option.map_eq_some_iff.mp h
      have hrange := ht.inRange hyear d hd
      exact ofDate _ (hrange.firstOfMonth hrange.month_bounds) rfl
  | quarter =>
      obtain ⟨d, hd, rfl⟩ := Option.map_eq_some_iff.mp h
      have hrange := ht.inRange hyear d hd
      have hmonth := hrange.month_bounds
      exact ofDate _ (hrange.firstOfMonth (by omega)) rfl
  | year =>
      obtain ⟨d, hd, rfl⟩ := Option.map_eq_some_iff.mp h
      exact ofDate _ (ht.inRange hyear d hd).firstOfYear rfl
  | _ => cases h

/-! ## What units are computed from -/

def shape (t : Timestamp) : CalendarShape :=
  match t.date, t.time with
  | some _, none => .date
  | some _, some _ => .dateTime
  | none, _ => .time

/-- The units that fit what a timestamp shows are those that make a cell of
it. -/
theorem Readable.calendarCell?_ne_null_iff (ht : t.Readable) :
    (t.calendarCell? u).getD .null ≠ .null ↔ u.validFor t.shape = true := by
  obtain ⟨date, time⟩ := t
  obtain ⟨-, -, hpresent⟩ := ht
  cases date <;> cases time
  case none.none => simp at hpresent
  all_goals
    cases u <;> first
      | exact iff_of_true Cell.noConfusion rfl
      | exact iff_of_false (fun hne => hne rfl) Bool.false_ne_true

/-- The units that are computed from what a unit keeps. -/
def keptUnits : CalendarUnit → List CalendarUnit
  | .minute => .hour :: .minuteOfHour :: .hourOfDay :: CalendarShape.date.units
  | .hour => .hourOfDay :: CalendarShape.date.units
  | .day => CalendarShape.date.units
  | .month => [.quarter, .year, .monthOfYear, .quarterOfYear]
  | .quarter => [.year, .quarterOfYear]
  | _ => []

theorem isExtraction_of_mem_keptUnits (h : u₂ ∈ keptUnits u₁) :
    u₁.isExtraction = false := by
  cases u₁ with
  | minute | hour | day | month | quarter => rfl
  | _ => exact absurd h List.not_mem_nil

theorem truncate?_congr_date (hdate : s.date = t.date)
    (hu : u ∈ CalendarShape.date.units) :
    Cell.truncate? s u = Cell.truncate? t u := by
  cases u with
  | minute | hour | minuteOfHour | hourOfDay => exact absurd hu (by decide)
  | _ => simp only [Cell.truncate?, hdate]

theorem truncate?_start? (h : t.start? u₁ = some s) (hu : u₂ ∈ keptUnits u₁) :
    Cell.truncate? s u₂ = Cell.truncate? t u₂ := by
  cases u₁ with
  | minute =>
      obtain ⟨c, hc, rfl⟩ := Option.map_eq_some_iff.mp h
      simp only [keptUnits, List.mem_cons] at hu
      obtain rfl | rfl | rfl | hdate := hu
      · simp only [Cell.truncate?, hc, Option.map_some]
      · simp only [Cell.truncate?, hc, Option.map_some]
      · simp only [Cell.truncate?, hc, Option.map_some]
      · exact truncate?_congr_date rfl hdate
  | hour =>
      obtain ⟨c, hc, rfl⟩ := Option.map_eq_some_iff.mp h
      obtain rfl | hdate := List.mem_cons.mp hu
      · simp only [Cell.truncate?, hc, Option.map_some]
      · exact truncate?_congr_date rfl hdate
  | day =>
      obtain ⟨d, hd, rfl⟩ := Option.map_eq_some_iff.mp h
      exact truncate?_congr_date hd.symm hu
  | month =>
      obtain ⟨d, hd, rfl⟩ := Option.map_eq_some_iff.mp h
      simp only [keptUnits, List.mem_cons, List.not_mem_nil, or_false] at hu
      obtain rfl | rfl | rfl | rfl :=
        hu <;> simp only [Cell.truncate?, hd, Option.map_some]
  | quarter =>
      obtain ⟨d, hd, rfl⟩ := Option.map_eq_some_iff.mp h
      simp only [keptUnits, List.mem_cons, List.not_mem_nil, or_false] at hu
      obtain rfl | rfl := hu
      · simp only [Cell.truncate?, hd, Option.map_some]
      · simp [Cell.truncate?, hd]
  | _ => exact absurd hu List.not_mem_nil

end Timestamp

/-! ## Cells -/

namespace Cell

variable {v : Cell} {t s : Timestamp} {u u₁ u₂ : CalendarUnit}

def timestamp? : Cell → Option Timestamp
  | string s | temporal s => Timestamp.parse? s
  | _ => none

theorem bucket_eq (u : CalendarUnit) (v : Cell) :
    v.bucket u = (v.timestamp?.bind (truncate? · u)).getD (.ok null) := by
  cases v <;> rfl

theorem readable_of_timestamp? (hread : v.timestamp? = some t) :
    t.Readable := by
  cases v with
  | string | temporal => exact Timestamp.readable_of_ofChars? hread
  | _ => cases hread

theorem bucket_of_uncounted (hread : v.timestamp? = some t)
    (h : t.Uncounted u) : v.bucket u = .error .dayCount := by
  rw [bucket_eq, hread, Option.bind_some,
    (readable_of_timestamp? hread).truncate?_of_uncounted h]
  rfl

theorem bucket_of_counted (hread : v.timestamp? = some t)
    (h : ¬t.Uncounted u) :
    v.bucket u = .ok ((t.calendarCell? u).getD null) := by
  rw [bucket_eq, hread, Option.bind_some,
    (readable_of_timestamp? hread).truncate?_of_counted h]
  cases t.calendarCell? u <;> rfl

theorem bucket_ne_null (hread : v.timestamp? = some t)
    (hfits : u.validFor t.shape = true) : v.bucket u ≠ .ok null := by
  intro hnull
  by_cases hcounted : t.Uncounted u
  · cases (bucket_of_uncounted hread hcounted).symm.trans hnull
  · have hcell := (bucket_of_counted hread hcounted).symm.trans hnull
    exact (readable_of_timestamp? hread).calendarCell?_ne_null_iff.mpr hfits
      (Except.ok.inj hcell)

theorem timestamp?_render (ht : t.Readable) :
    (temporal t.render).timestamp? = some t :=
  Timestamp.parse?_render ht

theorem bucket_start (ht : t.Readable) (hyear : t.FourDigitYear)
    (hstart : t.start? u₁ = some s) (u₂ : CalendarUnit) :
    (temporal s.render).bucket u₂ = .ok ((s.calendarCell? u₂).getD null) := by
  obtain ⟨hs, hrange⟩ := ht.start? hyear hstart
  exact bucket_of_counted (timestamp?_render hs)
    (Timestamp.not_uncounted hrange)

/-- Truncating twice by one unit is truncating once, and by a unit after another
that keeps enough of the value for it, is truncating by it alone.  The units
that fit the value leave something. -/
theorem bucket_bucket (hread : v.timestamp? = some t) (hyear : t.FourDigitYear)
    (u₁ : CalendarUnit) :
    ∃ c, v.bucket u₁ = .ok c ∧ (c ≠ null ↔ u₁.validFor t.shape = true) ∧
      (u₁.isExtraction = false → c.bucket u₁ = .ok c) ∧
      ∀ u₂ ∈ Timestamp.keptUnits u₁, c ≠ null → c.bucket u₂ = v.bucket u₂ := by
  have ht := readable_of_timestamp? hread
  have hcounted : ¬t.Uncounted u₁ := Timestamp.not_uncounted (ht.inRange hyear)
  refine ⟨_, bucket_of_counted hread hcounted, ht.calendarCell?_ne_null_iff,
    ?same, ?kept⟩
  case same =>
    intro hu
    rw [Timestamp.calendarCell?_eq hu]
    cases hstart : t.start? u₁ with
    | none => rfl
    | some s =>
        rw [Option.map_some, Option.getD_some, bucket_start ht hyear hstart,
          Timestamp.calendarCell?_eq hu, Timestamp.start?_start? hstart]
        rfl
  case kept =>
    intro u₂ hkept hnull
    have hu := Timestamp.isExtraction_of_mem_keptUnits hkept
    rw [Timestamp.calendarCell?_eq hu] at hnull ⊢
    cases hstart : t.start? u₁ with
    | none =>
        rw [hstart] at hnull
        exact absurd rfl hnull
    | some s =>
        have hs := (ht.start? hyear hstart).1
        rw [Option.map_some, Option.getD_some, bucket_eq, bucket_eq,
          timestamp?_render hs, hread, Option.bind_some, Option.bind_some,
          Timestamp.truncate?_start? hstart hkept]

/-- A first of January with a plus sign, a blank for the mark, a leap second and
a fraction. -/
def leapSecond : Cell := .string " +1-1-01 23:59:60.5Z\n"

theorem bucket_bucket_leapSecond :
    leapSecond.timestamp? = some ⟨some ⟨1, 1, 1⟩, some ⟨23, 59, 60⟩⟩ ∧
      leapSecond.bucket .week = .ok (temporal "0000-12-31") ∧
      (temporal "0000-12-31").bucket .week = .ok (temporal "0000-12-31") ∧
      ∃ minute, leapSecond.bucket .minute = .ok minute ∧ minute ≠ null ∧
        minute.bucket .weekOfYear = leapSecond.bucket .weekOfYear := by
  have hread : leapSecond.timestamp? =
      some ⟨some ⟨1, 1, 1⟩, some ⟨23, 59, 60⟩⟩ := rfl
  have hyear : Timestamp.FourDigitYear ⟨some ⟨1, 1, 1⟩, some ⟨23, 59, 60⟩⟩ := by
    rintro d ⟨⟩
    decide
  obtain ⟨week, hweek, -, hsame, -⟩ := bucket_bucket hread hyear .week
  obtain ⟨minute, hminute, hfits, -, hkept⟩ := bucket_bucket hread hyear .minute
  obtain rfl : week = temporal "0000-12-31" := (Except.ok.inj hweek).symm
  have hnull : minute ≠ null := hfits.mpr rfl
  exact ⟨hread, hweek, hsame rfl, minute, hminute, hnull,
    hkept .weekOfYear (by decide) hnull⟩

end Cell

end TableQuery
