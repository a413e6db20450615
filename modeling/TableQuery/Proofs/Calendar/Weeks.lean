import Mathlib.Logic.Function.Iterate
import Mathlib.Order.Bounds.Basic
import TableQuery.Proofs.Calendar.Truncation

/-!
# Weeks and the positions of dates

Weeks are counted from a known Sunday, date by date.  The week of a date starts
with the latest Sunday up to it, the days of the week, of the year and the weeks
of the year go up from each date to the next, and start again with a Sunday or
with a year.
-/

namespace TableQuery

namespace CivilDate

variable {d e : CivilDate} {n : Nat}

/-! ## Sundays -/

def firstSunday : CivilDate := ⟨1970, 1, 4⟩

/-- A date a whole number of weeks before or after the known Sunday. -/
def IsSunday (d : CivilDate) : Prop :=
  ∃ weeks : Nat, next^[7 * weeks] d = firstSunday ∨
  next^[7 * weeks] firstSunday = d

theorem IsReal.iterate_next (hd : d.IsReal) (n : Nat) :
    (CivilDate.next^[n] d).IsReal := by
  induction n with
  | zero => exact hd
  | succ n ih =>
      rw [Function.iterate_succ_apply']
      exact ih.next

theorem IsReal.dayNumber_iterate_next (hd : d.IsReal) (n : Nat) :
    (CivilDate.next^[n] d).dayNumber = d.dayNumber + n := by
  induction n with
  | zero => exact (Int.add_zero _).symm
  | succ n ih =>
      rw [Function.iterate_succ_apply', (hd.iterate_next n).dayNumber_next, ih]
      omega

theorem IsReal.iterate_next_eq_iff (hd : d.IsReal) (he : e.IsReal) :
    CivilDate.next^[n] d = e ↔ d.dayNumber + n = e.dayNumber := by
  rw [← (hd.iterate_next n).dayNumber_inj he, hd.dayNumber_iterate_next]

theorem isReal_firstSunday : firstSunday.IsReal := by decide

theorem IsReal.isSunday_iff (hd : d.IsReal) :
    d.IsSunday ↔ weekday d.dayNumber = 0 := by
  have hfirst : firstSunday.dayNumber = 3 := rfl
  simp only [IsSunday, hd.iterate_next_eq_iff isReal_firstSunday,
    isReal_firstSunday.iterate_next_eq_iff hd, hfirst, weekday]
  constructor
  · rintro ⟨weeks, h | h⟩ <;> omega
  · intro h
    exact ⟨((d.dayNumber - 3) / 7).natAbs, by omega⟩

theorem IsReal.isGreatest_weekStart (hd : d.IsReal) :
    IsGreatest {s | s.IsReal ∧ s.IsSunday ∧ s ≤ d} d.weekStart := by
  have hreal := isReal_weekStart d
  have hnumber := dayNumber_weekStart d
  constructor
  · refine ⟨hreal, ?_, ?_⟩
    · rw [hreal.isSunday_iff, hnumber]
      unfold weekday
      omega
    · rw [← hreal.dayNumber_le_iff hd, hnumber]
      have hweekday := weekday_bounds d.dayNumber
      omega
  · rintro s ⟨hs, hsunday, hle⟩
    rw [hs.isSunday_iff] at hsunday
    rw [← hs.dayNumber_le_iff hd] at hle
    rw [← hs.dayNumber_le_iff hreal, hnumber]
    unfold weekday at *
    omega

theorem IsReal.weekStart_eq_next_iff (hd : d.IsReal) :
    d.weekStart = d.next.weekStart ↔ ¬d.next.IsSunday := by
  rw [← (isReal_weekStart d).dayNumber_inj (isReal_weekStart _),
    dayNumber_weekStart, dayNumber_weekStart, hd.next.isSunday_iff,
    hd.dayNumber_next]
  unfold weekday
  omega

/-! ## Positions -/

theorem dayOfWeek_le (d : CivilDate) : d.dayOfWeek ≤ 7 := by
  have hweekday := weekday_bounds d.dayNumber
  unfold dayOfWeek
  omega

theorem IsReal.dayOfWeek_eq_one_iff (hd : d.IsReal) :
    d.dayOfWeek = 1 ↔ d.IsSunday := by
  have hweekday := weekday_bounds d.dayNumber
  rw [hd.isSunday_iff, dayOfWeek]
  omega

theorem IsReal.dayOfWeek_next (hd : d.IsReal) :
    d.next.dayOfWeek = d.dayOfWeek % 7 + 1 := by
  rw [dayOfWeek, dayOfWeek, hd.dayNumber_next]
  unfold weekday
  omega

theorem IsReal.dayOfYear_next (hd : d.IsReal) (hyear : d.next.year = d.year) :
    d.next.dayOfYear = d.dayOfYear + 1 := by
  have hnumber := hd.dayNumber_next
  rw [hd.next.dayNumber_eq, hd.dayNumber_eq, hyear] at hnumber
  omega

theorem IsReal.dayOfYear_inj (hd : d.IsReal) (he : e.IsReal)
    (hyear : d.year = e.year) : d.dayOfYear = e.dayOfYear ↔ d = e := by
  rw [← hd.dayNumber_inj he, hd.dayNumber_eq, he.dayNumber_eq, hyear]
  omega

theorem IsReal.dayOfYear_eq_one_iff (hd : d.IsReal) :
    d.dayOfYear = 1 ↔ d = ⟨d.year, 1, 1⟩ :=
  hd.dayOfYear_inj (isReal_newYear d.year) rfl

theorem IsReal.dayOfYear_eq_yearLength_iff (hd : d.IsReal) :
    d.dayOfYear = yearLength d.year ↔ d = ⟨d.year, 12, 31⟩ := by
  have hreal : IsReal ⟨d.year, 12, 31⟩ :=
    ⟨Nat.le_add_left 1 11, Nat.le_refl 12, Nat.le_add_left 1 30, Nat.le_refl 31⟩
  have hlast : dayOfYear ⟨d.year, 12, 31⟩ = yearLength d.year :=
    daysThrough_twelve d.year
  rw [← hd.dayOfYear_inj hreal rfl, hlast]

theorem IsReal.weekOfYear_le (hd : d.IsReal) : d.weekOfYear ≤ 54 := by
  have hweekday := weekday_bounds (newYear d.year)
  have hlast := hd.dayOfYear_le
  have hlength := yearLength_le d.year
  unfold weekOfYear
  omega

theorem weekOfYear_newYear (year : Int) : weekOfYear ⟨year, 1, 1⟩ = 1 := by
  have hweekday := weekday_bounds (newYear year)
  have hday : dayOfYear ⟨year, 1, 1⟩ = 1 := rfl
  simp only [weekOfYear, hday]
  omega

theorem IsReal.weekOfYear_next (hd : d.IsReal) (hyear : d.next.year = d.year) :
    (d.next.IsSunday → d.next.weekOfYear = d.weekOfYear + 1) ∧
      (¬d.next.IsSunday → d.next.weekOfYear = d.weekOfYear) := by
  have hone := hd.one_le_dayOfYear
  rw [hd.next.isSunday_iff, weekOfYear, weekOfYear, hd.dayOfYear_next hyear,
    hd.dayNumber_next, hd.dayNumber_eq, hyear]
  unfold weekday
  omega

end CivilDate

/-! ## Cells -/

namespace Cell

variable {v v' : Cell} {d e : CivilDate} {u : CalendarUnit}

def date? (v : Cell) : Option CivilDate := v.timestamp?.bind Timestamp.date

theorem date?_ofDate (hd : d.Readable) : (ofDate d).date? = some d := by
  have ht : Timestamp.Readable ⟨some d, none⟩ :=
    ⟨by simpa using hd, by simp, .inl rfl⟩
  rw [date?, ofDate, timestamp?_render ht, Option.bind_some]

theorem ofDate_inj (hd : d.Readable) (he : e.Readable) :
    ofDate d = ofDate e ↔ d = e := by
  constructor
  · intro h
    have hread := congrArg date? h
    rw [date?_ofDate hd, date?_ofDate he] at hread
    exact Option.some.inj hread
  · exact congrArg ofDate

theorem bucket_of_date? (hdate : v.date? = some d) (hd : d.InRange)
    (hu : u ∈ CalendarShape.date.units) :
    v.bucket u =
      .ok ((Timestamp.calendarCell? ⟨some d, none⟩ u).getD null) := by
  obtain ⟨t, hread, ht⟩ := Option.bind_eq_some_iff.mp hdate
  have ht' : Timestamp.Readable ⟨some d, none⟩ :=
    ⟨by simpa using hd.readable, by simp, .inl rfl⟩
  have hcounted : ¬Timestamp.Uncounted ⟨some d, none⟩ u :=
    Timestamp.not_uncounted (by simpa using hd)
  rw [bucket_eq, hread, Option.bind_some,
    Timestamp.truncate?_congr_date (t := ⟨some d, none⟩) ht hu,
    ht'.truncate?_of_counted hcounted]
  cases Timestamp.calendarCell? ⟨some d, none⟩ u <;> rfl

section

variable (hdate : v.date? = some d) (hd : d.InRange)

include hdate hd

theorem bucket_week : v.bucket .week = .ok (ofDate d.weekStart) :=
  bucket_of_date? hdate hd (by decide)

theorem bucket_dayOfWeek : v.bucket .dayOfWeek = .ok (ofCount d.dayOfWeek) :=
  bucket_of_date? hdate hd (by decide)

theorem bucket_dayOfYear : v.bucket .dayOfYear = .ok (ofCount d.dayOfYear) :=
  bucket_of_date? hdate hd (by decide)

theorem bucket_weekOfYear : v.bucket .weekOfYear = .ok (ofCount d.weekOfYear) :=
  bucket_of_date? hdate hd (by decide)

end

/-- The week, the day of the week, the day of the year and the week of the year
of a date and of the next one are those of the Gregorian calendar. -/
theorem bucket_gregorian (hd : d.IsReal) (hyear : 1 ≤ d.year ∧ d.year ≤ 9999)
    (hdate : v.date? = some d) (hdate' : v'.date? = some d.next) :
    (∃ start, v.bucket .week = .ok (ofDate start) ∧
        IsGreatest {s : CivilDate | s.IsReal ∧ s.IsSunday ∧ s ≤ d} start) ∧
      (v.bucket .week = v'.bucket .week ↔ ¬d.next.IsSunday) ∧
      (∃ k, v.bucket .dayOfWeek = .ok (ofCount k) ∧ 1 ≤ k ∧ k ≤ 7 ∧
        (k = 1 ↔ d.IsSunday) ∧
        v'.bucket .dayOfWeek = .ok (ofCount (k % 7 + 1))) ∧
      (∃ n, v.bucket .dayOfYear = .ok (ofCount n) ∧ 1 ≤ n ∧
        n ≤ CivilDate.yearLength d.year ∧ (n = 1 ↔ d = ⟨d.year, 1, 1⟩) ∧
        (n = CivilDate.yearLength d.year ↔ d = ⟨d.year, 12, 31⟩) ∧
        (d.next.year = d.year → v'.bucket .dayOfYear = .ok (ofCount (n + 1)))) ∧
      ∃ w, v.bucket .weekOfYear = .ok (ofCount w) ∧ 1 ≤ w ∧ w ≤ 54 ∧
        (d = ⟨d.year, 1, 1⟩ → w = 1) ∧
        (d.next.year = d.year →
          (d.next.IsSunday → v'.bucket .weekOfYear = .ok (ofCount (w + 1))) ∧
          (¬d.next.IsSunday → v'.bucket .weekOfYear = .ok (ofCount w))) := by
  have hnext := d.next_year
  have hrange : d.InRange := hd.inRange ⟨by omega, by omega⟩
  have hrange' : d.next.InRange := hd.next.inRange ⟨by omega, by omega⟩
  have hstart := hrange.weekStart hyear.1
  have hstart' := hrange'.weekStart (by omega)
  refine ⟨⟨d.weekStart, bucket_week hdate hrange, hd.isGreatest_weekStart⟩,
    ?week, ⟨d.dayOfWeek, bucket_dayOfWeek hdate hrange, Nat.le_add_left 1 _,
      d.dayOfWeek_le, hd.dayOfWeek_eq_one_iff, ?dayOfWeek⟩,
    ⟨d.dayOfYear, bucket_dayOfYear hdate hrange, hd.one_le_dayOfYear,
      hd.dayOfYear_le, hd.dayOfYear_eq_one_iff, hd.dayOfYear_eq_yearLength_iff,
      ?dayOfYear⟩,
    ⟨d.weekOfYear, bucket_weekOfYear hdate hrange, Nat.le_add_left 1 _,
      hd.weekOfYear_le, ?newYear, ?weekOfYear⟩⟩
  case week =>
    rw [bucket_week hdate hrange, bucket_week hdate' hrange',
      Except.ok.injEq, ofDate_inj hstart.readable hstart'.readable,
      hd.weekStart_eq_next_iff]
  case dayOfWeek => rw [bucket_dayOfWeek hdate' hrange', hd.dayOfWeek_next]
  case dayOfYear =>
    intro hsame
    rw [bucket_dayOfYear hdate' hrange', hd.dayOfYear_next hsame]
  case newYear =>
    intro hfirst
    rw [hfirst, CivilDate.weekOfYear_newYear]
  case weekOfYear =>
    intro hsame
    obtain ⟨hsunday, hother⟩ := hd.weekOfYear_next hsame
    rw [bucket_weekOfYear hdate' hrange']
    rw [Except.ok.injEq, Except.ok.injEq]
    exact ⟨fun h => congrArg ofCount (hsunday h),
      fun h => congrArg ofCount (hother h)⟩

/-- The year 2000 begins on a Saturday and has a leap day, and so its last day
is in a week 54. -/
theorem bucket_gregorian_endOfYear :
    (string "2000-12-30 23:59:60Z").date? = some ⟨2000, 12, 30⟩ ∧
      (temporal "2000-12-31").date? = some ⟨2000, 12, 31⟩ ∧
      (string "2000-12-30 23:59:60Z").bucket .week ≠
        (temporal "2000-12-31").bucket .week ∧
      ∃ w, (string "2000-12-30 23:59:60Z").bucket .weekOfYear = .ok
          (ofCount w) ∧ w ≤ 54 ∧
        (temporal "2000-12-31").bucket .weekOfYear = .ok (ofCount (w + 1)) := by
  have hsunday : CivilDate.IsSunday ⟨2000, 12, 31⟩ := by
    rw [CivilDate.IsReal.isSunday_iff (by decide)]
    rfl
  have hread : (string "2000-12-30 23:59:60Z").date? =
      some ⟨2000, 12, 30⟩ := rfl
  have hread' : (temporal "2000-12-31").date? = some ⟨2000, 12, 31⟩ := rfl
  obtain ⟨-, hweek, -, -, w, hw, -, hle, -, hnext⟩ :=
    bucket_gregorian (by decide) (by decide) hread hread'
  exact ⟨hread, hread', fun h => hweek.mp h hsunday, w, hw, hle,
    (hnext rfl).1 hsunday⟩

end Cell

end TableQuery
