import TableQuery.Proofs.Calendar.Gregorian
import TableQuery.Proofs.Calendar.Reading
import TableQuery.Proofs.Word

/-!
# Counting days in words

The years of dates are read up to the largest word, and days are counted in
words of the same size.  The parts of a date fit their words, and only the count
of days itself, which takes 146097 of them for an era of 400 years, overflows,
from a fixed date on.
-/

namespace TableQuery

open Word64 (Computes)

def weekday (n : Int) : Int := (n + 4) % 7

namespace CivilDate

variable {d : CivilDate} {n : Int}

/-! ## Dates to day numbers -/

theorem computes_daysBeforeMonth {w : Word64} {month : Int}
    (hw : w.Computes month) (hmonth : 0 ≤ month ∧ month < 12) :
    ((153 * w + 2).div 5).Computes ((153 * month + 2) / 5) :=
  (((Computes.ofNat 153).mul hw (by omega)).add (.ofNat 2) (by omega)).div 5

/-- A date whose parts fit their words.  The least years are left out: their era
may start before the least word. -/
structure Storable (d : CivilDate) : Prop where
  year_bounds : -9223372036854775000 ≤ d.year ∧ d.year < 9223372036854775808
  month_bounds : 1 ≤ d.month ∧ d.month ≤ 12
  day_bounds : 1 ≤ d.day ∧ d.day ≤ 31

theorem Readable.storable (hd : d.Readable) : d.Storable where
  year_bounds :=
    ⟨(by decide : (-9223372036854775000 : Int) ≤ 0).trans hd.year_nonneg,
      hd.year_lt⟩
  month_bounds := hd.month_bounds
  day_bounds := hd.day_bounds

theorem Storable.computes_marchYear (hd : d.Storable) :
    d.marchYear64.Computes
      (if d.month ≤ 2 then d.year - 1 else d.year) := by
  have hyear := hd.year_bounds
  unfold marchYear64
  split
  · exact (Computes.of d.year).sub (.ofNat 1) (by omega)
  · exact .of d.year

theorem Storable.computes_dayOfMarchYear (hd : d.Storable) :
    d.dayOfMarchYear64.Computes
      ((153 * monthFromMarch d.month + 2) / 5 + d.day - 1) := by
  obtain ⟨-, hmonth, hday⟩ := hd
  have hfrom : d.monthFromMarch64.Computes (monthFromMarch d.month) := by
    unfold monthFromMarch64 monthFromMarch
    split
    · exact (Computes.of d.month).sub (.ofNat 3) (by omega)
    · exact (Computes.of d.month).add (.ofNat 9) (by omega)
  have hbounds : 0 ≤ monthFromMarch d.month ∧ monthFromMarch d.month < 12 := by
    unfold monthFromMarch
    split <;> omega
  have hdays := computes_daysBeforeMonth hfrom hbounds
  exact (hdays.add (.of d.day) (by omega)).sub (.ofNat 1) (by omega)

theorem Storable.exists_era (hd : d.Storable) : ∃ era day : Int,
    d.dayNumber = era * 146097 + day - 719468 ∧
      (d.year - 400 ≤ 400 * era ∧ 400 * era ≤ d.year) ∧
      (0 ≤ day ∧ day < 146200) ∧
      (d.marchYear64.div 400).Computes era ∧ d.dayOfEra64.Computes day := by
  have hyear := hd.computes_marchYear
  have hdays := hd.computes_dayOfMarchYear
  obtain ⟨hyearBounds, hmonth, hday⟩ := hd
  obtain ⟨year, hyeareq⟩ :
    ∃ year, year = if d.month ≤ 2 then d.year - 1 else d.year := ⟨_, rfl⟩
  obtain ⟨days, hdayseq⟩ : ∃ days,
    days = (153 * monthFromMarch d.month + 2) / 5 + d.day - 1 := ⟨_, rfl⟩
  have hbounds : d.year - 1 ≤ year ∧ year ≤ d.year := by
    rw [hyeareq]
    split <;> omega
  have hdaysBounds : 0 ≤ days ∧ days < 370 := by
    rw [hdayseq]
    unfold monthFromMarch
    split <;> omega
  rw [← hyeareq] at hyear
  rw [← hdayseq] at hdays
  have hera := hyear.div 400
  have hyearOfEra :=
    hyear.sub (hera.mul (.ofNat 400) (by omega)) (by omega)
  have hleapDays := ((hyearOfEra.mul (.ofNat 365) (by omega)).add
    (hyearOfEra.div 4) (by omega)).sub (hyearOfEra.div 100) (by omega)
  have hdayOfEra := hleapDays.add hdays (by omega)
  refine ⟨_, _, ?_, ?_, ?_, hera, hdayOfEra⟩
  · simp only [dayNumber, ← hyeareq, ← hdayseq, daysPerEra, epoch]
    omega
  · omega
  · omega

/-- The latest date that is counted without overflow. -/
def lastCounted : CivilDate := ⟨25252734927766554, 9, 25⟩

theorem dayNumber_lastCounted :
    lastCounted.dayNumber = 9223372036854056339 := rfl

/-- The day numbers that are counted, and turned into dates, without overflow.
The lower bound leaves room for the start of the era that a number is in. -/
structure Counted (n : Int) : Prop where
  low : -9223372036854000000 ≤ n
  high : n ≤ lastCounted.dayNumber

theorem Storable.computes_dayNumber (hd : d.Storable)
    (hcounted : Counted d.dayNumber) : d.dayNumber64.Computes d.dayNumber := by
  obtain ⟨era, day, hnumber, -, hdayBounds, hera, hday⟩ := hd.exists_era
  obtain ⟨hlow, hhigh⟩ := hcounted
  rw [dayNumber_lastCounted] at hhigh
  rw [hnumber] at hlow hhigh ⊢
  exact ((hera.mul (.ofNat 146097) (by omega)).add hday (by omega)).sub
    (.ofNat 719468) (by omega)

theorem Readable.dayNumber_bounds (hd : d.Readable) :
    newYear d.year ≤ d.dayNumber ∧ d.dayNumber < newYear (d.year + 1) := by
  obtain ⟨hm₁, hm₂⟩ := hd.month_bounds
  obtain ⟨hk₁, hk₂⟩ := hd.day_bounds
  have hdays : daysThrough d.year (d.month - 1) + 31 ≤ yearLength d.year := by
    rw [daysThrough_eq _ (by omega), yearLength]
    split <;> split <;> omega
  rw [newYear_add_one, dayNumber_eq hm₁ hm₂, dayOfYear, daysBefore]
  omega

theorem Readable.le_dayNumber (hd : d.Readable) : -900000 ≤ d.dayNumber := by
  have hfirst := hd.dayNumber_bounds.1
  have hyear := hd.year_nonneg
  unfold newYear leapYears at hfirst
  omega

/-- A day past the end of its month does not get past the last day that is
counted. -/
theorem Readable.le_lastCounted_iff (hd : d.Readable) :
    d ≤ lastCounted ↔ d.dayNumber ≤ lastCounted.dayNumber := by
  have hyear : newYear lastCounted.year = 9223372036854056072 := rfl
  have hnext : newYear (lastCounted.year + 1) = 9223372036854056437 := rfl
  have hbounds := hd.dayNumber_bounds
  have hmonth := hd.month_bounds
  have hday := hd.day_bounds
  rw [dayNumber_lastCounted, ← not_lt, ← not_lt, not_iff_not, lt_def]
  obtain hlt | heq | hgt := lt_trichotomy d.year lastCounted.year
  · have hmono := newYear_mono (Int.add_one_le_of_lt hlt)
    omega
  · have hleap : ¬IsLeapYear lastCounted.year := by decide
    have hnumber := dayNumber_eq hmonth.1 hmonth.2
    rw [dayOfYear, daysBefore, daysThrough_eq _ (by omega), heq, hyear,
      if_neg hleap] at hnumber
    have hmonth' : lastCounted.month = 9 := rfl
    have hday' : lastCounted.day = 25 := rfl
    rw [hnumber, heq, hmonth', hday']
    split <;> omega
  · have hmono := newYear_mono (Int.add_one_le_of_lt hgt)
    omega

theorem Readable.counted (hd : d.Readable) (hlast : d ≤ lastCounted) :
    Counted d.dayNumber where
  low := (by decide : _ ≤ (-900000 : Int)).trans hd.le_dayNumber
  high := hd.le_lastCounted_iff.mp hlast

theorem Readable.computes_dayNumber (hd : d.Readable)
    (hlast : d ≤ lastCounted) : d.dayNumber64.Computes d.dayNumber :=
  hd.storable.computes_dayNumber (hd.counted hlast)

/-- The last sum, from which the epoch is subtracted, is the largest result of
all. -/
theorem Readable.dayNumber64_eq_overflow (hd : d.Readable)
    (hlast : lastCounted < d) : d.dayNumber64 = .overflow := by
  obtain ⟨era, day, hnumber, -, -, hera, hday⟩ := hd.storable.exists_era
  have hlater := mt hd.le_lastCounted_iff.mpr hlast.not_ge
  rw [dayNumber_lastCounted] at hlater
  cases hw : d.dayNumber64 with
  | overflow => rfl
  | of n =>
      obtain ⟨sum, _, hsum, -, -⟩ := Word64.binary_eq_of_iff.mp hw
      obtain ⟨product, k, hproduct, hk, hsum⟩ := Word64.binary_eq_of_iff.mp hsum
      obtain ⟨e, j, he, hj, hproduct⟩ := Word64.binary_eq_of_iff.mp hproduct
      obtain rfl : j = 146097 := (Word64.of.inj hj).symm
      cases he.symm.trans hera.eq_of
      cases hk.symm.trans hday.eq_of
      obtain ⟨-, rfl⟩ := Word64.checked_eq_of_iff.mp hproduct
      obtain ⟨hfits, -⟩ := Word64.checked_eq_of_iff.mp hsum
      omega

/-! ## Day numbers to dates -/

theorem ofWords?_eq {a b c : Word64} {year month day : Int}
    (ha : a.Computes year) (hb : b.Computes month) (hc : c.Computes day) :
    ofWords? a b c = some ⟨year, month.toNat, day.toNat⟩ := by
  rw [ha.eq_of, hb.eq_of, hc.eq_of, ofWords?]

theorem computes_civilMonth {w : Word64} {month : Int} (hw : w.Computes month)
    (hmonth : 0 ≤ month ∧ month < 12) :
    (w.ifLess 10 (w + 3) (w - 9)).Computes
      (if month < 10 then month + 3 else month - 9) := by
  split
  case isTrue hlt =>
      exact hw.ifLess (fun _ => hw.add (.ofNat 3) (by omega)) (absurd hlt)
  case isFalse hle =>
      exact hw.ifLess (fun hlt => absurd hlt hle)
        (fun _ => hw.sub (.ofNat 9) (by omega))

theorem computes_yearsFromMarch {w : Word64} {month : Int}
    (hw : w.Computes month) :
    (w.ifLess 3 1 0).Computes (if month ≤ 2 then 1 else 0) := by
  split
  case isTrue hle => exact hw.ifLess (fun _ => .ofNat 1) (absurd (by omega))
  case isFalse hlt =>
      exact hw.ifLess (fun h => absurd h (by omega)) (fun _ => .ofNat 0)

theorem ofEra64?_eq {era day : Word64} {e k : Int} (hera : era.Computes e)
    (hday : day.Computes k)
    (he : -100000000000000 ≤ e ∧ e ≤ 100000000000000)
    (hk : 0 ≤ k ∧ k < 146097) :
    ofEra64? era day = some (ofDayNumber (e * 146097 + k - 719468)) := by
  obtain ⟨year, dayOfYear, hnonneg, hlt, hmarch, rfl⟩ :=
    exists_dayOfEra hk.1 hk.2
  have hdate : ofDayNumber (e * 146097 + dayOfEra year dayOfYear - 719468) =
      ofMarch (year + e * 400) dayOfYear :=
    ofDayNumber_of_era hnonneg hlt hmarch (Int.sub_add_cancel _ epoch) hk
  have hyear64 : Computes _ year := yearOfEra_dayOfEra hnonneg hlt hmarch rfl ▸
    (((hday.sub (hday.div 1460) (by omega)).add (hday.div 36524)
      (by omega)).sub (hday.div 146096) (by omega)).div 365
  have hyearDays := (((Computes.ofNat 365).mul hyear64 (by omega)).add
    (hyear64.div 4) (by omega)).sub (hyear64.div 100) (by omega)
  have hdayOfYear64 : Computes _ dayOfYear := sub_yearDays hnonneg hlt ▸
    hday.sub hyearDays (by omega)
  obtain ⟨month, hmonth, hmonthLt⟩ := hmarch.exists_month
  have hbounds : 0 ≤ dayOfYear ∧ dayOfYear < 366 := by
    unfold InMarchYear at hmarch
    omega
  have hmonth64 : Computes _ (month : Int) := hmonth ▸
    (((Computes.ofNat 5).mul hdayOfYear64 (by omega)).add (.ofNat 2)
      (by omega)).div 153
  have hmonthDays := computes_daysBeforeMonth hmonth64 (by omega)
  have hday64 := (hdayOfYear64.sub hmonthDays (by omega)).add (.ofNat 1)
    (by omega)
  have hcivil64 := computes_civilMonth hmonth64 (by omega)
  have hyears64 := computes_yearsFromMarch hcivil64
  have hcivilYear64 := (hyear64.add (hera.mul (.ofNat 400) (by omega))
    (by omega)).add hyears64 (by split <;> omega)
  rw [hdate, ofMarch, hmonth]
  exact ofWords?_eq hcivilYear64 hcivil64 hday64

theorem ofDayNumber64?_eq {w : Word64} (hw : w.Computes n)
    (hcounted : Counted n) : ofDayNumber64? w = some (ofDayNumber n) := by
  obtain ⟨hlow, hhigh⟩ := hcounted
  rw [dayNumber_lastCounted] at hhigh
  obtain ⟨era, heraeq⟩ : ∃ era, era = (n + 719468) / 146097 := ⟨_, rfl⟩
  have hdays := hw.add (.ofNat 719468) (by omega)
  have hera : Computes _ era := heraeq ▸ hdays.div 146097
  have hday := hdays.sub (hera.mul (.ofNat 146097) (by omega)) (by omega)
  have hnumber : era * 146097 + (n + 719468 - era * 146097) - 719468 = n := by
    omega
  have hdate := ofEra64?_eq hera hday (by omega) (by omega)
  exact hnumber ▸ hdate

/-! ## Weeks -/

theorem weekday_bounds (n : Int) : 0 ≤ weekday n ∧ weekday n < 7 := by
  unfold weekday
  omega

theorem Counted.computes_weekday {w : Word64} (hcounted : Counted n)
    (hw : w.Computes n) : (weekday64 w).Computes (weekday n) := by
  obtain ⟨hlow, hhigh⟩ := hcounted
  rw [dayNumber_lastCounted] at hhigh
  exact (hw.add (.ofNat 4) (by omega)).mod 7

def weekStart (d : CivilDate) : CivilDate :=
  ofDayNumber (d.dayNumber - weekday d.dayNumber)

/-- The position of a date in its week, which begins with 1 for Sunday. -/
def dayOfWeek (d : CivilDate) : Nat := (weekday d.dayNumber).toNat + 1

def weekOfYear (d : CivilDate) : Nat :=
  (d.dayOfYear - 1 + (weekday (newYear d.year)).toNat) / 7 + 1

theorem Readable.dayOfYear_eq (hd : d.Readable) :
    (d.dayOfYear : Int) = d.dayNumber - newYear d.year + 1 := by
  rw [dayNumber_eq hd.month_bounds.1 hd.month_bounds.2]
  omega

theorem Readable.dayOfYear_bounds (hd : d.Readable) :
    1 ≤ d.dayOfYear ∧ d.dayOfYear ≤ 366 := by
  have hbounds := hd.dayNumber_bounds
  have hdays := hd.dayOfYear_eq
  have hlength := yearLength_le d.year
  rw [newYear_add_one] at hbounds
  omega

theorem Readable.firstOfYear (hd : d.Readable) : Readable ⟨d.year, 1, 1⟩ :=
  ⟨hd.year_nonneg, hd.year_lt, ⟨Nat.le_refl 1, Nat.le_add_left 1 11⟩,
    ⟨Nat.le_refl 1, Nat.le_add_left 1 30⟩⟩

theorem Readable.firstOfYear_le (hd : d.Readable) : ⟨d.year, 1, 1⟩ ≤ d := by
  rw [← not_lt, lt_def]
  have hmonth := hd.month_bounds
  have hday := hd.day_bounds
  dsimp only
  omega

section

variable (hd : d.Readable) (hlast : d ≤ lastCounted)

include hd hlast

theorem Readable.weekStart64_eq :
    ofDayNumber64? (d.dayNumber64 - weekday64 d.dayNumber64) =
      some d.weekStart := by
  have hnumber := hd.computes_dayNumber hlast
  have hcounted := hd.counted hlast
  have hweekday := weekday_bounds d.dayNumber
  have hlow := hd.le_dayNumber
  have hhigh := hcounted.high
  rw [dayNumber_lastCounted] at hhigh
  have hstart := hnumber.sub (hcounted.computes_weekday hnumber) (by omega)
  exact ofDayNumber64?_eq hstart
    ⟨by omega, by rw [dayNumber_lastCounted]; omega⟩

theorem Readable.computes_dayOfWeek :
    (weekday64 d.dayNumber64 + 1).Computes d.dayOfWeek := by
  have hnumber := hd.computes_dayNumber hlast
  have hweekday := (hd.counted hlast).computes_weekday hnumber
  have hbounds := weekday_bounds d.dayNumber
  have hposition : (d.dayOfWeek : Int) = weekday d.dayNumber + 1 := by
    unfold dayOfWeek
    omega
  exact hposition ▸ hweekday.add (.ofNat 1) (by omega)

theorem Readable.computes_newYear :
    (dayNumber64 ⟨d.year, 1, 1⟩).Computes (newYear d.year) :=
  dayNumber_newYear d.year ▸
    hd.firstOfYear.computes_dayNumber (hd.firstOfYear_le.trans hlast)

theorem Readable.computes_daysOfYear :
    (d.dayNumber64 - dayNumber64 ⟨d.year, 1, 1⟩).Computes
      (d.dayOfYear - 1) := by
  have hdays := hd.dayOfYear_eq
  have hbounds := hd.dayOfYear_bounds
  have hsub := (hd.computes_dayNumber hlast).sub
    (hd.computes_newYear hlast) (by omega)
  rw [hdays, Int.add_sub_cancel]
  exact hsub

theorem Readable.computes_dayOfYear :
    (d.dayNumber64 - dayNumber64 ⟨d.year, 1, 1⟩ + 1).Computes d.dayOfYear := by
  have hbounds := hd.dayOfYear_bounds
  have hposition : (d.dayOfYear : Int) = d.dayOfYear - 1 + 1 := by omega
  exact hposition ▸
    (hd.computes_daysOfYear hlast).add (.ofNat 1) (by omega)

theorem Readable.computes_weekOfYear :
    ((d.dayNumber64 - dayNumber64 ⟨d.year, 1, 1⟩ +
      weekday64 (dayNumber64 ⟨d.year, 1, 1⟩)).div 7 + 1).Computes
        d.weekOfYear := by
  have hfirst := hd.firstOfYear.counted (hd.firstOfYear_le.trans hlast)
  rw [dayNumber_newYear] at hfirst
  have hweekday := hfirst.computes_weekday (hd.computes_newYear hlast)
  have hdaysBounds := hd.dayOfYear_bounds
  have hbounds := weekday_bounds (newYear d.year)
  have hdays := (hd.computes_daysOfYear hlast).add hweekday (by omega)
  have hposition : (d.weekOfYear : Int) =
      ((d.dayOfYear : Int) - 1 + weekday (newYear d.year)) / (7 : Nat) + 1 := by
    unfold weekOfYear
    omega
  exact hposition ▸ (hdays.div 7).add (.ofNat 1) (by omega)

end

end CivilDate

end TableQuery
