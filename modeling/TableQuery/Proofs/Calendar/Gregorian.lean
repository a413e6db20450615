import Mathlib.Data.Int.ConditionallyCompleteOrder
import Mathlib.Data.Prod.Lex
import Mathlib.Tactic.IntervalCases
import TableQuery.Calendar.Civil

/-!
# The Gregorian calendar

Leap years, the lengths of the months and the date after a date.  Day numbers,
here integers of any size, count the dates of this calendar: the number goes up
by one from each date to the next, dates are in the order of their numbers, and
every number is that of one date.
-/

namespace TableQuery

namespace CivilDate

variable {d e : CivilDate} {year : Int}

/-! ## Years, months and dates -/

/-- Every fourth year has a leap day, but of the years that end a century only
every fourth. -/
def IsLeapYear (year : Int) : Prop :=
  year % 4 = 0 ∧ (year % 100 ≠ 0 ∨ year % 400 = 0)

instance (year : Int) : Decidable (IsLeapYear year) :=
  inferInstanceAs (Decidable (_ ∧ _))

def yearLength (year : Int) : Nat := if IsLeapYear year then 366 else 365

theorem yearLength_le (year : Int) : yearLength year ≤ 366 := by
  unfold yearLength
  split <;> decide

def monthLength (year : Int) : Nat → Nat
  | 2 => if IsLeapYear year then 29 else 28
  | 4 | 6 | 9 | 11 => 30
  | _ => 31

theorem monthLength_le (year : Int) (month : Nat) :
    monthLength year month ≤ 31 := by
  unfold monthLength
  split
  case h_1 => split <;> decide
  all_goals decide

/-- A date of the calendar: the month has the day. -/
structure IsReal (d : CivilDate) : Prop where
  one_le_month : 1 ≤ d.month
  month_le : d.month ≤ 12
  one_le_day : 1 ≤ d.day
  day_le : d.day ≤ monthLength d.year d.month

instance (d : CivilDate) : Decidable d.IsReal :=
  decidable_of_iff
    (1 ≤ d.month ∧ d.month ≤ 12 ∧ 1 ≤ d.day ∧
      d.day ≤ monthLength d.year d.month)
    ⟨fun ⟨h₁, h₂, h₃, h₄⟩ => ⟨h₁, h₂, h₃, h₄⟩, fun h => ⟨h.1, h.2, h.3, h.4⟩⟩

def next (d : CivilDate) : CivilDate :=
  if d.day < monthLength d.year d.month then ⟨d.year, d.month, d.day + 1⟩
  else if d.month < 12 then ⟨d.year, d.month + 1, 1⟩
  else ⟨d.year + 1, 1, 1⟩

theorem one_le_monthLength (year : Int) (month : Nat) :
    1 ≤ monthLength year month := by
  unfold monthLength
  split
  case h_1 => split <;> decide
  all_goals decide

theorem isReal_newYear (year : Int) : IsReal ⟨year, 1, 1⟩ :=
  ⟨Nat.le_refl 1, Nat.le_add_left 1 11, Nat.le_refl 1,
    one_le_monthLength year 1⟩

theorem IsReal.next (hd : d.IsReal) : d.next.IsReal := by
  unfold CivilDate.next
  split
  case isTrue h =>
      exact ⟨hd.one_le_month, hd.month_le, Nat.le_add_left 1 d.day, h⟩
  case isFalse =>
      split
      case isTrue h =>
          exact ⟨Nat.le_add_left 1 d.month, h, le_rfl, one_le_monthLength _ _⟩
      case isFalse => exact isReal_newYear (d.year + 1)

theorem next_year (d : CivilDate) :
    d.next.year = d.year ∨ d.next.year = d.year + 1 := by
  unfold CivilDate.next
  split
  case isTrue => exact .inl rfl
  case isFalse =>
      split
      case isTrue => exact .inl rfl
      case isFalse => exact .inr rfl

/-! ## Order -/

instance : LinearOrder CivilDate :=
  LinearOrder.lift' (fun d => toLex (d.year, toLex (d.month, d.day)))
    fun d e h => by
    cases d
    cases e
    simpa using h

theorem lt_def : d < e ↔ d.year < e.year ∨
    d.year = e.year ∧
      (d.month < e.month ∨ d.month = e.month ∧ d.day < e.day) := by
  change toLex (d.year, toLex (d.month, d.day)) < toLex
      (e.year, toLex (e.month, e.day)) ↔ _
  simp only [Prod.Lex.toLex_lt_toLex]

/-! ## The position in a year -/

def daysThrough (year : Int) : Nat → Nat
  | 0 => 0
  | month + 1 => daysThrough year month + monthLength year (month + 1)

theorem daysThrough_mono (year : Int) : Monotone (daysThrough year) :=
  monotone_nat_of_le_succ fun _ => Nat.le_add_right _ _

theorem daysThrough_twelve (year : Int) :
    daysThrough year 12 = yearLength year := by
  by_cases h : IsLeapYear year <;>
    simp [daysThrough, monthLength, yearLength, h]

theorem daysThrough_eq (year : Int) {month : Nat} (h : month < 12) :
    daysThrough year month = if month < 2 then 31 * month
      else (153 * (month - 2) + 2) / 5 + (if IsLeapYear year then
        60 else 59) := by
  by_cases hleap : IsLeapYear year <;> interval_cases month <;>
    simp [daysThrough, monthLength, hleap]

def daysBefore (d : CivilDate) : Nat := daysThrough d.year (d.month - 1)

theorem IsReal.daysThrough_month (hd : d.IsReal) :
    daysThrough d.year d.month = d.daysBefore + monthLength d.year d.month := by
  obtain ⟨month, hmonth⟩ := Nat.exists_eq_add_of_le' hd.one_le_month
  rw [daysBefore, hmonth]
  rfl

def dayOfYear (d : CivilDate) : Nat := d.daysBefore + d.day

theorem IsReal.dayOfYear_le_daysThrough (hd : d.IsReal) :
    d.dayOfYear ≤ daysThrough d.year d.month := by
  rw [hd.daysThrough_month]
  exact Nat.add_le_add_left hd.day_le _

theorem IsReal.one_le_dayOfYear (hd : d.IsReal) : 1 ≤ d.dayOfYear :=
  hd.one_le_day.trans (Nat.le_add_left _ _)

theorem IsReal.dayOfYear_le (hd : d.IsReal) :
    d.dayOfYear ≤ yearLength d.year := by
  rw [← daysThrough_twelve]
  exact hd.dayOfYear_le_daysThrough.trans (daysThrough_mono _ hd.month_le)

theorem IsReal.dayOfYear_lt (hd : d.IsReal) (he : e.IsReal)
    (hyear : d.year = e.year) (h : d < e) : d.dayOfYear < e.dayOfYear := by
  obtain hlt | ⟨-, hmonth | ⟨hmonth, hday⟩⟩ := lt_def.mp h
  · exact absurd hyear hlt.ne
  · calc d.dayOfYear ≤ daysThrough d.year d.month := hd.dayOfYear_le_daysThrough
      _ ≤ e.daysBefore :=
      hyear ▸ daysThrough_mono d.year (Nat.le_sub_one_of_lt hmonth)
      _ < e.dayOfYear := Nat.lt_add_of_pos_right he.one_le_day
  · rw [dayOfYear, dayOfYear, daysBefore, daysBefore, hyear, hmonth]
    exact Nat.add_lt_add_left hday _

/-! ## Day numbers count dates -/

def daysPerEra : Int := 146097

def epoch : Int := 719468

def monthFromMarch (month : Nat) : Int :=
  if 2 < month then month - 3 else month + 9

def dayNumber (date : CivilDate) : Int :=
  let year := if date.month ≤ 2 then date.year - 1 else date.year
  let era := year / 400
  let yearOfEra := year - era * 400
  let dayOfYear := (153 * monthFromMarch date.month + 2) / 5 + date.day - 1
  let dayOfEra := yearOfEra * 365 + yearOfEra / 4 - yearOfEra / 100 + dayOfYear
  era * daysPerEra + dayOfEra - epoch

def leapYears (year : Int) : Int := year / 4 - year / 100 + year / 400

theorem leapYears_eq (year : Int) :
    leapYears year = leapYears (year - 1) + if IsLeapYear year then
    1 else 0 := by
  unfold leapYears
  split
  case isTrue h =>
      unfold IsLeapYear at h
      omega
  case isFalse h =>
      unfold IsLeapYear at h
      omega

def newYear (year : Int) : Int :=
  365 * (year - 1) + leapYears (year - 1) - 719162

theorem newYear_add_one (year : Int) :
    newYear (year + 1) = newYear year + yearLength year := by
  unfold newYear yearLength
  rw [Int.add_sub_cancel, leapYears_eq year]
  split <;> omega

theorem newYear_mono : Monotone newYear :=
  monotone_int_of_le_succ fun year => by
    rw [newYear_add_one]
    omega

/-- The eras cancel out: what counts is the years, from March on, and the leap
days in them. -/
theorem dayNumber_eq_march (d : CivilDate) {year : Int}
    (hyear : year = if d.month ≤ 2 then d.year - 1 else d.year) :
    d.dayNumber = 365 * year + leapYears year +
      ((153 * monthFromMarch d.month + 2) / 5 + d.day - 1) - epoch := by
  simp only [dayNumber, ← hyear, daysPerEra, leapYears]
  omega

theorem dayNumber_eq (one_le_month : 1 ≤ d.month) (month_le : d.month ≤ 12) :
    d.dayNumber = newYear d.year + d.dayOfYear - 1 := by
  rw [dayNumber_eq_march d rfl, newYear, dayOfYear, daysBefore,
    daysThrough_eq _ (by omega)]
  unfold monthFromMarch epoch
  by_cases hmonth : d.month ≤ 2
  case pos =>
      rw [if_pos hmonth, if_neg (by omega), if_pos (by omega)]
      omega
  case neg =>
      rw [if_neg hmonth, if_pos (by omega), if_neg (by omega),
        leapYears_eq d.year]
      split <;> omega

theorem IsReal.dayNumber_eq (hd : d.IsReal) :
    d.dayNumber = newYear d.year + d.dayOfYear - 1 :=
  CivilDate.dayNumber_eq hd.one_le_month hd.month_le

theorem dayNumber_newYear (year : Int) :
    dayNumber ⟨year, 1, 1⟩ = newYear year := by
  rw [(isReal_newYear year).dayNumber_eq]
  simp [dayOfYear, daysBefore, daysThrough]

theorem IsReal.dayNumber_next (hd : d.IsReal) :
    d.next.dayNumber = d.dayNumber + 1 := by
  rw [hd.next.dayNumber_eq, hd.dayNumber_eq]
  unfold CivilDate.next
  split
  case isTrue =>
      simp only [dayOfYear, daysBefore]
      omega
  case isFalse hday =>
      have hend : d.dayOfYear = daysThrough d.year d.month := by
        rw [hd.daysThrough_month, dayOfYear,
          le_antisymm hd.day_le (Nat.le_of_not_lt hday)]
      split
      case isTrue =>
          have hfirst : dayOfYear ⟨d.year, d.month + 1, 1⟩ =
              daysThrough d.year d.month + 1 := rfl
          simp only [hfirst, hend]
          omega
      case isFalse hmonth =>
          have hfirst : dayOfYear ⟨d.year + 1, 1, 1⟩ = 1 := rfl
          have hlast : d.month = 12 :=
            le_antisymm hd.month_le (Nat.le_of_not_lt hmonth)
          simp only [hfirst, hend, hlast, daysThrough_twelve, newYear_add_one]
          omega

theorem IsReal.newYear_le_dayNumber (hd : d.IsReal) :
    newYear d.year ≤ d.dayNumber := by
  have hone := hd.one_le_dayOfYear
  rw [hd.dayNumber_eq]
  omega

theorem IsReal.dayNumber_lt_newYear (hd : d.IsReal) :
    d.dayNumber < newYear (d.year + 1) := by
  have hlast := hd.dayOfYear_le
  rw [hd.dayNumber_eq, newYear_add_one]
  omega

theorem IsReal.le_year_iff (hd : d.IsReal) :
    year ≤ d.year ↔ newYear year ≤ d.dayNumber := by
  constructor
  · intro h
    exact (newYear_mono h).trans hd.newYear_le_dayNumber
  · intro h
    by_contra hlt
    have hnext := newYear_mono (Int.add_one_le_of_lt (Int.not_le.mp hlt))
    exact absurd (h.trans_lt hd.dayNumber_lt_newYear) hnext.not_gt

/-- Dates are in the order of their day numbers. -/
theorem strictMonoOn_dayNumber : StrictMonoOn dayNumber {d | d.IsReal} := by
  intro d hd e he h
  rw [Set.mem_ofPred_eq] at hd he
  obtain hyear | ⟨hyear, -⟩ := lt_def.mp h
  · calc d.dayNumber < newYear (d.year + 1) := hd.dayNumber_lt_newYear
      _ ≤ newYear e.year := newYear_mono (Int.add_one_le_of_lt hyear)
      _ ≤ e.dayNumber := he.newYear_le_dayNumber
  · have hlt := hd.dayOfYear_lt he hyear h
    rw [hd.dayNumber_eq, he.dayNumber_eq, hyear]
    omega

theorem IsReal.dayNumber_le_iff (hd : d.IsReal) (he : e.IsReal) :
    d.dayNumber ≤ e.dayNumber ↔ d ≤ e :=
  strictMonoOn_dayNumber.le_iff_le hd he

theorem IsReal.dayNumber_inj (hd : d.IsReal) (he : e.IsReal) :
    d.dayNumber = e.dayNumber ↔ d = e :=
  strictMonoOn_dayNumber.injOn.eq_iff hd he

/-! ## The date with a day number -/

def ofDayNumber (n : Int) : CivilDate :=
  let n := n + epoch
  let era := n / daysPerEra
  let dayOfEra := n - era * daysPerEra
  let yearOfEra :=
    (dayOfEra - dayOfEra / 1460 + dayOfEra / 36524 - dayOfEra / 146096) / 365
  let dayOfYear :=
    dayOfEra - (365 * yearOfEra + yearOfEra / 4 - yearOfEra / 100)
  let month := (5 * dayOfYear + 2) / 153
  let day := dayOfYear - (153 * month + 2) / 5 + 1
  let civilMonth := if month < 10 then month + 3 else month - 9
  ⟨yearOfEra + era * 400 + (if civilMonth ≤ 2 then 1 else 0), civilMonth.toNat,
    day.toNat⟩

def ofMarch (year day : Int) : CivilDate :=
  let month := (5 * day + 2) / 153
  let civilMonth := if month < 10 then month + 3 else month - 9
  ⟨year + (if civilMonth ≤ 2 then 1 else 0), civilMonth.toNat,
    (day - (153 * month + 2) / 5 + 1).toNat⟩

/-- The days of a year that begins in March: the last of 366 is there if a leap
year comes next. -/
def InMarchYear (year day : Int) : Prop :=
  0 ≤ day ∧ (day < 365 ∨ day = 365 ∧ IsLeapYear (year + 1))

theorem InMarchYear.exists_month {day : Int} (h : InMarchYear year day) :
    ∃ month : Nat, (5 * day + 2) / 153 = month ∧ month < 12 := by
  obtain ⟨hnonneg, hday⟩ := h
  exact ⟨((5 * day + 2) / 153).toNat, by omega, by omega⟩

theorem InMarchYear.isReal {day : Int} (h : InMarchYear year day) :
    (ofMarch year day).IsReal := by
  obtain ⟨month, hmonth, hlt⟩ := h.exists_month
  obtain ⟨hnonneg, hday⟩ := h
  simp only [ofMarch, hmonth]
  refine ⟨?_, ?_, ?_, ?_⟩
  · dsimp only; split <;> omega
  · dsimp only; split <;> omega
  · dsimp only; omega
  · obtain hday | ⟨hday, hleap⟩ := hday
    · interval_cases month <;> simp [monthLength] <;> omega
    · obtain rfl : month = 11 := by omega
      simp [monthLength, hleap]
      omega

theorem InMarchYear.dayNumber {day : Int} (h : InMarchYear year day) :
    (ofMarch year day).dayNumber =
      365 * year + leapYears year + day - epoch := by
  obtain ⟨month, hmonth, hlt⟩ := h.exists_month
  obtain ⟨hnonneg, hday⟩ := h
  have hyear : year = if (ofMarch year day).month ≤ 2 then
      (ofMarch year day).year - 1
      else (ofMarch year day).year := by
    simp only [ofMarch, hmonth]
    split_ifs <;> omega
  rw [dayNumber_eq_march _ hyear]
  simp only [ofMarch, monthFromMarch, hmonth]
  split_ifs <;> omega

/-! ### Eras -/

def dayOfEra (year day : Int) : Int := 365 * year + leapYears year + day

structure InEra (century quadrennium year : Int) : Prop where
  century_bounds : 0 ≤ century ∧ century < 4
  quadrennium_bounds : 0 ≤ quadrennium ∧ quadrennium < 25
  year_bounds : 0 ≤ year ∧ year < 4

section

variable {century quadrennium day n : Int}

theorem exists_inEra (hnonneg : 0 ≤ year) (hlt : year < 400) :
    ∃ c q y, InEra c q y ∧ year = 100 * c + 4 * q + y :=
  ⟨year / 100, year % 100 / 4, year % 4, ⟨by omega, by omega, by omega⟩,
    by omega⟩

theorem InEra.dayOfEra_eq (h : InEra century quadrennium year) :
    dayOfEra (100 * century + 4 * quadrennium + year) day =
      36524 * century + 1461 * quadrennium + 365 * year + day := by
  obtain ⟨hcentury, hquadrennium, hyear⟩ := h
  unfold dayOfEra leapYears
  omega

theorem InEra.inMarchYear_iff (h : InEra century quadrennium year) :
    InMarchYear (100 * century + 4 * quadrennium + year) day ↔ 0 ≤ day ∧
      (day < 365 ∨
        day = 365 ∧ year = 3 ∧ (quadrennium < 24 ∨ century = 3)) := by
  obtain ⟨hcentury, hquadrennium, hyear⟩ := h
  unfold InMarchYear IsLeapYear
  omega

/-- A century is taken out first, then four years, then a year: the last of each
is the long one. -/
theorem exists_dayOfEra (hnonneg : 0 ≤ n) (hlt : n < daysPerEra) :
    ∃ year day, 0 ≤ year ∧ year < 400 ∧ InMarchYear year day ∧
      n = dayOfEra year day := by
  unfold daysPerEra at hlt
  obtain ⟨century, hcentury⟩ : ∃ century, century = min (n / 36524) 3 :=
    ⟨_, rfl⟩
  obtain ⟨quadrennium, hquadrennium⟩ : ∃ q, q = (n - 36524 * century) / 1461 :=
    ⟨_, rfl⟩
  obtain ⟨rest, hrest⟩ : ∃ rest,
      rest = n - 36524 * century - 1461 * quadrennium := ⟨_, rfl⟩
  obtain ⟨year, hyear⟩ : ∃ year, year = min (rest / 365) 3 := ⟨_, rfl⟩
  have hera : InEra century quadrennium year := ⟨by omega, by omega, by omega⟩
  refine ⟨100 * century + 4 * quadrennium + year, rest - 365 * year,
    by omega, by omega, hera.inMarchYear_iff.mpr ⟨by omega, by omega⟩, ?_⟩
  rw [hera.dayOfEra_eq]
  omega

theorem yearOfEra_dayOfEra (hnonneg : 0 ≤ year) (hlt : year < 400)
    (h : InMarchYear year day) (hn : n = dayOfEra year day) :
    (n - n / 1460 + n / 36524 - n / 146096) / 365 = year := by
  obtain ⟨century, quadrennium, year, hera, rfl⟩ := exists_inEra hnonneg hlt
  obtain ⟨hday, hlast⟩ := hera.inMarchYear_iff.mp h
  rw [hera.dayOfEra_eq] at hn
  obtain ⟨hcentury, hquadrennium, hyear⟩ := hera
  obtain ⟨rest, hrest⟩ : ∃ rest, rest = 1461 * quadrennium + 365 * year + day :=
    ⟨_, rfl⟩
  have hrest_lt : rest < 36524 ∨ rest = 36524 ∧ century = 3 := by omega
  have hcenturies : n / 36524 - n / 146096 = century := by omega
  have hyears : n / 1460 =
      25 * century + quadrennium +
      (24 * century + quadrennium + 365 * year + day) / 1460 := by
    omega
  omega

theorem sub_yearDays (hnonneg : 0 ≤ year) (hlt : year < 400) :
    dayOfEra year day - (365 * year + year / 4 - year / 100) = day := by
  unfold dayOfEra leapYears
  omega

end

/-! ### Every number is that of a date -/

theorem leapYears_add_era (year era : Int) :
    leapYears (year + era * 400) = leapYears year + 97 * era := by
  unfold leapYears
  omega

theorem InMarchYear.add_era {day : Int} (h : InMarchYear year day) (era : Int) :
    InMarchYear (year + era * 400) day := by
  unfold InMarchYear IsLeapYear at *
  omega

theorem ofDayNumber_of_era {era day n : Int} (hnonneg : 0 ≤ year)
    (hlt : year < 400) (hmarch : InMarchYear year day)
    (hn : n + epoch = era * daysPerEra + dayOfEra year day)
    (hbounds : 0 ≤ dayOfEra year day ∧ dayOfEra year day < daysPerEra) :
    ofDayNumber n = ofMarch (year + era * 400) day := by
  have hera : (n + epoch) / daysPerEra = era := by
    unfold daysPerEra at *
    omega
  have hrest : n + epoch - era * daysPerEra = dayOfEra year day := by
    unfold daysPerEra at *
    omega
  have hyear := yearOfEra_dayOfEra hnonneg hlt hmarch rfl
  simp only [ofDayNumber, hera, hrest, hyear, sub_yearDays hnonneg hlt]
  rfl

theorem ofDayNumber_eq_ofMarch (n : Int) :
    ∃ year day, InMarchYear year day ∧
      n + epoch = 365 * year + leapYears year + day ∧
      ofDayNumber n = ofMarch year day := by
  obtain ⟨era, hera⟩ : ∃ era, era = (n + epoch) / daysPerEra := ⟨_, rfl⟩
  obtain ⟨rest, hrest⟩ : ∃ rest, rest = n + epoch - era * daysPerEra := ⟨_, rfl⟩
  have hbounds : 0 ≤ rest ∧ rest < daysPerEra := by
    unfold daysPerEra at *
    omega
  obtain ⟨year, day, hnonneg, hlt, hmarch, hdays⟩ :=
    exists_dayOfEra hbounds.1 hbounds.2
  have hn : n + epoch = era * daysPerEra + dayOfEra year day := by omega
  refine ⟨year + era * 400, day, hmarch.add_era _, ?_,
    ofDayNumber_of_era hnonneg hlt hmarch hn (hdays ▸ hbounds)⟩
  rw [hn, leapYears_add_era, dayOfEra, daysPerEra]
  omega

theorem isReal_ofDayNumber (n : Int) : (ofDayNumber n).IsReal := by
  obtain ⟨year, day, hmarch, -, heq⟩ := ofDayNumber_eq_ofMarch n
  rw [heq]
  exact hmarch.isReal

theorem dayNumber_ofDayNumber (n : Int) : (ofDayNumber n).dayNumber = n := by
  obtain ⟨year, day, hmarch, hn, heq⟩ := ofDayNumber_eq_ofMarch n
  rw [heq, hmarch.dayNumber, ← hn]
  exact Int.add_sub_cancel n epoch

theorem IsReal.ofDayNumber_dayNumber (hd : d.IsReal) :
    ofDayNumber d.dayNumber = d :=
  ((isReal_ofDayNumber _).dayNumber_inj hd).mp (dayNumber_ofDayNumber _)

end CivilDate

end TableQuery
