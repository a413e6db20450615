import TableQuery.Word

/-!
# Civil dates and day numbers

Dates of the proleptic Gregorian calendar, counted in days from 1 January 1970.
The count starts years in March, so that the day a leap year adds is the last of
its year, and works in eras of 400 years, which all have 146097 days.  From
1 March of the year 0 to 1 January 1970 there are 719468 days.
-/

namespace TableQuery

structure CivilDate where
  year : Int
  month : Nat
  day : Nat
deriving DecidableEq, Repr

namespace CivilDate

/-! ## Dates to day numbers -/

section

variable (date : CivilDate)

def marchYear64 : Word64 :=
  if date.month ≤ 2 then .of date.year - 1 else .of date.year

def monthFromMarch64 : Word64 :=
  if 2 < date.month then .of date.month - 3 else .of date.month + 9

def dayOfMarchYear64 : Word64 :=
  (153 * date.monthFromMarch64 + 2).div 5 + .of date.day - 1

def yearOfEra64 : Word64 :=
  date.marchYear64 - date.marchYear64.div 400 * 400

def dayOfEra64 : Word64 :=
  date.yearOfEra64 * 365 + date.yearOfEra64.div 4 - date.yearOfEra64.div 100 +
    date.dayOfMarchYear64

/-- The days from 1 January 1970 to the date; a day past the end of its month
counts on. -/
def dayNumber64 : Word64 :=
  date.marchYear64.div 400 * 146097 + date.dayOfEra64 - 719468

end

/-! ## Day numbers to dates -/

def ofWords? : Word64 → Word64 → Word64 → Option CivilDate
  | .of year, .of month, .of day => some ⟨year, month.toNat, day.toNat⟩
  | _, _, _ => none

def ofEra64? (era dayOfEra : Word64) : Option CivilDate :=
  let yearOfEra := (dayOfEra - dayOfEra.div 1460 + dayOfEra.div 36524 -
    dayOfEra.div 146096).div 365
  let dayOfYear := dayOfEra -
    (365 * yearOfEra + yearOfEra.div 4 - yearOfEra.div 100)
  let fromMarch := (5 * dayOfYear + 2).div 153
  let day := dayOfYear - (153 * fromMarch + 2).div 5 + 1
  let month := fromMarch.ifLess 10 (fromMarch + 3) (fromMarch - 9)
  let year := yearOfEra + era * 400 + month.ifLess 3 1 0
  ofWords? year month day

def ofDayNumber64? (n : Word64) : Option CivilDate :=
  let days := n + 719468
  let era := days.div 146097
  ofEra64? era (days - era * 146097)

end CivilDate

def weekday64 (n : Word64) : Word64 := (n + 4).mod 7

structure ClockTime where
  hour : Nat
  minute : Nat
  second : Nat
deriving DecidableEq, Repr

end TableQuery
