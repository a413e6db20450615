/-!
# Calendar shapes and units

What a temporal value shows (a date, a time, or both), and the units that group
such values: seven that cut a value off, and eight that take one component out
of it.
-/

namespace TableQuery

inductive CalendarShape where
  | date
  | dateTime
  | time
deriving DecidableEq, Repr

inductive CalendarUnit where
  | minute
  | hour
  | day
  | week
  | month
  | quarter
  | year
  | minuteOfHour
  | hourOfDay
  | dayOfWeek
  | dayOfMonth
  | dayOfYear
  | weekOfYear
  | monthOfYear
  | quarterOfYear
deriving DecidableEq, Repr

namespace CalendarUnit

def all : List CalendarUnit :=
  [minute, hour, day, week, month, quarter, year, minuteOfHour, hourOfDay,
    dayOfWeek, dayOfMonth, dayOfYear, weekOfYear, monthOfYear, quarterOfYear]

def name : CalendarUnit → String
  | minute => "minute"
  | hour => "hour"
  | day => "day"
  | week => "week"
  | month => "month"
  | quarter => "quarter"
  | year => "year"
  | minuteOfHour => "minute-of-hour"
  | hourOfDay => "hour-of-day"
  | dayOfWeek => "day-of-week"
  | dayOfMonth => "day-of-month"
  | dayOfYear => "day-of-year"
  | weekOfYear => "week-of-year"
  | monthOfYear => "month-of-year"
  | quarterOfYear => "quarter-of-year"

def ofName? (s : String) : Option CalendarUnit := all.find? (·.name == s)

def label : CalendarUnit → String
  | minute => "Minute"
  | hour => "Hour"
  | day => "Day"
  | week => "Week"
  | month => "Month"
  | quarter => "Quarter"
  | year => "Year"
  | minuteOfHour => "Minute of hour"
  | hourOfDay => "Hour of day"
  | dayOfWeek => "Day of week"
  | dayOfMonth => "Day of month"
  | dayOfYear => "Day of year"
  | weekOfYear => "Week of year"
  | monthOfYear => "Month of year"
  | quarterOfYear => "Quarter of year"

def isExtraction : CalendarUnit → Bool
  | minute | hour | day | week | month | quarter | year => false
  | _ => true

end CalendarUnit

/-- The units that apply to values of a shape, in the order in which they are
offered. -/
def CalendarShape.units : CalendarShape → List CalendarUnit
  | .dateTime => CalendarUnit.all
  | .date =>
    [.day, .week, .month, .quarter, .year, .dayOfWeek, .dayOfMonth,
      .dayOfYear, .weekOfYear, .monthOfYear, .quarterOfYear]
  | .time => [.minute, .hour, .minuteOfHour, .hourOfDay]

def CalendarUnit.validFor (unit : CalendarUnit)
    (shape : CalendarShape) : Bool :=
  shape.units.contains unit

end TableQuery
