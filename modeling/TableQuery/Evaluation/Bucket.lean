import TableQuery.Calendar.Unit
import TableQuery.Evaluation.Error

/-!
# Buckets

Cells grouped by calendar units.  A unit that needs a date or a time that is
missing makes nothing of a timestamp.  Weeks and the positions of days come from
a count of days, which gives up when it leaves its words.
-/

namespace TableQuery

namespace Cell

def countedDate : Option CivilDate → Except Abort Cell
  | some date => .ok (ofDate date)
  | none => .error .dayCount

def countedNumber : Word64 → Except Abort Cell
  | .of n => .ok (ofInt n)
  | .overflow => .error .dayCount

def truncate? (t : Timestamp) : CalendarUnit → Option (Except Abort Cell)
  | .minute => t.time.map fun c =>
    .ok (temporal (Timestamp.render ⟨t.date, some ⟨c.hour, c.minute, 0⟩⟩))
  | .hour => t.time.map fun c =>
    .ok (temporal (Timestamp.render ⟨t.date, some ⟨c.hour, 0, 0⟩⟩))
  | .day => t.date.map fun d => .ok (ofDate d)
  | .week => t.date.map fun d =>
    let n := d.dayNumber64
    countedDate (CivilDate.ofDayNumber64? (n - weekday64 n))
  | .month => t.date.map fun d => .ok (ofDate ⟨d.year, d.month, 1⟩)
  | .quarter => t.date.map fun d =>
    .ok (ofDate ⟨d.year, (d.month - 1) / 3 * 3 + 1, 1⟩)
  | .year => t.date.map fun d => .ok (ofDate ⟨d.year, 1, 1⟩)
  | .minuteOfHour => t.time.map fun c => .ok (ofCount c.minute)
  | .hourOfDay => t.time.map fun c => .ok (ofCount c.hour)
  | .dayOfWeek => t.date.map fun d =>
    countedNumber (weekday64 d.dayNumber64 + 1)
  | .dayOfMonth => t.date.map fun d => .ok (ofCount d.day)
  | .dayOfYear => t.date.map fun d =>
    countedNumber (d.dayNumber64 - CivilDate.dayNumber64 ⟨d.year, 1, 1⟩ + 1)
  | .weekOfYear => t.date.map fun d =>
    let newYear := CivilDate.dayNumber64 ⟨d.year, 1, 1⟩
    countedNumber ((d.dayNumber64 - newYear + weekday64 newYear).div 7 + 1)
  | .monthOfYear => t.date.map fun d => .ok (ofCount d.month)
  | .quarterOfYear => t.date.map fun d =>
    .ok (ofCount ((d.month - 1) / 3 + 1))

/-- Groups a cell by a calendar unit.  Cells that cannot be read, or lack what
the unit needs, are grouped as null. -/
def bucket (unit : CalendarUnit) : Cell → Except Abort Cell
  | string s | temporal s =>
    ((Timestamp.parse? s).bind (truncate? · unit)).getD (.ok null)
  | _ => .ok null

end Cell

end TableQuery
