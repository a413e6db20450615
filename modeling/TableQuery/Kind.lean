import TableQuery.Calendar.Unit

/-!
# Value kinds

The kind of value that a column holds or an expression produces, and the tags by
which catalogs and stored queries name kinds.
-/

namespace TableQuery

inductive ValueKind where
  | numeric
  | text
  | boolean
  | temporal (shape : CalendarShape)
  | unknown
deriving DecidableEq, Repr

namespace ValueKind

def baseType : ValueKind → String
  | numeric => "type/Float"
  | text => "type/Text"
  | boolean => "type/Boolean"
  | temporal .date => "type/Date"
  | temporal .dateTime => "type/DateTime"
  | temporal .time => "type/Time"
  | unknown => "type/*"

/-- Several tags of the numeric and the date-time family name one kind. -/
def ofBaseType? : String → Option ValueKind
  | "type/Float" | "type/Integer" | "type/BigInteger" | "type/Decimal"
  | "type/Number" => some numeric
  | "type/Text" => some text
  | "type/Boolean" => some boolean
  | "type/Date" => some (temporal .date)
  | "type/DateTime" | "type/DateTimeWithTZ" | "type/DateTimeWithLocalTZ" =>
    some (temporal .dateTime)
  | "type/Time" => some (temporal .time)
  | "type/*" => some unknown
  | _ => none

def shape? : ValueKind → Option CalendarShape
  | temporal shape => some shape
  | _ => none

def isTemporal (kind : ValueKind) : Bool := kind.shape?.isSome

def units (kind : ValueKind) : List CalendarUnit :=
  match kind.shape? with
  | some shape => shape.units
  | none => []

/-- Equal kinds compare, unknown ones with anything, and temporal values with
text. -/
def comparableWith : ValueKind → ValueKind → Bool
  | unknown, _ | _, unknown => true
  | temporal _, text | text, temporal _ => true
  | a, b => a == b

def describe : ValueKind → String
  | numeric => "a number"
  | text => "a string"
  | boolean => "a boolean"
  | temporal .date => "a date"
  | temporal .dateTime => "a date-time"
  | temporal .time => "a time"
  | unknown => "an unknown value"

end ValueKind

end TableQuery
