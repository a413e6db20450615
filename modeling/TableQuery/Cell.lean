import TableQuery.Calendar.Timestamp
import TableQuery.Decimal.Basic
import TableQuery.Json.Basic

/-!
# Cells

The values of tables and results.  Cells are sorted with nulls first, then truth
values, numbers, and text; temporal cells are text in calendar order.
-/

namespace TableQuery

inductive Cell where
  | null
  | boolean (value : Bool)
  | number (value : Decimal)
  | string (value : String)
  | temporal (value : String)
deriving DecidableEq, Repr

namespace Cell

instance : Inhabited Cell := ⟨null⟩

def isNull : Cell → Bool
  | null => true
  | _ => false

def decimal? : Cell → Option Decimal
  | number value => some value
  | _ => none

def ofCount (n : Nat) : Cell := number (.ofNat n)

def same : Cell → Cell → Bool
  | number a, number b => a.sameValue b
  | a, b => a == b

def toText : Cell → String
  | null => "null"
  | boolean true => "true"
  | boolean false => "false"
  | number value => value.normalize.render
  | string value => value
  | temporal value => value

def toJson : Cell → Json
  | null => .null
  | boolean value => .bool value
  | number value => .string value.render
  | string value => .string value
  | temporal value => .string value

/-! ## Order -/

def compareText (a b : String) : Ordering :=
  if a < b then .lt else if a = b then .eq else .gt

/-- Compares two cells whose kinds go together; temporal cells go with
strings. -/
def compare? : Cell → Cell → Option Ordering
  | boolean a, boolean b => some (Ord.compare a b)
  | number a, number b => some (a.compare b)
  | string a, string b | string a, temporal b
  | temporal a, string b | temporal a, temporal b =>
    some (compareText a b)
  | _, _ => none

def rank : Cell → Nat
  | null => 0
  | boolean _ => 1
  | number _ => 2
  | string _ => 3
  | temporal _ => 3

def compare (a b : Cell) : Ordering :=
  match a.compare? b with
  | some order => order
  | none => Ord.compare a.rank b.rank

/-! ## Dates and counts -/

def ofDate (date : CivilDate) : Cell :=
  temporal (Timestamp.render ⟨some date, none⟩)

def ofInt (n : Int) : Cell :=
  number { Decimal.ofNat n.natAbs with negative := n < 0 }

end Cell

end TableQuery
