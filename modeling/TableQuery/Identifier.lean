import TableQuery.Kind

/-!
# Identifiers

The columns that a clause can read, each told apart by what it is and not by its
name alone.
-/

namespace TableQuery

abbrev FieldId := Nat

abbrev TableId := Nat

inductive Identifier where
  | field (id : FieldId)
  | foreign (key field : FieldId)
  | customColumn (name : String)
  | stageColumn (name : String) (kind : ValueKind)
  | aggregation (index : Nat)
deriving DecidableEq, Repr

namespace Identifier

def aggregationIndex? : Identifier → Option Nat
  | aggregation index => some index
  | _ => none

def customColumn? : Identifier → Option String
  | customColumn name => some name
  | _ => none

end Identifier

end TableQuery
