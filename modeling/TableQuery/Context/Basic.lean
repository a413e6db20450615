import TableQuery.Catalog
import TableQuery.Query.Basic

/-!
# Contexts

The columns that a clause can see, with the names by which formulas refer to
them.
-/

namespace TableQuery

structure Entry where
  name : String
  path : List String
  identifier : Identifier
  kind : ValueKind
deriving DecidableEq, Repr

namespace Entry

def pathSeparator : String := " → "

/-- The name with all segments of its path. -/
def qualifiedName (e : Entry) : String :=
  pathSeparator.intercalate (e.path ++ [e.name])

def label (e : Entry) : String :=
  match e.identifier with
  | .foreign _ _ => e.qualifiedName
  | _ => e.name

end Entry

structure Context where
  entries : List Entry
deriving DecidableEq, Repr

namespace Context

/-- Whether an entry stands for a column; columns of an earlier stage go by
their names alone. -/
def isEntryOf (id : Identifier) (e : Entry) : Bool :=
  match id, e.identifier with
  | .stageColumn a _, .stageColumn b _ => a == b
  | a, b => a == b

def lookup (ctx : Context) (id : Identifier) : Option Entry :=
  ctx.entries.find? (isEntryOf id)

/-- Whether the segments name the entry: the last is its name, and its path ends
with the others. -/
def isNamedBy (segments : List String) (e : Entry) : Bool :=
  match segments.getLast? with
  | none => false
  | some last => e.name == last && segments.dropLast.isSuffixOf e.path

def candidates (ctx : Context) (segments : List String) : List Entry :=
  ctx.entries.filter (isNamedBy segments)

def push (ctx : Context) (e : Entry) : Context := ⟨ctx.entries ++ [e]⟩

end Context

end TableQuery
