import TableQuery.Query.Basic
import TableQuery.Wire.Expression

/-!
# The stored form of clauses

Each clause is stored as a tagged array.  A sort on a breakout is stored as the
breakout itself, and found again by comparing it with the breakouts of the
stage.
-/

namespace TableQuery.Wire

/-! ## Aggregations -/

def aggregationOptions (a : Aggregation) : Json.Members :=
  let named : Json.Members :=
    match a.name with
    | some name => [("display-name", .string name)]
    | none => []
  a.options.foldl
    (fun members (key, value) => Json.Members.insert members key value) named

def aggregationToJson (a : Aggregation) : Json :=
  let stored := expressionToJson a.expression
  if a.name.isNone && a.options.isEmpty then stored
  else taggedArray "aggregation-options"
    [stored, .object (aggregationOptions a)]

/-- Takes the name out of the options.  A lone `name` is read as the display
name. -/
def splitName (path : String) (options : Json.Members) :
    Except WireError (Option String × Json.Members) :=
  match Json.Members.get? options "display-name" with
  | some (.string name) =>
    .ok (some name, Json.Members.remove options "display-name")
  | some other =>
    .error (.malformed path ("display-name must be a string, not " ++
      other.compact))
  | none =>
    match Json.Members.get? options "name" with
    | some (.string name) => .ok (some name, Json.Members.remove options "name")
    | some other =>
      .ok (none, Json.Members.insert (Json.Members.remove options "name")
        "name" other)
    | none => .ok (none, options)

def aggregationOfJson (path : String) (j : Json) :
    Except WireError Aggregation :=
  match tagged? j with
  | some ("aggregation-options", args) =>
    match args with
    | [expression, .object options] => do
      let (name, options) ← splitName path options
      return ⟨← expressionOfJson path expression, name, options⟩
    | [_, _] => .error (.malformed path "aggregation options must be an object")
    | _ =>
      .error (.malformed path
        "aggregation-options takes an expression and options")
  | some ("named", args) =>
    match args with
    | [expression, name] => do
      return ⟨← expressionOfJson path expression, name.string?, []⟩
    | _ => .error (.malformed path "named takes an expression and a name")
  | _ => do return ⟨← expressionOfJson path j, none, []⟩

/-! ## Breakouts -/

def breakoutToJson (b : Breakout) : Json :=
  let column := identifierToJson b.column
  match b.unit with
  | some unit => taggedArray "datetime-field" [column, .string unit.name]
  | none => column

def breakoutOfJson (path : String) (j : Json) : Except WireError Breakout :=
  match tagged? j with
  | some ("datetime-field", [column, unit]) =>
    match unit.string?.bind CalendarUnit.ofName? with
    | some unit => do return ⟨← identifier path column, some unit⟩
    | none =>
      .error (.malformed path ("unknown temporal unit " ++ unit.compact))
  | _ => do return ⟨← identifier path j, none⟩

/-! ## Sorts -/

def orderByToJson (breakouts : List Breakout) (index : Nat) (o : OrderBy) :
    Except WireError Json := do
  let target ← match o.target with
    | .aggregation i => pure (taggedArray "aggregation" [.ofNat i])
    | .breakout i =>
      match breakouts[i]? with
      | some b => pure (breakoutToJson b)
      | none => throw (.danglingOrderBy index)
    | .column id => pure (identifierToJson id)
  return taggedArray o.direction.name [target]

def orderTargetOfJson (breakouts : List Breakout) (path : String) (j : Json) :
    Except WireError OrderTarget :=
  match tagged? j with
  | some ("aggregation", [index]) =>
    match index.nat64? with
    | some index => .ok (.aggregation index)
    | none => .error (.malformed path "aggregation index must be an integer")
  | _ => do
    let b ← breakoutOfJson path j
    match breakouts.findIdx? (· == b), b.unit with
    | some i, _ => return .breakout i
    | none, none => return .column b.column
    | none, some _ =>
      throw (.malformed path "bucketed sort does not match any breakout")

def orderByOfJson (breakouts : List Breakout) (path : String) (j : Json) :
    Except WireError OrderBy :=
  match tagged? j with
  | some (tag, [target]) =>
    match tag with
    | "asc" => do return ⟨.asc, ← orderTargetOfJson breakouts path target⟩
    | "desc" => do return ⟨.desc, ← orderTargetOfJson breakouts path target⟩
    | _ => .error (.malformed path ("unknown direction '" ++ tag ++ "'"))
  | _ => .error (.malformed path "expected [direction, reference]")

/-! ## Filters -/

def conjuncts : Expression → List Expression
  | .binary .and left right => conjuncts left ++ conjuncts right
  | e => [e]

end TableQuery.Wire
