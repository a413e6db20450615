import TableQuery.Json.Reader
import TableQuery.Wire.Clause

/-!
# The stored form of queries

A query is stored as an object with its source and a member for each kind of
clause that it has.  Members that mean nothing here are kept in order behind the
others.  Reading looks at the structure alone; whether a query makes sense for a
catalog is checked elsewhere.
-/

namespace TableQuery

namespace Json.Members

theorem sizeOf_lt_of_get? {members : Members} {key : String} {value : Json}
    (h : Members.get? members key = some value) :
    sizeOf value < sizeOf members := by
  induction members with
  | nil => simp [get?] at h
  | cons member rest ih =>
    obtain ⟨k, v⟩ := member
    simp only [get?, List.lookup_cons] at h ih
    split at h
    · cases h
      simp only [List.cons.sizeOf_spec, Prod.mk.sizeOf_spec]
      omega
    · have := ih h
      simp only [List.cons.sizeOf_spec]
      omega

end Json.Members

namespace Wire

def knownKeys : List String :=
  ["source-table", "source-query", "expressions", "filters", "filter",
    "aggregation", "breakout", "order-by", "limit"]

/-! ## Writing -/

/-- A member with a list, left out when the list is empty. -/
def listMember (key : String) (items : List Json) : Json.Members :=
  if items.isEmpty then [] else [(key, .array items)]

def expressionsMember (columns : List CustomColumn) : Json.Members :=
  if columns.isEmpty then []
  else
    let members := columns.foldl
      (fun members c => Json.Members.insert members c.name
        (expressionToJson c.expression)) []
    [("expressions", .object members)]

def orderByItems (breakouts : List Breakout) : (index : Nat) → List OrderBy →
    Except WireError (List Json)
  | _, [] => .ok []
  | index, o :: rest => do
    let item ← orderByToJson breakouts index o
    return item :: (← orderByItems breakouts (index + 1) rest)

def stageMembers (s : Stage) : Except WireError Json.Members := do
  let orderBy ← orderByItems s.breakouts 0 s.orderBy
  let limit : Json.Members := match s.limit with
    | some n => [("limit", .ofNat n)]
    | none => []
  return expressionsMember s.customColumns ++
    listMember "filters" (s.filters.map expressionToJson) ++
    listMember "aggregation" (s.aggregations.map aggregationToJson) ++
    listMember "breakout" (s.breakouts.map breakoutToJson) ++
    listMember "order-by" orderBy ++ limit

def queryObject (source : String × Json) (s : Stage) :
    Except WireError Json := do
  let members ← stageMembers s
  return .object
    (s.extra.foldl (fun ms (key, value) => Json.Members.insert ms key value)
    (source :: members))

def queryToJson : Query → Except WireError Json
  | .ofTable table stage => queryObject ("source-table", .ofNat table) stage
  | .ofQuery source stage => do
    queryObject ("source-query", ← queryToJson source) stage

/-! ## Reading -/

def arrayAt (path : String) (j : Json) : Except WireError (List Json) :=
  match j with
  | .array items => .ok items
  | _ => .error (.malformed path "expected an array")

def itemsOfJson {α : Type} (read : String → Json → Except WireError α)
    (path : String) :
    (index : Nat) → List Json → Except WireError (List α)
  | _, [] => .ok []
  | index, item :: items => do
    let first ← read (path ++ "[" ++ toString index ++ "]") item
    return first :: (← itemsOfJson read path (index + 1) items)

def listOfMember {α : Type} (read : String → Json → Except WireError α)
    (key : String) (members : Json.Members) : Except WireError (List α) :=
  match Json.Members.get? members key with
  | none => .ok []
  | some j => do itemsOfJson read key 0 (← arrayAt key j)

def columnsOfMembers : Json.Members → Except WireError (List CustomColumn)
  | [] => .ok []
  | (name, j) :: rest => do
    let expression ← expressionOfJson ("expressions." ++ name) j
    return ⟨name, expression⟩ :: (← columnsOfMembers rest)

def customColumnsOfMember (members : Json.Members) :
    Except WireError (List CustomColumn) :=
  match Json.Members.get? members "expressions" with
  | none => .ok []
  | some (.object columns) => columnsOfMembers columns
  | some _ => .error (.malformed "expressions" "expected an object")

/-- The filters; an older form holds all of them in one conjunction. -/
def filtersOfMember (members : Json.Members) :
    Except WireError (List Expression) :=
  match Json.Members.get? members "filters" with
  | some _ => listOfMember expressionOfJson "filters" members
  | none =>
    match Json.Members.get? members "filter" with
    | none => .ok []
    | some j => do return conjuncts (← expressionOfJson "filter" j)

def limitOfMember (members : Json.Members) : Except WireError (Option Nat) :=
  match Json.Members.get? members "limit" with
  | none => .ok none
  | some j =>
    match j.nat64? with
    | some n => .ok (some n)
    | none => .error (.malformed "limit" "expected a non-negative integer")

def stageOfMembers (members : Json.Members) : Except WireError Stage := do
  let customColumns ← customColumnsOfMember members
  let filters ← filtersOfMember members
  let aggregations ← listOfMember aggregationOfJson "aggregation" members
  let breakouts ← listOfMember breakoutOfJson "breakout" members
  let orderBy ← listOfMember (orderByOfJson breakouts) "order-by" members
  let limit ← limitOfMember members
  let extra := members.filter fun (key, _) => !knownKeys.contains key
  return {
    customColumns, filters, aggregations, breakouts, orderBy, limit, extra }

def queryOfJson : Json → Except WireError Query
  | .object members =>
    match Json.Members.get? members "source-table" with
    | some id =>
      match id.nat64? with
      | some table => do return .ofTable table (← stageOfMembers members)
      | none => .error (.malformed "source-table" "expected a table id")
    | none =>
      match _h : Json.Members.get? members "source-query" with
      | some inner => do
        let source ← queryOfJson inner
        return .ofQuery source (← stageOfMembers members)
      | none => .error .missingSource
  | _ => .error (.malformed "query" "expected an object")
termination_by j => sizeOf j
decreasing_by
  have := Json.Members.sizeOf_lt_of_get? _h
  simp only [Json.object.sizeOf_spec]
  omega

/-! ## Text -/

def queryToText (q : Query) : Except WireError String := do
  return (← queryToJson q).pretty

def queryOfText (text : String) : Except WireError Query :=
  match Json.parse? text with
  | some j => queryOfJson j
  | none => .error .json

end Wire

end TableQuery
