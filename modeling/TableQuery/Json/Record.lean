import TableQuery.Json.Basic

/-!
# Records stored as JSON

A record with known fields is stored as an object, or as an array with the
fields in order.  Members that the record does not know are ignored, but a field
that it knows may stand only once.
-/

namespace TableQuery.Json

def fieldOnce? (members : Members) (name : String) : Option (Option Json) :=
  match members.filter (·.1 == name) with
  | [] => some none
  | [(_, value)] => some (some value)
  | _ => none

def fields? (names : List String) : Json → Option (List (Option Json))
  | object members => names.mapM (fieldOnce? members)
  | array items =>
    if items.length ≤ names.length then
      some (items.map some ++ List.replicate (names.length - items.length) none)
    else none
  | _ => none

def required? {α : Type} (read? : Json → Option α) (field : Option Json) :
    Option α :=
  field.bind read?

def defaulted? {α : Type} (read? : Json → Option α) (value : α) :
    Option Json → Option α
  | none => some value
  | some j => read? j

def optional? {α : Type} (read? : Json → Option α) :
    Option Json → Option (Option α)
  | none | some null => some none
  | some j => (read? j).map some

def list? {α : Type} (read? : Json → Option α) (j : Json) : Option (List α) :=
  j.array?.bind (·.mapM read?)

end TableQuery.Json
