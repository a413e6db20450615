import TableQuery.Json.Basic

/-!
# TOML tables

How the statements of a document build up its tables.  A table may be named by a
header, come about on the way to another one, or be written by keys with points;
what has been finished cannot be extended later on.
-/

namespace TableQuery.Toml

inductive Origin where
  | header
  | implicit
  | dotted
deriving DecidableEq, Repr

inductive Node where
  | value (v : Json)
  | table (origin : Origin) (members : List (String × Node))
  | tables (last : List (String × Node)) (before : List (List (String × Node)))
deriving Repr

namespace Node

instance : Inhabited Node := ⟨value .null⟩

mutual

def toJson : Node → Json
  | value v => v
  | table _ members => .object (membersToJson members)
  | tables last before =>
    .array (tablesToJson [.object (membersToJson last)] before)

def membersToJson : List (String × Node) → List (String × Json)
  | [] => []
  | (key, node) :: rest => (key, node.toJson) :: membersToJson rest

def tablesToJson (after : List Json) : List (List (String × Node)) → List Json
  | [] => after
  | members :: before =>
    tablesToJson (.object (membersToJson members) :: after) before

end

end Node

/-! ## Changing a table -/

structure Table where
  origin : Origin
  members : List (String × Node)

namespace Table

def empty : Table := ⟨.header, []⟩

def get? (t : Table) (key : String) : Option Node := t.members.lookup key

def set (t : Table) (key : String) (node : Node) : Table :=
  if t.members.any (·.1 == key) then
    { t with
      members := t.members.map fun (k, n) =>
        if k == key then (k, node) else (k, n) }
  else { t with members := t.members ++ [(key, node)] }

/-- Changes the table that a path of keys leads to.  Tables on the way are
created as needed, and of tables that share a header the last one is meant.
Keys with points do not lead into a table that has a header of its own. -/
def modify (dotted : Bool) (change : Table → Option Table) :
    List String → Table → Option Table
  | [], t => change t
  | key :: path, t =>
    match t.get? key with
    | none => do
      let inner ← modify dotted change path ⟨if dotted then .dotted else
        .implicit, []⟩
      return t.set key (.table inner.origin inner.members)
    | some (.value _) => none
    | some (.table origin members) =>
      if dotted && origin == .header then none
      else do
        let inner ← modify dotted change path ⟨origin, members⟩
        return t.set key (.table inner.origin inner.members)
    | some (.tables last before) => do
      let inner ← modify dotted change path ⟨.header, last⟩
      return t.set key (.tables inner.members before)

def define (key : String) (v : Json) (t : Table) : Option Table :=
  if (t.get? key).isSome then none else some (t.set key (.value v))

def assign (path : List String) (key : String) (v : Json) (t : Table) :
    Option Table :=
  t.modify true
    (fun inner => if (inner.origin == .dotted) == path.isEmpty then none else
      inner.define key v)
    path

/-- Applies a header `[path.key]`: it names a table that no header and no key
has named yet. -/
def openTable (path : List String) (key : String) (t : Table) : Option Table :=
  t.modify false
    (fun inner =>
      match inner.get? key with
      | none => some (inner.set key (.table .header []))
      | some (.table .implicit members) =>
      some (inner.set key (.table .header members))
      | _ => none)
    path

/-- Applies a header `[[path.key]]`: it starts one more of the tables that share
it. -/
def appendTable (path : List String) (key : String) (t : Table) :
    Option Table :=
  t.modify false
    (fun inner =>
      match inner.get? key with
      | none => some (inner.set key (.tables [] []))
      | some (.tables last before) =>
      some (inner.set key (.tables [] (last :: before)))
      | _ => none)
    path

def toJson (t : Table) : Json := (Node.table t.origin t.members).toJson

end Table

end TableQuery.Toml
