import TableQuery.Word

/-!
# JSON values

Numbers keep the text they are written as, and objects keep their members in
order.  Two values are the same when they differ at most in the order of members
(`Json.same`).
-/

namespace TableQuery

inductive Json where
  | null
  | bool (value : Bool)
  | number (text : String)
  | string (value : String)
  | array (items : List Json)
  | object (members : List (String × Json))
deriving Repr

namespace Json

instance : Inhabited Json := ⟨null⟩

/-! ## Views -/

def string? : Json → Option String
  | string value => some value
  | _ => none

def array? : Json → Option (List Json)
  | array items => some items
  | _ => none

def digits64? (text : String) : Option Nat :=
  let cs := text.toList
  if !cs.isEmpty && cs.all Char.isDigit then
    let n := cs.foldl (fun n c => 10 * n + (c.toNat - '0'.toNat)) 0
    if n < Word.size64 then some n else none
  else none

def nat64? : Json → Option Nat
  | number text => digits64? text
  | _ => none

def isNull : Json → Bool
  | null => true
  | _ => false

def ofNat (n : Nat) : Json := number (toString n)

/-! ## Members of objects -/

abbrev Members := List (String × Json)

namespace Members

def get? (members : Members) (key : String) : Option Json :=
  List.lookup key members

def keys (members : Members) : List String := members.map Prod.fst

/-- Gives a key a value: a key that is there keeps its place, and a new one goes
last. -/
def insert : Members → String → Json → Members
  | [], key, value => [(key, value)]
  | (k, v) :: rest, key, value =>
    if k = key then (k, value) :: rest else (k, v) :: insert rest key value

/-- Removes a key; the last member moves into its place. -/
def remove (members : Members) (key : String) : Members :=
  match members.findIdx? (·.1 = key) with
  | none => members
  | some i =>
    match members.getLast? with
    | none => members
    | some last =>
      if i + 1 = members.length then members.dropLast
      else members.dropLast.set i last

end Members

def get? : Json → String → Option Json
  | object members, key => Members.get? members key
  | _, _ => none

/-! ## Sameness -/

mutual

def same : Json → Json → Bool
  | null, null => true
  | bool a, bool b => a == b
  | number a, number b => a == b
  | string a, string b => a == b
  | array as, array bs => sameItems as bs
  | object as, object bs => as.length == bs.length && sameMembers as bs
  | _, _ => false

def sameItems : List Json → List Json → Bool
  | [], [] => true
  | a :: as, b :: bs => same a b && sameItems as bs
  | _, _ => false

def sameMembers : List (String × Json) → List (String × Json) → Bool
  | [], _ => true
  | (key, a) :: as, bs =>
    (match Members.get? bs key with
      | some b => same a b
      | none => false) && sameMembers as bs

end

end Json

end TableQuery
