import TableQuery.Toml.Scalar
import TableQuery.Toml.Table

/-!
# Reading TOML

Reads a document into the JSON value that it describes.
-/

namespace TableQuery.Toml

/-! ## Arrays and tables in one piece -/

abbrev ValueReader := List Char → Option (Json × List Char)

def items? (value? : ValueReader) :
    (fuel : Nat) → List Char → Option (List Json × List Char)
  | 0, _ => none
  | fuel + 1, cs =>
    match skipSpace cs with
    | ']' :: rest => some ([], rest)
    | cs => do
      let (item, rest) ← value? cs
      match skipSpace rest with
      | ',' :: rest => do
        let (items, rest) ← items? value? fuel rest
        return (item :: items, rest)
      | ']' :: rest => return ([item], rest)
      | _ => none

def keyValue? (value? : ValueReader) (cs : List Char) :
    Option ((List String × String × Json) × List Char) := do
  let (path, rest) ← path? cs
  let key ← path.getLast?
  let (v, rest) ← value? (skipBlanks (← after? '=' rest))
  return ((path.dropLast, key, v), rest)

/-- The statements of a table in one piece after its opening brace, `fuel` at
most. -/
def statements? (value? : ValueReader) :
    (fuel : Nat) → Table → List Char → Option (Table × List Char)
  | 0, _, _ => none
  | fuel + 1, t, cs =>
    match skipSpace cs with
    | '}' :: rest => some (t, rest)
    | cs => do
      let ((path, key, v), rest) ← keyValue? value? cs
      let t ← t.assign path key v
      match skipSpace rest with
      | ',' :: rest => statements? value? fuel t rest
      | '}' :: rest => return (t, rest)
      | _ => none

def depthLimit : Nat := 80

def value? : (levels : Nat) → ValueReader
  | 0, cs =>
    match cs with
    | '[' :: _ | '{' :: _ => none
    | cs => scalar? cs
  | levels + 1, cs =>
    match cs with
    | '[' :: rest => do
      let (items, rest) ← items? (value? levels) (rest.length + 1) rest
      return (.array items, rest)
    | '{' :: rest => do
      let (t, rest) ← statements? (value? levels) (rest.length + 1) .empty rest
      return (t.toJson, rest)
    | cs => scalar? cs

/-! ## Documents -/

structure Reading where
  root : Table
  header : List String

def header? (reading : Reading) : List Char → Option (Reading × List Char)
  | '[' :: '[' :: cs => do
    let (path, rest) ← path? cs
    let root ← reading.root.appendTable path.dropLast (← path.getLast?)
    return (⟨root, path⟩, ← after? ']' (← after? ']' rest))
  | '[' :: cs => do
    let (path, rest) ← path? cs
    let root ← reading.root.openTable path.dropLast (← path.getLast?)
    return (⟨root, path⟩, ← after? ']' rest)
  | _ => none

def line? (reading : Reading) (cs : List Char) : Option (Reading × List Char) :=
  if cs.head? == some '[' then header? reading cs
  else do
    let ((path, key, v), rest) ← keyValue? (value? depthLimit) cs
    let root ←
      reading.root.modify false (Table.assign path key v) reading.header
    return (⟨root, reading.header⟩, rest)

def lineEnd? (cs : List Char) : Option (List Char) :=
  match skipComment cs with
  | [] => some []
  | cs => newline? cs

def lines? : (fuel : Nat) → Reading → List Char → Option Reading
  | 0, _, _ => none
  | fuel + 1, reading, cs =>
    match skipSpace cs with
    | [] => some reading
    | cs => do
      let (reading, rest) ← line? reading cs
      lines? fuel reading (← lineEnd? rest)

def withoutMark : List Char → List Char
  | '\uFEFF' :: cs => cs
  | cs => cs

def parse? (text : String) : Option Json :=
  let cs := withoutMark text.toList
  (lines? (cs.length + 1) ⟨.empty, []⟩ cs).map (·.root.toJson)

end TableQuery.Toml
