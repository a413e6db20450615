import TableQuery.Files
import TableQuery.Identifier
import TableQuery.Json.Record
import TableQuery.Json.Reader
import TableQuery.Text.TitleCase
import TableQuery.Toml.Reader

/-!
# Catalogs

The tables that queries can read, with the kinds of their fields and the foreign
keys between them.  Ids are looked up from front to back, so of two tables with
one id the first counts.
-/

namespace TableQuery

/-! ## Fields and tables -/

structure FieldInfo where
  id : FieldId
  name : String
  column : Option String := none
  kind : ValueKind
  target : Option TableId := none
deriving DecidableEq, Repr

namespace FieldInfo

def ofColumn (id : FieldId) (column : String) (kind : ValueKind) : FieldInfo :=
  { id, name := Text.humanize column, column := some column, kind }

/-- The first segment of the names of fields reached through this foreign key:
its name without a final ` ID`. -/
def hopName (f : FieldInfo) : String :=
  let name := f.name.toList
  let ending := " ID".toList
  if ending.isSuffixOf name then
    String.ofList (name.take (name.length - ending.length))
  else f.name

end FieldInfo

structure TableInfo where
  id : TableId
  name : String
  fields : List FieldInfo
deriving DecidableEq, Repr

structure Catalog where
  tables : List TableInfo
deriving DecidableEq, Repr

inductive CatalogError where
  | unknownTable (id : TableId)
  | unreadable (e : FileError)
  | json
  | toml
deriving DecidableEq, Repr

def CatalogError.message : CatalogError → String
  | unknownTable id => "unknown table " ++ toString id
  | unreadable e => "failed to read catalog: " ++ e.message
  | json => "failed to parse catalog JSON"
  | toml => "failed to parse catalog TOML"

namespace Catalog

instance : Inhabited Catalog := ⟨⟨[]⟩⟩

/-! ## Look-up -/

def table? (c : Catalog) (id : TableId) : Option TableInfo :=
  c.tables.find? (·.id == id)

def fields? (c : Catalog) (id : TableId) : Option (List FieldInfo) :=
  (c.table? id).map (·.fields)

def field? (c : Catalog) (id : FieldId) : Option FieldInfo :=
  ((c.tables.filterMap fun t => c.fields? t.id).flatten).find? (·.id == id)

def units (c : Catalog) (id : FieldId) : List CalendarUnit :=
  match c.field? id with
  | some f => f.kind.units
  | none => []

/-! ## Stored form -/

def fieldToJson (f : FieldInfo) : Json :=
  .object ([("id", .ofNat f.id), ("name", .string f.name)] ++
    (match f.column with
      | some column => [("column", .string column)]
      | none => []) ++
    [("base-type", .string f.kind.baseType)] ++
    (match f.target with
      | some table => [("fk-target", .ofNat table)]
      | none => []))

def tableToJson (t : TableInfo) : Json :=
  .object [("id", .ofNat t.id), ("name", .string t.name),
    ("fields", .array (t.fields.map fieldToJson))]

def toJson (c : Catalog) : Json :=
  .object [("tables", .array (c.tables.map tableToJson))]

def fieldOfJson? (j : Json) : Option FieldInfo := do
  match ← Json.fields? ["id", "name", "column", "base-type", "fk-target"] j with
  | [id, name, column, kind, target] =>
    return {
      id := ← Json.required? Json.nat64? id
      name := ← Json.required? Json.string? name
      column := ← Json.optional? Json.string? column
      kind := ← Json.required? (·.string?.bind ValueKind.ofBaseType?) kind
      target := ← Json.optional? Json.nat64? target }
  | _ => none

def tableOfJson? (j : Json) : Option TableInfo := do
  match ← Json.fields? ["id", "name", "fields"] j with
  | [id, name, fields] =>
    return {
      id := ← Json.required? Json.nat64? id
      name := ← Json.required? Json.string? name
      fields := ← Json.defaulted? (Json.list? fieldOfJson?) [] fields }
  | _ => none

def ofJson? (j : Json) : Option Catalog := do
  match ← Json.fields? ["tables"] j with
  | [tables] => return ⟨← Json.defaulted? (Json.list? tableOfJson?) [] tables⟩
  | _ => none

def ofText (text : String) : Except CatalogError Catalog :=
  match (Json.parseRaw? Json.depthLimit text).bind ofJson? with
  | some c => .ok c
  | none => .error .json

def ofToml (text : String) : Except CatalogError Catalog :=
  match (Toml.parse? text).bind ofJson? with
  | some c => .ok c
  | none => .error .toml

/-- Reads a catalog from what a file holds, as TOML if its name says so and as
JSON otherwise. -/
def ofFile (path : String) :
    Except FileError String → Except CatalogError Catalog
  | .error e => .error (.unreadable e)
  | .ok text =>
    if extension? path = some "toml" then ofToml text
    else ofText text

end Catalog

end TableQuery
