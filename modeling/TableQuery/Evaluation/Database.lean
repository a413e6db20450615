import TableQuery.Evaluation.Error

/-!
# Databases

Rows of tables beside the catalog that describes them, and rows on their way
through a stage.
-/

namespace TableQuery

/-! ## Tables -/

abbrev Record := List (FieldId × Cell)

structure TableData where
  primaryKey : Option FieldId
  rows : List Record
deriving Repr

structure Database where
  catalog : Catalog
  tables : List (TableId × TableData)
deriving Repr

namespace Database

def table? (db : Database) (id : TableId) : Option TableData :=
  db.tables.lookup id

def insert (db : Database) (id : TableId) (data : TableData) : Database :=
  { db with tables := (id, data) :: db.tables }

end Database

/-! ## Rows in a stage -/

structure Row where
  fields : Record
  /-- Custom columns and columns of an earlier stage by name, the last one given
  first. -/
  columns : List (String × Cell)
deriving Repr

namespace Row

def ofRecord (fields : Record) : Row := ⟨fields, []⟩

def ofCells (names : List String) (cells : List Cell) : Row :=
  ⟨[], (names.zip cells).reverse⟩

def insert (row : Row) (name : String) (cell : Cell) : Row :=
  { row with columns := (name, cell) :: row.columns }

def field (row : Row) (id : FieldId) : Cell := (row.fields.lookup id).getD .null

def column (row : Row) (name : String) : Cell :=
  (row.columns.lookup name).getD .null

end Row

namespace Database

/-- A field of the row that a foreign key leads to; null if it leads nowhere. -/
def follow (db : Database) (key : FieldId) (value : Cell) (id : FieldId) :
    Except EvaluationError Cell :=
  if value.isNull then .ok .null
  else
    match (db.catalog.field? key).bind (·.target) with
    | none => .error (.unsupported (.notForeignKey key))
    | some target =>
      match db.table? target with
      | none => .error (.missingTable target)
      | some data =>
        match data.primaryKey with
        | none => .error (.unsupported (.noPrimaryKey target))
        | some primary =>
          match data.rows.find? fun r =>
            (r.lookup primary).any (·.same value) with
          | some r => .ok ((r.lookup id).getD .null)
          | none => .ok .null

def value (db : Database) (row : Row) : Identifier → Except EvaluationError Cell
  | .field id => .ok (row.field id)
  | .foreign key id => db.follow key (row.field key) id
  | .customColumn name => .ok (row.column name)
  | .stageColumn name _ => .ok (row.column name)
  | .aggregation index => .error (.unsupported (.aggregationOfRow index))

end Database

end TableQuery
