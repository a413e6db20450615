import TableQuery.Context.Columns
import TableQuery.Evaluation.Bucket
import TableQuery.Evaluation.Expression

/-!
# Running queries

A stage computes its custom columns for each row, keeps the rows that pass all
filters, and then either passes them on or groups and aggregates them; the
result is sorted and cut to the limit.  Groups come in the order of their keys.
Cumulative aggregations add up over the groups in that order, before the result
is sorted.
-/

namespace TableQuery

/-! ## Results -/

structure ResultSet where
  columns : List (String × ValueKind)
  rows : List (List Cell)
deriving DecidableEq, Repr

namespace ResultSet

def ofEntries (entries : List Entry) (rows : List (List Cell)) : ResultSet :=
  ⟨entries.map fun e => (e.name, e.kind), rows⟩

def columnIndex? (r : ResultSet) (name : String) : Option Nat :=
  r.columns.findIdx? (·.1 == name)

def column? (r : ResultSet) (name : String) : Option (List Cell) :=
  (r.columnIndex? name).map fun i => r.rows.filterMap (·[i]?)

def toJson (r : ResultSet) : Json :=
  .object [
    ("columns", .array (r.columns.map fun (name, kind) =>
      .object [("name", .string name), ("base-type", .string kind.baseType)])),
    ("rows", .array (r.rows.map fun row => .array (row.map Cell.toJson)))]

end ResultSet

/-! ## Order -/

def Direction.compare (d : Direction) (a b : Cell) : Ordering :=
  match d with
  | .asc => a.compare b
  | .desc => (a.compare b).swap

def compareKeys : List Direction → List Cell → List Cell → Ordering
  | d :: ds, a :: as, b :: bs => (d.compare a b).then (compareKeys ds as bs)
  | _, _, _ => .eq

def sortByKey {α : Type} (directions : List Direction) (key : α → List Cell)
    (items : List α) : List α :=
  items.mergeSort fun a b => (compareKeys directions (key a) (key b)).isLE

namespace Database

/-! ## Rows that pass -/

def pushColumns (db : Database) :
    List CustomColumn → Row → Except EvaluationError Row
  | [], row => .ok row
  | c :: rest, row => do
    let cell ← db.evalRow row c.expression
    pushColumns db rest (row.insert c.name cell)

def passes (db : Database) : List Expression → Row → Except EvaluationError Bool
  | [], _ => .ok true
  | f :: rest, row => do
    if ← db.accepts f row then passes db rest row else return false

def prepare (db : Database) (s : Stage) :
    List Row → Except EvaluationError (List Row)
  | [] => .ok []
  | row :: rows => do
    let row ← db.pushColumns s.customColumns row
    let kept ← db.passes s.filters row
    let rest ← prepare db s rows
    return if kept then row :: rest else rest

/-! ## Rows as they are -/

def orderKey (db : Database) (orders : List OrderBy) (row : Row) :
    Except EvaluationError (List Cell) :=
  orders.mapM fun o =>
    match o.target with
    | .column id => db.value row id
    | target => .error (.unsupported (.orderOfRows target))

def sortRows (db : Database) (orders : List OrderBy) (rows : List Row) :
    Except EvaluationError (List Row) :=
  if orders.isEmpty then .ok rows
  else do
    let keyed ← rows.mapM fun row => do return (← db.orderKey orders row, row)
    return (sortByKey (orders.map (·.direction)) Prod.fst keyed).map Prod.snd

def project (db : Database) (columns : Except CatalogError (List Entry))
    (s : Stage) (rows : List Row) : Except EvaluationError ResultSet := do
  let rows ← db.sortRows s.orderBy rows
  let entries ← columns.mapError .catalog
  let cells ← rows.mapM fun row => entries.mapM fun e =>
    db.value row e.identifier
  return .ofEntries entries cells

/-! ## Groups -/

structure Group where
  key : List Cell
  rows : List Row

def sameKey (a b : List Cell) : Bool :=
  a.length == b.length && (a.zip b).all fun (x, y) => x.same y

def breakoutCell (db : Database) (row : Row) (b : Breakout) :
    Except EvaluationError Cell := do
  let cell ← db.value row b.column
  match b.unit with
  | some unit => (cell.bucket unit).mapError .aborted
  | none => return cell

def groupKey (db : Database) (breakouts : List Breakout) (row : Row) :
    Except EvaluationError (List Cell) :=
  breakouts.mapM (db.breakoutCell row)

def insertRow (key : List Cell) (row : Row) : List Group → List Group
  | [] => [⟨key, [row]⟩]
  | g :: groups =>
    if sameKey g.key key then { g with rows := g.rows ++ [row] } :: groups
    else g :: insertRow key row groups

def groupRows (db : Database) (breakouts : List Breakout) (rows : List Row) :
    Except EvaluationError (List Group) :=
  rows.foldlM (fun groups row => do
    return insertRow (← db.groupKey breakouts row) row groups) []

/-- The groups in the order of their keys.  Without breakouts there is one
group, even of no rows. -/
def groups (db : Database) (breakouts : List Breakout) (rows : List Row) :
    Except EvaluationError (List Group) := do
  let found ← db.groupRows breakouts rows
  let found := if breakouts.isEmpty && found.isEmpty then [⟨[], []⟩] else found
  return sortByKey (breakouts.map fun _ => .asc) Group.key found

def aggregations (db : Database) (rows : List Row) :
    (done : List Cell) → List Aggregation → Except EvaluationError (List Cell)
  | done, [] => .ok done
  | done, a :: rest => do
    aggregations db rows (done ++ [← db.evalGroup rows done a.expression]) rest

/-! ## Cumulative columns -/

/-- Replaces a column by its running total, in which nulls count as nothing. -/
def accumulate (column : Nat) : (total : Decimal) → List (List Cell) →
    Except EvaluationError (List (List Cell))
  | _, [] => .ok []
  | total, row :: rows =>
    match row[column]? with
    | none => .error (.aborted .missingColumn)
    | some cell => do
      let total ← match cell with
        | .number n => Computation.runningTotal.checked (total.add? n)
        | _ => pure total
      let rest ← accumulate column total rows
      return row.set column (.number total) :: rest

def isCumulative : Expression → Bool
  | .call .cumulativeCount _ | .call .cumulativeSum _ => true
  | _ => false

def accumulateAll : (column : Nat) → List Aggregation → List (List Cell) →
    Except EvaluationError (List (List Cell))
  | _, [], rows => .ok rows
  | column, a :: rest, rows => do
    let rows ←
      if isCumulative a.expression then accumulate column .zero rows
      else pure rows
    accumulateAll (column + 1) rest rows

/-! ## Sorting groups -/

def orderColumn (breakouts : List Breakout) (o : OrderBy) :
    Except EvaluationError Nat :=
  match o.target with
  | .breakout i => .ok i
  | .aggregation i => .ok (breakouts.length + i)
  | .column id =>
    match breakouts.findIdx? (·.column == id) with
    | some i => .ok i
    | none => .error (.unsupported (.orderOfGroups id))

def cellsAt (columns : List Nat) (row : List Cell) : List Cell :=
  (columns.map (row[·]?)).takeWhile Option.isSome |>.filterMap id

/-- Whether two rows are equal in all columns before one that they do not
have. -/
def leavesRow (directions : List Direction) (columns : List Nat)
    (a b : List Cell) : Bool :=
  let x := cellsAt columns a
  let y := cellsAt columns b
  (x.length < columns.length || y.length < columns.length) &&
    (compareKeys directions x y).isEq

/-- Sorts the rows of a grouped result.  A run is given up when two rows have to
be compared in a column that they do not have. -/
def sortGroups (breakouts : List Breakout) (orders : List OrderBy)
    (rows : List (List Cell)) : Except EvaluationError (List (List Cell)) := do
  let columns ← orders.mapM (orderColumn breakouts)
  let directions := orders.map (·.direction)
  let result := sortByKey directions (cellsAt columns) rows
  if (result.zip (result.drop 1)).any fun (a, b) =>
    leavesRow directions columns a b then
    throw (.aborted .missingColumn)
  else return result

def summarize (db : Database) (columns : Except CatalogError (List Entry))
    (s : Stage) (rows : List Row) : Except EvaluationError ResultSet := do
  let groups ← db.groups s.breakouts rows
  let cells ← groups.mapM fun g => do
    return g.key ++ (← db.aggregations g.rows [] s.aggregations)
  let cells ← accumulateAll s.breakouts.length s.aggregations cells
  let cells ←
    if s.orderBy.isEmpty then pure cells
    else sortGroups s.breakouts s.orderBy cells
  let entries ← columns.mapError .catalog
  return .ofEntries entries cells

/-! ## Queries -/

def runStage (db : Database) (columns : Except CatalogError (List Entry))
    (s : Stage) (rows : List Row) : Except EvaluationError ResultSet := do
  let prepared ← db.prepare s rows
  let result ←
    if s.isSummarized then db.summarize columns s prepared
    else db.project columns s prepared
  match s.limit with
  | some n => return { result with rows := result.rows.take n }
  | none => return result

def run (db : Database) (q : Query) : Except EvaluationError ResultSet :=
  match q with
  | .ofTable table stage =>
    match db.table? table with
    | none => .error (.missingTable table)
    | some data =>
      db.runStage ((Query.ofTable table stage).outputColumns db.catalog) stage
        (data.rows.map Row.ofRecord)
  | .ofQuery source stage => do
    let result ← db.run source
    db.runStage ((Query.ofQuery source stage).outputColumns db.catalog) stage
      (result.rows.map (Row.ofCells (result.columns.map Prod.fst)))

end Database

end TableQuery
