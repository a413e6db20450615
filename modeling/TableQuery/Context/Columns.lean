import TableQuery.Context.Kind
import TableQuery.Context.Label

/-!
# Columns of queries

What each clause of a query can see, and what the query produces.  A stage sees
the columns of its source, then its own custom columns; an aggregation also sees
the aggregations before it.  A stage that groups or aggregates produces its
breakouts and aggregations, and any other passes on what it sees, without the
columns of other tables.
-/

namespace TableQuery

/-! ## Tables -/

def Catalog.hopEntries (c : Catalog) (key : FieldInfo) : List Entry :=
  match key.target.bind c.fields? with
  | none => []
  | some fields =>
    fields.map fun f => ⟨f.name, [key.hopName], .foreign key.id f.id, f.kind⟩

def Catalog.tableEntries (c : Catalog) (id : TableId) :
    Except CatalogError (List Entry) :=
  match c.table? id with
  | none => .error (.unknownTable id)
  | some t =>
    .ok (t.fields.map (fun f => ⟨f.name, [t.name], .field f.id, f.kind⟩) ++
      t.fields.flatMap c.hopEntries)

/-! ## Stages -/

namespace Stage

/-- Adds custom columns to a context, each seeing those before it. -/
def pushColumns (columns : List CustomColumn) (ctx : Context) : Context :=
  columns.foldl
    (fun ctx c =>
      ctx.push ⟨c.name, [], .customColumn c.name, c.expression.kindIn ctx⟩)
    ctx

/-- Adds aggregations to a context from an index on, each seeing those before
it. -/
def pushAggregations : (index : Nat) → List Aggregation → Context → Context
  | _, [], ctx => ctx
  | index, a :: rest, ctx =>
    pushAggregations (index + 1) rest
      (ctx.push ⟨a.nameIn ctx, [], .aggregation index, a.expression.kindIn ctx⟩)

def contextAt (source : List Entry) (s : Stage) (position : ClausePosition) :
    Context :=
  match position.kind with
  | .customColumn => pushColumns (s.customColumns.take position.index) ⟨source⟩
  | .aggregation =>
    pushAggregations 0 (s.aggregations.take position.index)
      (pushColumns s.customColumns ⟨source⟩)
  | _ => pushColumns s.customColumns ⟨source⟩

def context (source : List Entry) (s : Stage) : Context :=
  pushColumns s.customColumns ⟨source⟩

def breakoutColumn? (ctx : Context) (b : Breakout) : Option Entry :=
  (ctx.lookup b.column).map fun e =>
    match b.unit with
    | none => ⟨e.label, [], b.column, e.kind⟩
    | some unit =>
      ⟨e.label ++ ": " ++ unit.label, [], b.column, if unit.isExtraction then
        .numeric else e.kind⟩

def aggregationColumns (ctx : Context) :
    (index : Nat) → List Aggregation → List Entry
  | _, [] => []
  | index, a :: rest =>
    ⟨a.nameIn ctx, [], .aggregation index, a.expression.kindIn ctx⟩ ::
      aggregationColumns ctx (index + 1) rest

def isForeign (e : Entry) : Bool :=
  match e.identifier with
  | .foreign _ _ => true
  | _ => false

def outputColumns (source : List Entry) (s : Stage) : List Entry :=
  let ctx := s.context source
  if s.isSummarized then
    s.breakouts.filterMap (breakoutColumn? ctx) ++
      aggregationColumns ctx 0 s.aggregations
  else ctx.entries.filter (!isForeign ·)

end Stage

/-! ## Queries -/

def Entry.asStageColumn (e : Entry) : Entry :=
  ⟨e.name, [], .stageColumn e.name e.kind, e.kind⟩

namespace Query

def sourceColumns (c : Catalog) : Query → Except CatalogError (List Entry)
  | ofTable table _ => c.tableEntries table
  | ofQuery source _ => do
    return (source.stage.outputColumns (← sourceColumns c source)).map
      Entry.asStageColumn

/-- What a clause at a position sees.  An index past the end stands for a new
clause. -/
def contextAt (c : Catalog) (q : Query) (position : ClausePosition) :
    Except CatalogError Context := do
  return q.stage.contextAt (← q.sourceColumns c) position

def contextForNew (c : Catalog) (q : Query) (kind : ClauseKind) :
    Except CatalogError Context :=
  q.contextAt c ⟨kind, q.stage.count kind⟩

def outputColumns (c : Catalog) (q : Query) :
    Except CatalogError (List Entry) := do
  return q.stage.outputColumns (← q.sourceColumns c)

end Query

end TableQuery
