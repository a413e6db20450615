import TableQuery.Query.Clause

/-!
# Queries

A stage holds the clauses of one step of a query.  A query is a stage over a
table, or over the output of another query.
-/

namespace TableQuery

/-! ## Stages -/

structure Stage where
  customColumns : List CustomColumn := []
  filters : List Expression := []
  aggregations : List Aggregation := []
  breakouts : List Breakout := []
  orderBy : List OrderBy := []
  limit : Option Nat := none
  extra : Json.Members := []
deriving Repr

namespace Stage

instance : Inhabited Stage := ⟨{}⟩

def isSummarized (s : Stage) : Bool :=
  !s.aggregations.isEmpty || !s.breakouts.isEmpty

def count (s : Stage) : ClauseKind → Nat
  | .customColumn => s.customColumns.length
  | .filter => s.filters.length
  | .aggregation => s.aggregations.length
  | .breakout => s.breakouts.length
  | .orderBy => s.orderBy.length

def isEmpty (s : Stage) : Bool :=
  ClauseKind.all.all (s.count · == 0) && s.limit.isNone

def clause? (s : Stage) (position : ClausePosition) : Option Clause :=
  match position.kind with
  | .customColumn => s.customColumns[position.index]?.map .customColumn
  | .filter => s.filters[position.index]?.map .filter
  | .aggregation => s.aggregations[position.index]?.map .aggregation
  | .breakout => s.breakouts[position.index]?.map .breakout
  | .orderBy => s.orderBy[position.index]?.map .orderBy

def clauses (s : Stage) : List (ClausePosition × Clause) :=
  ClauseKind.all.flatMap fun kind =>
    (List.range (s.count kind)).filterMap fun index =>
      (s.clause? ⟨kind, index⟩).map ((⟨kind, index⟩, ·))

/-! ### Edits of one list -/

def insert (s : Stage) (index : Nat) : Clause → Stage
  | .customColumn c =>
  { s with customColumns := s.customColumns.insertIdx index c }
  | .filter c => { s with filters := s.filters.insertIdx index c }
  | .aggregation c =>
    { s with aggregations := s.aggregations.insertIdx index c }
  | .breakout c => { s with breakouts := s.breakouts.insertIdx index c }
  | .orderBy c => { s with orderBy := s.orderBy.insertIdx index c }

def erase (s : Stage) (position : ClausePosition) : Stage :=
  match position.kind with
  | .customColumn =>
    { s with customColumns := s.customColumns.eraseIdx position.index }
  | .filter => { s with filters := s.filters.eraseIdx position.index }
  | .aggregation =>
    { s with aggregations := s.aggregations.eraseIdx position.index }
  | .breakout => { s with breakouts := s.breakouts.eraseIdx position.index }
  | .orderBy => { s with orderBy := s.orderBy.eraseIdx position.index }

/-! ### Sameness -/

def sameList {α : Type} (same : α → α → Bool) (as bs : List α) : Bool :=
  as.length == bs.length && (as.zip bs).all fun (a, b) => same a b

def same (a b : Stage) : Bool :=
  sameList CustomColumn.same a.customColumns b.customColumns &&
    sameList Expression.same a.filters b.filters &&
    sameList Aggregation.same a.aggregations b.aggregations &&
    a.breakouts == b.breakouts && a.orderBy == b.orderBy &&
    a.limit == b.limit && (Json.object a.extra).same (.object b.extra)

end Stage

/-! ## Queries -/

inductive Query where
  | ofTable (table : TableId) (stage : Stage)
  | ofQuery (source : Query) (stage : Stage)
deriving Repr

namespace Query

def table (id : TableId) : Query := ofTable id {}

def nest (source : Query) : Query := ofQuery source {}

instance : Inhabited Query := ⟨table 0⟩

def stage : Query → Stage
  | ofTable _ stage => stage
  | ofQuery _ stage => stage

def withStage (stage : Stage) : Query → Query
  | ofTable table _ => ofTable table stage
  | ofQuery source _ => ofQuery source stage

def rootTable : Query → TableId
  | ofTable table _ => table
  | ofQuery source _ => source.rootTable

def same : Query → Query → Bool
  | ofTable a s, ofTable b t => a == b && s.same t
  | ofQuery a s, ofQuery b t => a.same b && s.same t
  | _, _ => false

end Query

/-- A query under edit, with the number of changes made to it since it was
created or read. -/
structure Draft where
  query : Query
  revision : Nat
deriving Repr

end TableQuery
