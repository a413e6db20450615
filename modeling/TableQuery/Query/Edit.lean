import TableQuery.Query.Renumbering
import TableQuery.Query.Validation

/-!
# Edits

Edits of a draft.  Each gives a consistent query with its revision raised by
one, or an error.  Sorts and references follow the clauses that they point at,
and a policy says what becomes of the sorts on a clause that is removed.
-/

namespace TableQuery

/-! ## Sorts after a removal -/

inductive OrderByPolicy where
  | retargetFirstAggregation
  | drop
deriving DecidableEq, Repr

namespace OrderByPolicy

def name : OrderByPolicy → String
  | retargetFirstAggregation => "retarget-first-aggregation"
  | drop => "drop"

def ofName? (s : String) : Option OrderByPolicy :=
  [retargetFirstAggregation, drop].find? (·.name == s)

instance : Inhabited OrderByPolicy := ⟨retargetFirstAggregation⟩

end OrderByPolicy

def OrderTarget.index? (kind : ClauseKind) : OrderTarget → Option Nat
  | aggregation i => if kind = .aggregation then some i else none
  | breakout i => if kind = .breakout then some i else none
  | column _ => none

def OrderTarget.withIndex (index : Nat) : OrderTarget → OrderTarget
  | aggregation _ => aggregation index
  | breakout _ => breakout index
  | column id => column id

inductive SortAfterRemoval where
  | kept (order : OrderBy)
  | retargeted (order : OrderBy)
  | dropped

namespace SortAfterRemoval

def kept? : SortAfterRemoval → Option OrderBy
  | kept order => some order
  | _ => none

/-- The sorts that stay, given the targets that are taken.  A sort that lost its
clause stays only if its new target is still free. -/
def remaining : (taken : List OrderTarget) → List SortAfterRemoval →
    List OrderBy
  | _, [] => []
  | taken, kept order :: rest => order :: remaining taken rest
  | taken, retargeted order :: rest =>
    if order.target ∈ taken then remaining taken rest
    else order :: remaining (order.target :: taken) rest
  | taken, dropped :: rest => remaining taken rest

end SortAfterRemoval

namespace Stage

def sortAfterRemoval (policy : OrderByPolicy) (s : Stage) (kind : ClauseKind)
    (index : Nat) (o : OrderBy) : SortAfterRemoval :=
  match o.target.index? kind with
  | none => .kept o
  | some i =>
    if i ≠ index then
      .kept (o.mapTarget (OrderTarget.withIndex (indexAfterErase index i)))
    else if policy = .retargetFirstAggregation ∧ s.aggregations ≠ [] then
      .retargeted { o with target := .aggregation 0 }
    else .dropped

def reconcileSorts (policy : OrderByPolicy) (s : Stage) (kind : ClauseKind)
    (index : Nat) : Stage :=
  let sorts := s.orderBy.map (s.sortAfterRemoval policy kind index)
  let taken := (sorts.filterMap SortAfterRemoval.kept?).map OrderBy.target
  { s with orderBy := SortAfterRemoval.remaining taken sorts }

/-! ## Dependencies -/

def OrderTarget.reads (name : String) : OrderTarget → Bool
  | .column id => id.customColumn? == some name
  | _ => false

/-- Whether the clause at a position reads a custom column other than the one it
may define. -/
def readsColumn (name : String) (own : Nat) (position : ClausePosition) :
    Clause → Bool
  | .customColumn c =>
    position.index != own && c.expression.readsCustomColumn name
  | .filter predicate => predicate.readsCustomColumn name
  | .aggregation a => a.expression.readsCustomColumn name
  | .breakout b => b.column.customColumn? == some name
  | .orderBy o => OrderTarget.reads name o.target

def columnUser? (s : Stage) (name : String) (index : Nat) :
    Option ClausePosition :=
  (s.clauses.find? fun (position, clause) =>
    readsColumn name index position clause).map Prod.fst

def aggregationUser? (s : Stage) (index : Nat) : Option Nat :=
  (List.range s.aggregations.length).find? fun j =>
    j != index && (s.aggregations[j]?.any (·.expression.readsAggregation index))

def checkUnused (s : Stage) (position : ClausePosition) :
    Except ConsistencyError Unit :=
  match position.kind with
  | .aggregation =>
    match s.aggregationUser? position.index with
    | some user => .error (.referencedAggregation position.index user)
    | none => .ok ()
  | .customColumn =>
    match s.customColumns[position.index]? with
    | none => .ok ()
    | some c =>
      match s.columnUser? c.name position.index with
      | some user => .error (.referencedColumn c.name user)
      | none => .ok ()
  | _ => .ok ()

def checkRename (s : Stage) (index : Nat) (clause : Clause) :
    Except ConsistencyError Unit :=
  match clause, s.customColumns[index]? with
  | .customColumn new, some old =>
    if old.name = new.name then .ok () else s.checkUnused ⟨.customColumn, index⟩
  | _, _ => .ok ()

/-! ## Edits of a stage -/

/-- Inserts a clause.  A stage that starts to aggregate or group loses its sorts
on columns. -/
def withInserted (s : Stage) (index : Nat) (clause : Clause) : Stage :=
  let moved := s.renumber clause.kind (indexAfterInsert index)
  let starts := (clause.kind == .aggregation || clause.kind == .breakout) &&
    !s.isSummarized
  (if starts then moved.dropColumnSorts else moved).insert index clause

/-- Erases a clause that no other one reads. -/
def withErased (policy : OrderByPolicy) (s : Stage)
    (position : ClausePosition) : Stage :=
  let rest := s.erase position
  match position.kind with
  | .aggregation =>
    (rest.renumberExpressions (indexAfterErase position.index)).reconcileSorts
      policy .aggregation position.index
  | .breakout => rest.reconcileSorts policy .breakout position.index
  | _ => rest

def withReplaced (s : Stage) (position : ClausePosition) (clause : Clause) :
    Stage :=
  (s.erase position).insert position.index clause

def withMoved (s : Stage) (position : ClausePosition) (stop : Nat) : Stage :=
  (s.renumber position.kind (indexAfterMove position.index stop)).move
    position stop

end Stage

/-! ## Edits of a draft -/

namespace Draft

def ofQuery (q : Query) : Draft := ⟨q, 0⟩

def checkKind (position : ClausePosition) (clause : Clause) :
    Except ConsistencyError Unit :=
  if clause.kind = position.kind then .ok ()
  else .error (.kindMismatch position clause.kind)

def checkRange (d : Draft) (position : ClausePosition) :
    Except ConsistencyError Unit :=
  let count := d.query.stage.count position.kind
  if position.index < count then .ok ()
  else .error (.positionOutOfRange position count)

def checkInsertRange (d : Draft) (position : ClausePosition) :
    Except ConsistencyError Unit :=
  let count := d.query.stage.count position.kind
  if position.index ≤ count then .ok ()
  else .error (.positionOutOfRange position count)

def commit (c : Catalog) (d : Draft) (stage : Stage) :
    Except ConsistencyError Draft := do
  let next := d.query.withStage stage
  next.validate c
  return ⟨next, d.revision + 1⟩

/-- Inserts a clause before the one at a position, or at the end of its list. -/
def insert (c : Catalog) (d : Draft) (position : ClausePosition)
    (clause : Clause) : Except ConsistencyError Draft := do
  checkKind position clause
  d.checkInsertRange position
  d.query.validate c
  d.commit c (d.query.stage.withInserted position.index clause)

def add (c : Catalog) (d : Draft) (clause : Clause) :
    Except ConsistencyError Draft :=
  d.insert c ⟨clause.kind, d.query.stage.count clause.kind⟩ clause

def remove (c : Catalog) (policy : OrderByPolicy) (d : Draft)
    (position : ClausePosition) : Except ConsistencyError Draft := do
  d.checkRange position
  d.query.validate c
  d.query.stage.checkUnused position
  d.commit c (d.query.stage.withErased policy position)

def replace (c : Catalog) (d : Draft) (position : ClausePosition)
    (clause : Clause) : Except ConsistencyError Draft := do
  checkKind position clause
  d.checkRange position
  d.query.validate c
  d.query.stage.checkRename position.index clause
  d.commit c (d.query.stage.withReplaced position clause)

def move (c : Catalog) (d : Draft) (position : ClausePosition) (stop : Nat) :
    Except ConsistencyError Draft := do
  d.checkRange position
  d.checkRange ⟨position.kind, stop⟩
  d.query.validate c
  d.commit c (d.query.stage.withMoved position stop)

def setLimit (c : Catalog) (d : Draft) (limit : Option Nat) :
    Except ConsistencyError Draft :=
  d.commit c { d.query.stage with limit }

def nest (d : Draft) : Draft := ofQuery d.query.nest

end Draft

end TableQuery
