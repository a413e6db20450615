import TableQuery.Context.Columns

/-!
# Validation

A query is consistent when all that its clauses read is visible where they
stand, its aggregations aggregate and nothing else does, its sorts point at
clauses that exist, and no custom column, breakout or sort is there twice.
Units must suit the values that they group.
-/

namespace TableQuery

/-! ## Errors -/

inductive MisplacedExpression where
  | withoutAggregation
  | aggregation
deriving DecidableEq, Repr

def MisplacedExpression.message : MisplacedExpression → String
  | withoutAggregation => "an aggregation must aggregate"
  | aggregation => "only aggregations may aggregate"

inductive ConsistencyError where
  | danglingOrderBy (index : Nat) (target : OrderTarget)
  | invalidOrderTarget (index : Nat) (id : Identifier)
  | duplicateOrderBy (index : Nat) (target : OrderTarget)
  | referencedAggregation (index user : Nat)
  | referencedColumn (name : String) (user : ClausePosition)
  | duplicateColumnName (name : String)
  | kindMismatch (position : ClausePosition) (found : ClauseKind)
  | positionOutOfRange (position : ClausePosition) (count : Nat)
  | invalidUnit (index : Nat) (column : Entry) (unit : CalendarUnit)
  | duplicateBreakout (index : Nat)
  | unresolvedColumn (position : ClausePosition) (id : Identifier)
  | invalidExpression (position : ClausePosition) (reason : MisplacedExpression)
  | unknownSource (table : TableId)
  | catalog (e : CatalogError)
deriving DecidableEq, Repr

def Identifier.describe : Identifier → String
  | field id => "field " ++ toString id
  | foreign key id => "field " ++ toString id ++ " via " ++ toString key
  | customColumn name => "[" ++ name ++ "]"
  | stageColumn name _ => "[" ++ name ++ "]"
  | aggregation index => "aggregation " ++ toString index

def OrderTarget.describe : OrderTarget → String
  | aggregation index => "aggregation " ++ toString index
  | breakout index => "breakout " ++ toString index
  | column id => id.describe

namespace ConsistencyError

def message : ConsistencyError → String
  | danglingOrderBy index target =>
    "order-by " ++ toString index ++ " points at " ++ target.describe ++
      ", which does not exist"
  | invalidOrderTarget index id =>
    "order-by " ++ toString index ++ " cannot sort on " ++ id.describe ++
      ": summarized queries sort on aggregations or breakouts"
  | duplicateOrderBy index target =>
    "order-by " ++ toString index ++ " repeats an earlier sort on " ++
      target.describe
  | referencedAggregation index user =>
    "aggregation " ++ toString index ++ " is used by aggregation " ++
      toString user
  | referencedColumn name user =>
    "custom column '" ++ name ++ "' is used by " ++ user.describe
  | duplicateColumnName name =>
    "custom column name '" ++ name ++ "' is used twice"
  | kindMismatch position found =>
    "cannot put a " ++ found.describe ++ " clause at " ++ position.describe
  | positionOutOfRange position count =>
    position.describe ++ " is out of range; the list has " ++ toString count ++
      " clauses"
  | invalidUnit index column unit =>
    "breakout " ++ toString index ++ " cannot use granularity '" ++ unit.name ++
      "' on " ++ column.qualifiedName ++ " (" ++ column.kind.describe ++ ")"
  | duplicateBreakout index =>
    "breakout " ++ toString index ++ " repeats an earlier breakout"
  | unresolvedColumn position id =>
    position.describe ++ " refers to " ++ id.describe ++
      ", which is not visible there"
  | invalidExpression position reason =>
    position.describe ++ " is not valid here: " ++ reason.message
  | unknownSource table =>
    "the query reads from unknown table " ++ toString table
  | catalog e => "catalog error: " ++ e.message

def ofCatalogError : CatalogError → ConsistencyError
  | .unknownTable table => unknownSource table
  | e => catalog e

end ConsistencyError

/-! ## Clauses -/

namespace Expression

def isUnrecognized : Expression → Bool
  | unrecognized _ => true
  | _ => false

def isAggregating (e : Expression) : Bool :=
  e.containsAggregate || e.identifiers.any (·.aggregationIndex?.isSome)

end Expression

/-- Checks that an expression reads only what is visible, and aggregates if and
only if its clause is an aggregation. -/
def Expression.check (ctx : Context) (position : ClausePosition)
    (e : Expression) : Except ConsistencyError Unit :=
  match e.identifiers.find? fun id => (ctx.lookup id).isNone with
  | some id => .error (.unresolvedColumn position id)
  | none =>
    if position.kind = .aggregation then
      if e.isAggregating || e.isUnrecognized then .ok ()
      else .error (.invalidExpression position .withoutAggregation)
    else if e.containsAggregate then
      .error (.invalidExpression position .aggregation)
    else .ok ()

def Entry.takesUnit (e : Entry) (unit : CalendarUnit) : Bool :=
  e.kind.shape?.any unit.validFor

namespace Stage

def checkBreakout (ctx : Context) (s : Stage) (index : Nat) (b : Breakout) :
    Except ConsistencyError Unit :=
  match ctx.lookup b.column with
  | none => .error (.unresolvedColumn ⟨.breakout, index⟩ b.column)
  | some e =>
    match b.unit.filter (!e.takesUnit ·) with
    | some unit => .error (.invalidUnit index e unit)
    | none =>
      if b ∈ s.breakouts.take index then .error (.duplicateBreakout index)
      else .ok ()

def checkTarget (ctx : Context) (s : Stage) (index : Nat)
    (target : OrderTarget) : Except ConsistencyError Unit :=
  match target with
  | .aggregation i =>
    if i < s.aggregations.length then .ok ()
    else .error (.danglingOrderBy index target)
  | .breakout i =>
    if i < s.breakouts.length then .ok ()
    else .error (.danglingOrderBy index target)
  | .column id =>
    if s.isSummarized then .error (.invalidOrderTarget index id)
    else if (ctx.lookup id).isNone then
      .error (.unresolvedColumn ⟨.orderBy, index⟩ id)
    else .ok ()

def checkOrderBy (ctx : Context) (s : Stage) (index : Nat) (o : OrderBy) :
    Except ConsistencyError Unit :=
  match checkTarget ctx s index o.target with
  | .error e => .error e
  | .ok () =>
    if o.target ∈ (s.orderBy.take index).map OrderBy.target then
      .error (.duplicateOrderBy index o.target)
    else .ok ()

def checkClause (source : List Entry) (s : Stage) (position : ClausePosition)
    (clause : Clause) : Except ConsistencyError Unit :=
  let ctx := s.contextAt source position
  match clause with
  | .customColumn c => c.expression.check ctx position
  | .filter predicate => predicate.check ctx position
  | .aggregation a => a.expression.check ctx position
  | .breakout b => checkBreakout ctx s position.index b
  | .orderBy o => checkOrderBy ctx s position.index o

/-! ## Stages -/

def firstRepeated : (before : List String) → List String → Option String
  | _, [] => none
  | before, name :: names =>
    if name ∈ before then some name else firstRepeated (name :: before) names

def checkClauses (source : List Entry) (s : Stage) :
    List (ClausePosition × Clause) → Except ConsistencyError Unit
  | [] => .ok ()
  | (position, clause) :: rest =>
    match checkClause source s position clause with
    | .error e => .error e
    | .ok () => checkClauses source s rest

/-- Checks one stage.  Its source has to be known only if there is a clause to
read from it. -/
def check (source : Except CatalogError (List Entry)) (s : Stage) :
    Except ConsistencyError Unit :=
  match firstRepeated [] (s.customColumns.map CustomColumn.name) with
  | some name => .error (.duplicateColumnName name)
  | none =>
    match s.clauses with
    | [] => .ok ()
    | clauses =>
      match source with
      | .error e => .error (.ofCatalogError e)
      | .ok source => checkClauses source s clauses

end Stage

/-! ## Queries -/

def Query.validate (c : Catalog) : Query → Except ConsistencyError Unit
  | ofTable table stage => stage.check (c.tableEntries table)
  | ofQuery source stage =>
    match source.validate c with
    | .error e => .error e
    | .ok () => stage.check (sourceColumns c (ofQuery source stage))

end TableQuery
