import TableQuery.Compilation.Typing
import TableQuery.Formula.Tree.Parser
import TableQuery.Query.Edit
import TableQuery.Wire.Error

/-!
# Compiling formulas into clauses

A formula becomes a clause in four steps: it is read, its names are resolved
against what the clause can see, its kinds are checked, and it is checked to
suit the kind of clause.
-/

namespace TableQuery

/-! ## Errors -/

inductive CompileError where
  | type (e : TypeError)
  | missingName

def CompileError.message : CompileError → String
  | type e => e.fault.message
  | missingName => "a custom column needs a name"

def CompileError.span? : CompileError → Option Span
  | type e => some e.span
  | missingName => none

/-- Whatever can go wrong with a query, from its formulas to its stored form. -/
inductive QueryError where
  | formula (e : FormulaError)
  | resolve (e : ResolveError)
  | compile (e : CompileError)
  | consistency (e : ConsistencyError)
  | catalog (e : CatalogError)
  | wire (e : WireError)

def QueryError.message : QueryError → String
  | formula e => e.message
  | resolve e => e.message
  | compile e => e.message
  | consistency e => e.message
  | catalog e => e.message
  | wire e => e.message

def QueryError.span? : QueryError → Option Span
  | formula e => some e.span
  | resolve e => some e.span
  | compile e => e.span?
  | consistency _ => none
  | catalog _ => none
  | wire _ => none

/-! ## Targets -/

inductive FormulaTarget where
  | aggregation
  | filter
  | customColumn
deriving DecidableEq, Repr

def FormulaTarget.clauseKind : FormulaTarget → ClauseKind
  | aggregation => .aggregation
  | filter => .filter
  | customColumn => .customColumn

structure CompileOptions where
  separators : List String := defaultSeparators
  maxDepth : Nat := Tree.defaultMaxDepth
  policy : OrderByPolicy := .retargetFirstAggregation
deriving Repr

structure CompiledClause where
  clause : Clause
  displayName : String
  kind : ValueKind
  resolved : Tree

/-! ## Clauses from resolved trees -/

namespace Tree

mutual

/-- The first column, from left to right, that a tree reads outside an
aggregation. -/
def columnOutsideAggregation? : Tree → Option Tree
  | number _ _ | string _ _ => none
  | reference name target span =>
    if (target.bind Identifier.aggregationIndex?).isSome then none
    else some (reference name target span)
  | call function args _ =>
    if Function.namesAggregate function then none
    else argColumnOutsideAggregation? args
  | binary _ left right _ =>
    columnOutsideAggregation? left <|> columnOutsideAggregation? right
  | unary _ operand _ => columnOutsideAggregation? operand

def argColumnOutsideAggregation? : List Tree → Option Tree
  | [] => none
  | arg :: args =>
    columnOutsideAggregation? arg <|> argColumnOutsideAggregation? args

end

def fault {α : Type} (t : Tree) (f : TypeFault) : Except CompileError α :=
  .error (.type ⟨f, t.span⟩)

def rejectAggregates (t : Tree) (clauses : String) : Except CompileError Unit :=
  if t.containsAggregate then t.fault (.aggregationIn clauses) else .ok ()

def columnName (name : Option String) : Except CompileError String :=
  match (name.map Text.trimmed).filter (!·.isEmpty) with
  | some name => .ok name
  | none => .error .missingName

def clauseFor (t : Tree) (target : FormulaTarget) (name : Option String)
    (e : Expression) (kind : ValueKind) : Except CompileError Clause :=
  match target with
  | .aggregation =>
    if !t.containsAggregate then t.fault .withoutAggregation
    else
      match t.columnOutsideAggregation? with
      | some column => column.fault (.columnOutsideAggregation column)
      | none => .ok (.aggregation ⟨e, name, []⟩)
  | .filter => do
    t.rejectAggregates "filters"
    if ValueKind.boolean.fits kind then .ok (.filter e)
    else t.fault (.filterNotTruthValue kind)
  | .customColumn => do
    t.rejectAggregates "custom columns"
    return .customColumn ⟨← columnName name, e⟩

def compile (ctx : Context) (t : Tree) (target : FormulaTarget)
    (name : Option String) : Except CompileError CompiledClause :=
  match t.typed ctx with
  | .error e => .error (.type e)
  | .ok (e, kind) =>
    match t.clauseFor target name e kind with
    | .error e => .error e
    | .ok clause =>
      .ok {
        clause, displayName := name.getD (e.labelIn ctx), kind, resolved := t }

end Tree

/-! ## Clauses from formulas -/

/-- Compiles a formula as the clause that will stand at a position of a
query. -/
def Query.compileAt (c : Catalog) (options : CompileOptions) (q : Query)
    (source : String) (target : FormulaTarget) (name : Option String)
    (position : ClausePosition) : Except QueryError CompiledClause :=
  match q.contextAt c position with
  | .error e => .error (.catalog e)
  | .ok ctx =>
    match Tree.parseWithin options.maxDepth source with
    | .error e => .error (.formula e)
    | .ok parsed =>
      match parsed.resolve ctx options.separators with
      | .error e => .error (.resolve e)
      | .ok resolved => (resolved.compile ctx target name).mapError .compile

def Query.positionFor (q : Query) (target : FormulaTarget)
    (index : Option Nat) : ClausePosition :=
  ⟨target.clauseKind, index.getD (q.stage.count target.clauseKind)⟩

def Query.compile (c : Catalog) (options : CompileOptions) (q : Query)
    (source : String) (target : FormulaTarget) (name : Option String) :
    Except QueryError CompiledClause :=
  q.compileAt c options source target name (q.positionFor target none)

/-- Compiles a formula and inserts its clause, at the end of its list unless an
index is given. -/
def Draft.addFormula (c : Catalog) (options : CompileOptions) (d : Draft)
    (source : String) (target : FormulaTarget) (name : Option String)
    (index : Option Nat) : Except QueryError Draft :=
  let position := d.query.positionFor target index
  match d.query.compileAt c options source target name position with
  | .error e => .error e
  | .ok compiled => (d.insert c position compiled.clause).mapError .consistency

end TableQuery
