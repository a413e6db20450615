import TableQuery.Expression

/-!
# Clauses

The five kinds of clauses of a query, in the order in which they take effect:
custom columns are computed, rows are filtered, aggregated and grouped, and the
result is sorted.
-/

namespace TableQuery

/-! ## Clauses of each kind -/

structure CustomColumn where
  name : String
  expression : Expression
deriving Repr

structure Aggregation where
  expression : Expression
  name : Option String
  options : Json.Members
deriving Repr

structure Breakout where
  column : Identifier
  unit : Option CalendarUnit
deriving DecidableEq, Repr

inductive Direction where
  | asc
  | desc
deriving DecidableEq, Repr

def Direction.name : Direction → String
  | asc => "asc"
  | desc => "desc"

inductive OrderTarget where
  | aggregation (index : Nat)
  | breakout (index : Nat)
  | column (id : Identifier)
deriving DecidableEq, Repr

structure OrderBy where
  direction : Direction
  target : OrderTarget
deriving DecidableEq, Repr

def CustomColumn.same (a b : CustomColumn) : Bool :=
  a.name == b.name && a.expression.same b.expression

def Aggregation.same (a b : Aggregation) : Bool :=
  a.expression.same b.expression && a.name == b.name &&
    (Json.object a.options).same (.object b.options)

/-! ## Positions -/

inductive ClauseKind where
  | customColumn
  | filter
  | aggregation
  | breakout
  | orderBy
deriving DecidableEq, Repr

namespace ClauseKind

/-- In the order in which clauses take effect. -/
def all : List ClauseKind :=
  [customColumn, filter, aggregation, breakout, orderBy]

def describe : ClauseKind → String
  | customColumn => "custom column"
  | filter => "filter"
  | aggregation => "aggregation"
  | breakout => "breakout"
  | orderBy => "order-by"

end ClauseKind

structure ClausePosition where
  kind : ClauseKind
  index : Nat
deriving DecidableEq, Repr

def ClausePosition.describe (position : ClausePosition) : String :=
  position.kind.describe ++ " " ++ toString position.index

/-! ## Any clause -/

inductive Clause where
  | customColumn (column : CustomColumn)
  | filter (predicate : Expression)
  | aggregation (aggregation : Aggregation)
  | breakout (breakout : Breakout)
  | orderBy (order : OrderBy)
deriving Repr

def Clause.kind : Clause → ClauseKind
  | customColumn _ => .customColumn
  | filter _ => .filter
  | aggregation _ => .aggregation
  | breakout _ => .breakout
  | orderBy _ => .orderBy

end TableQuery
