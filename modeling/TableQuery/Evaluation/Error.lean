import TableQuery.Catalog
import TableQuery.Cell
import TableQuery.Json.Writer
import TableQuery.Query.Outline
import TableQuery.Wire.Error

/-!
# Errors of evaluation

Why a query has no result: it asks for something that rows cannot answer, or a
value does not fit.
-/

namespace TableQuery

inductive Unsupported where
  | aggregateOfRow (function : Function)
  | aggregationOfRow (index : Nat)
  | columnOfGroup (id : Identifier)
  | orderOfRows (target : OrderTarget)
  | orderOfGroups (id : Identifier)
  | notForeignKey (id : FieldId)
  | noPrimaryKey (table : TableId)
  | unrecognized (stored : Json)

def Unsupported.message : Unsupported → String
  | aggregateOfRow function => function.name ++ " outside an aggregation clause"
  | aggregationOfRow index =>
    "aggregation " ++ toString index ++ " outside an aggregation clause"
  | columnOfGroup id =>
    "column " ++ id.outline.compact ++ " outside an aggregate function"
  | orderOfRows target =>
    "ordering an unsummarized query by " ++ target.outline.compact
  | orderOfGroups id => "ordering a summarized query by " ++
    id.outline.compact ++ ", which is not a breakout"
  | notForeignKey id => "field " ++ toString id ++ " is not a foreign key"
  | noPrimaryKey table => "table " ++ toString table ++ " has no primary key"
  | unrecognized stored => "unrecognized expression " ++ stored.compact

inductive Computation where
  | runningTotal
  | sum
  | average
  | variance
  | share
  | operator (op : BinaryOp)
  | function (function : Function)
deriving DecidableEq, Repr

def Computation.describe : Computation → String
  | runningTotal => "running total"
  | sum => "sum"
  | average => "average"
  | variance => "variance"
  | share => "Share"
  | operator op => "'" ++ op.symbol ++ "'"
  | function f => f.name

inductive Fault where
  | overflow (computation : Computation)
  | notANumber (found : Cell)
  | notATruthValue (found : Cell)
  | notComparable (left right : Cell)
  | extremumNotComparable (function : Function)
  | operandsNotNumbers (op : BinaryOp) (left right : Cell)
  | notNegatable (found : Cell)
  | argumentNotText (function : Function) (found : Cell)
  | argumentNotNumber (function : Function) (found : Cell)
  | missingArgument (function : Function) (index : Nat)
  | invalidPattern (pattern : String)
  | notComputedYet (index : Nat)
  | percentileNotNumeric
  | percentileOutOfRange (rank : Decimal)
  | negativeVariance
  | notAnAggregation (function : Function)

def Fault.message : Fault → String
  | overflow computation => computation.describe ++ " overflowed"
  | notANumber found => "expected a number, got " ++ found.toText
  | notATruthValue found => "expected true or false, got " ++ found.toText
  | notComparable left right =>
    "cannot compare " ++ left.toText ++ " with " ++ right.toText
  | extremumNotComparable function =>
    function.name ++ " over values that cannot be compared"
  | operandsNotNumbers op left right =>
    "'" ++ op.symbol ++ "' needs numbers, got " ++ left.toText ++
      " and " ++ right.toText
  | notNegatable found => "cannot negate " ++ found.toText
  | argumentNotText function found =>
    function.name ++ " expects text, got " ++ found.toText
  | argumentNotNumber function found =>
    function.name ++ " expects a number, got " ++ found.toText
  | missingArgument function index =>
    function.name ++ " is missing argument " ++ toString (index + 1)
  | invalidPattern pattern => "invalid pattern '" ++ pattern ++ "'"
  | notComputedYet index =>
    "aggregation " ++ toString index ++ " is not computed yet"
  | percentileNotNumeric => "Percentile needs a numeric percentile"
  | percentileOutOfRange rank =>
    "percentile " ++ rank.render ++ " is outside 0 to 1"
  | negativeVariance => "square root of a negative variance"
  | notAnAggregation function => function.name ++ " is not an aggregation"

/-- A step that has no check of its own, and gives up the run when it cannot be
done. -/
inductive Abort where
  | missingColumn
  | interpolation
  | dayCount
deriving DecidableEq, Repr

inductive EvaluationError where
  | wire (e : WireError)
  | catalog (e : CatalogError)
  | missingTable (table : TableId)
  | unsupported (what : Unsupported)
  | fault (fault : Fault)
  | aborted (cause : Abort)

def EvaluationError.message : EvaluationError → String
  | wire e => "failed to fingerprint query: " ++ e.message
  | catalog e => e.message
  | missingTable table => "no data for table " ++ toString table
  | unsupported what => "cannot execute " ++ what.message
  | fault f => "evaluation failed: " ++ f.message
  | aborted _ => "aborted"

def Computation.checked (c : Computation) {α : Type} :
    Option α → Except EvaluationError α
  | some a => .ok a
  | none => .error (.fault (.overflow c))

end TableQuery
