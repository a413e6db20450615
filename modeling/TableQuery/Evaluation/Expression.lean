import TableQuery.Evaluation.Database
import TableQuery.Evaluation.Scalar
import TableQuery.Evaluation.Statistics

/-!
# Evaluating expressions

An expression has a value for a row, and an aggregation for a group of rows and
the values of the aggregations before it.
-/

namespace TableQuery.Database

/-! ## Rows -/

mutual

def evalRow (db : Database) (row : Row) :
    Expression → Except EvaluationError Cell
  | .number value => .ok (.number value)
  | .string value => .ok (.string value)
  | .column id => db.value row id
  | .call f args =>
    if f.isAggregate then .error (.unsupported (.aggregateOfRow f))
    else do Scalar.applyFunction f (← evalArgs db row args)
  | .binary op left right => do
    let a ← evalRow db row left
    Scalar.applyBinary op a (← evalRow db row right)
  | .unary op operand => do Scalar.applyUnary op (← evalRow db row operand)
  | .unrecognized stored => .error (.unsupported (.unrecognized stored))

def evalArgs (db : Database) (row : Row) :
    List Expression → Except EvaluationError (List Cell)
  | [] => .ok []
  | arg :: args => do
    let first ← evalRow db row arg
    return first :: (← evalArgs db row args)

end

def evalColumn (db : Database) (rows : List Row) (e : Expression) :
    Except EvaluationError (List Cell) :=
  rows.mapM (db.evalRow · e)

/-- Whether a predicate is true of a row; one that is null or false is not. -/
def accepts (db : Database) (predicate : Expression) (row : Row) :
    Except EvaluationError Bool := do
  return (← db.evalRow row predicate).same (.boolean true)

def matching (db : Database) (predicate : Expression) (rows : List Row) :
    Except EvaluationError (List Row) :=
  rows.filterM (db.accepts predicate)

/-! ## Groups -/

/-- The least or the greatest cell that is not null; of equal ones, the
first. -/
def extremum (f : Function) (better : Ordering → Bool) :
    (best : Cell) → List Cell → Except EvaluationError Cell
  | best, [] => .ok best
  | best, cell :: cells =>
    if cell.isNull then extremum f better best cells
    else if best.isNull then extremum f better cell cells
    else
      match cell.compare? best with
      | none => .error (.fault (.extremumNotComparable f))
      | some order =>
        extremum f better (if better order then cell else best) cells

def distinct : List Cell → List Cell
  | [] => []
  | cell :: cells => cell :: (distinct cells).filter (!·.same cell)

def ofNumber? : Option Decimal → Cell
  | some n => .number n
  | none => .null

def argumentOf (f : Function) (args : List Expression) (index : Nat) :
    Except EvaluationError Expression :=
  match args[index]? with
  | some e => .ok e
  | none => .error (.fault (.missingArgument f index))

def numbersOf (db : Database) (rows : List Row) (f : Function)
    (args : List Expression) (index : Nat) :
    Except EvaluationError (List Decimal) := do
  Statistics.numbers (← db.evalColumn rows (← argumentOf f args index))

def hits (db : Database) (rows : List Row) (f : Function)
    (args : List Expression) (index : Nat) :
    Except EvaluationError (List Row) := do
  db.matching (← argumentOf f args index) rows

/-- Applies an aggregation to a group.  `rank` evaluates the argument that is
taken of the group as a whole. -/
def aggregate (db : Database) (rows : List Row)
    (rank : Unit → Except EvaluationError Cell) (f : Function)
    (args : List Expression) : Except EvaluationError Cell :=
  match f with
  | .count | .cumulativeCount =>
    match args with
    | [] => .ok (.ofCount rows.length)
    | e :: _ => do return .ofCount ((← db.evalColumn rows e).countP (!·.isNull))
  | .sum | .cumulativeSum => do
    return ofNumber? (← Statistics.sum (← db.numbersOf rows f args 0))
  | .distinct => do
    let cells ← db.evalColumn rows (← argumentOf f args 0)
    return .ofCount (distinct (cells.filter (!·.isNull))).length
  | .average => do
    return ofNumber? (← Statistics.mean (← db.numbersOf rows f args 0))
  | .min => do
    extremum f Ordering.isLT .null
      (← db.evalColumn rows (← argumentOf f args 0))
  | .max => do
    extremum f Ordering.isGT .null
      (← db.evalColumn rows (← argumentOf f args 0))
  | .median => do
    Statistics.percentile (← db.numbersOf rows f args 0) .half
  | .percentile => do
    let values ← db.numbersOf rows f args 0
    let _ ← argumentOf f args 1
    match ← rank () with
    | .number p =>
      if p.lt .zero || Decimal.one.lt p then
        .error (.fault (.percentileOutOfRange p))
      else Statistics.percentile values p
    | _ => .error (.fault .percentileNotNumeric)
  | .variance => do
    return ofNumber? (← Statistics.variance (← db.numbersOf rows f args 0))
  | .standardDeviation => do
    match ← Statistics.variance (← db.numbersOf rows f args 0) with
    | none => return .null
    | some v =>
      match v.sqrt? with
      | some root => return .number root
      | none => throw (.fault .negativeVariance)
  | .share =>
    if rows.isEmpty then .ok .null
    else do
      let found ← db.hits rows f args 0
      let share := (Decimal.ofNat found.length).div? (.ofNat rows.length)
      return .number (← Computation.share.checked share)
  | .countIf => do return .ofCount (← db.hits rows f args 0).length
  | .sumIf => do
    let found ← db.hits rows f args 1
    return ofNumber? (← Statistics.sum (← db.numbersOf found f args 0))
  | f => .error (.fault (.notAnAggregation f))

mutual

def evalGroup (db : Database) (rows : List Row) (done : List Cell) :
    Expression → Except EvaluationError Cell
  | .number value => .ok (.number value)
  | .string value => .ok (.string value)
  | .column (.aggregation index) =>
    match done[index]? with
    | some cell => .ok cell
    | none => .error (.fault (.notComputedYet index))
  | .column id => .error (.unsupported (.columnOfGroup id))
  | .call f args =>
    if f.isAggregate then
      db.aggregate rows (fun _ => evalGroupRank db rows done args) f args
    else do Scalar.applyFunction f (← evalGroupArgs db rows done args)
  | .binary op left right => do
    let a ← evalGroup db rows done left
    Scalar.applyBinary op a (← evalGroup db rows done right)
  | .unary op operand => do
    Scalar.applyUnary op (← evalGroup db rows done operand)
  | .unrecognized stored => .error (.unsupported (.unrecognized stored))

def evalGroupArgs (db : Database) (rows : List Row) (done : List Cell) :
    List Expression → Except EvaluationError (List Cell)
  | [] => .ok []
  | arg :: args => do
    let first ← evalGroup db rows done arg
    return first :: (← evalGroupArgs db rows done args)

def evalGroupRank (db : Database) (rows : List Row) (done : List Cell) :
    List Expression → Except EvaluationError Cell
  | _ :: e :: _ => evalGroup db rows done e
  | _ => .ok .null

end

end TableQuery.Database
