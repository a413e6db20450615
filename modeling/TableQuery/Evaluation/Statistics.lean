import TableQuery.Decimal.Power
import TableQuery.Evaluation.Error

/-!
# Statistics of decimals

Sums, means, population variances and percentiles of the numbers of a group.  A
group without numbers has none of them.
-/

namespace TableQuery.Statistics

def numbers : List Cell → Except EvaluationError (List Decimal)
  | [] => .ok []
  | .null :: cells => numbers cells
  | .number n :: cells => do return n :: (← numbers cells)
  | cell :: _ => .error (.fault (.notANumber cell))

def total (values : List Decimal) : Option Decimal :=
  values.foldlM Decimal.add? Decimal.zero

def sum (values : List Decimal) : Except EvaluationError (Option Decimal) :=
  if values.isEmpty then .ok none
  else do return some (← Computation.sum.checked (total values))

def mean (values : List Decimal) : Except EvaluationError (Option Decimal) := do
  match ← sum values with
  | none => return none
  | some total =>
    return some (← Computation.average.checked
      (total.div? (.ofNat values.length)))

def squaredDistance (mean value : Decimal) : Option Decimal := do
  let distance ← value.sub? mean
  distance.mul? distance

def variance (values : List Decimal) :
    Except EvaluationError (Option Decimal) := do
  match ← mean values with
  | none => return none
  | some m =>
    mean (← Computation.variance.checked (values.mapM (squaredDistance m)))

def sorted (values : List Decimal) : List Decimal := values.mergeSort Decimal.le

def interpolate? (low high fraction : Decimal) : Option Decimal := do
  let step ← high.sub? low
  low.add? (← step.mul? fraction)

/-- The value at rank `p * (n - 1)` of the sorted values, between two ranks in
proportion. -/
def percentile? (values : List Decimal) (p : Decimal) : Option Decimal := do
  let ordered := sorted values
  let rank ← p.mul? (.ofNat (values.length - 1))
  let lower := rank.floor
  let index := lower.toInt.toNat
  let fraction ← rank.sub? lower
  let low ← ordered[index]?
  interpolate? low (ordered[index + 1]?.getD low) fraction

/-- The percentile of a group; its arithmetic has no checks of its own. -/
def percentile (values : List Decimal) (p : Decimal) :
    Except EvaluationError Cell :=
  if values.isEmpty then .ok .null
  else
    match percentile? values p with
    | some value => .ok (.number value)
    | none => .error (.aborted .interpolation)

end TableQuery.Statistics
