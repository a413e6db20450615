import TableQuery.Compilation.Resolution
import TableQuery.Context.Kind
import TableQuery.Formula.Tree.Printer

/-!
# Typing

Turns a resolved formula into an expression and checks the kinds of all operands
and arguments on the way.  A value of unknown kind passes every check.
-/

namespace TableQuery

/-! ## Faults -/

inductive TypeFault where
  | unresolved (name : String)
  | unknownFunction (name : String)
  | argument (function : Function) (index : Nat) (arg : Tree)
      (found : ValueKind)
  | operandNotNumber (op : BinaryOp) (found : ValueKind)
  | operandNotTruthValue (op : BinaryOp) (found : ValueKind)
  | notComparable (left right : ValueKind)
  | notNegatable (found : ValueKind)
  | complementNotTruthValue (found : ValueKind)
  | withoutAggregation
  | columnOutsideAggregation (column : Tree)
  | filterNotTruthValue (found : ValueKind)
  | aggregationIn (clauses : String)

def TypeFault.message : TypeFault → String
  | unresolved name => "[" ++ name ++ "] has not been resolved"
  | unknownFunction name => "unknown function " ++ name
  | argument function index arg found =>
    function.name ++ " expects " ++ (function.paramKind index).describe ++
      " for argument " ++ toString (index + 1) ++ ", but " ++ arg.render ++
      " is " ++ found.describe
  | operandNotNumber op found =>
    "'" ++ op.symbol ++ "' needs numbers, but got " ++ found.describe
  | operandNotTruthValue op found =>
    op.symbol ++ " needs true/false conditions, but got " ++ found.describe
  | notComparable left right =>
    "cannot compare " ++ left.describe ++ " with " ++ right.describe
  | notNegatable found => "cannot negate " ++ found.describe
  | complementNotTruthValue found =>
    "NOT needs a true/false condition, but got " ++ found.describe
  | withoutAggregation =>
    "an aggregation formula must use an aggregation such as Sum or Count"
  | columnOutsideAggregation column =>
    column.render ++ " must be inside an aggregation"
  | filterNotTruthValue found =>
    "a filter must be a true/false condition, not " ++ found.describe
  | aggregationIn clauses => clauses ++ " cannot use aggregations"

structure TypeError where
  fault : TypeFault
  span : Span

/-! ## Operators -/

namespace ValueKind

def fits (needed : ValueKind) (found : ValueKind) : Bool :=
  found == needed || found == unknown

end ValueKind

def BinaryOp.kindOf (op : BinaryOp) (left right : ValueKind) :
    Except TypeFault ValueKind :=
  if op.isArithmetic then
    match [left, right].find? (!ValueKind.numeric.fits ·) with
    | some found => .error (.operandNotNumber op found)
    | none => .ok .numeric
  else if op.isLogical then
    match [left, right].find? (!ValueKind.boolean.fits ·) with
    | some found => .error (.operandNotTruthValue op found)
    | none => .ok .boolean
  else if left.comparableWith right then .ok .boolean
  else .error (.notComparable left right)

def UnaryOp.kindOf (op : UnaryOp) (operand : ValueKind) :
    Except TypeFault ValueKind :=
  match op with
  | neg =>
    if ValueKind.numeric.fits operand then .ok .numeric
    else .error (.notNegatable operand)
  | not =>
    if ValueKind.boolean.fits operand then .ok .boolean
    else .error (.complementNotTruthValue operand)

def TypeFault.at {α : Type} (span : Span) :
    Except TypeFault α → Except TypeError α
  | .ok a => .ok a
  | .error fault => .error ⟨fault, span⟩

/-! ## Trees -/

namespace Tree

mutual

def typed (ctx : Context) : Tree → Except TypeError (Expression × ValueKind)
  | number value _ => .ok (.number value, .numeric)
  | string value _ => .ok (.string value, .text)
  | reference _ (some id) _ => .ok (.column id, id.kindIn ctx)
  | reference name none span => .error ⟨.unresolved name, span⟩
  | call name args span =>
    match Function.ofName? name with
    | none => .error ⟨.unknownFunction name, span⟩
    | some function =>
      match typedArgs ctx function 0 args with
      | .error e => .error e
      | .ok args =>
        let first := (args.head?.map Prod.snd).getD .unknown
        .ok (.call function (args.map Prod.fst), function.resultKind first)
  | binary op left right span =>
    match typed ctx left with
    | .error e => .error e
    | .ok (l, leftKind) =>
      match typed ctx right with
      | .error e => .error e
      | .ok (r, rightKind) =>
        match TypeFault.at span (op.kindOf leftKind rightKind) with
        | .error e => .error e
        | .ok kind => .ok (.binary op l r, kind)
  | unary op operand span =>
    match typed ctx operand with
    | .error e => .error e
    | .ok (x, operandKind) =>
      match TypeFault.at span (op.kindOf operandKind) with
      | .error e => .error e
      | .ok kind => .ok (.unary op x, kind)

/-- The arguments of a function from an index on, each checked before the next
is read. -/
def typedArgs (ctx : Context) (function : Function) :
    (index : Nat) → List Tree → Except TypeError (List (Expression × ValueKind))
  | _, [] => .ok []
  | index, arg :: args =>
    match typed ctx arg with
    | .error e => .error e
    | .ok (x, kind) =>
      if !(function.paramKind index).accepts kind then
        .error ⟨.argument function index arg kind, arg.span⟩
      else
        match typedArgs ctx function (index + 1) args with
        | .error e => .error e
        | .ok args => .ok ((x, kind) :: args)

end

end Tree

end TableQuery
