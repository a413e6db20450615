import TableQuery.Decimal.Power
import TableQuery.Evaluation.Error
import TableQuery.Regex.Search
import TableQuery.Text.Replace
import TableQuery.Text.Trim
import TableQuery.Unicode.CaseMap

/-!
# Operators and scalar functions

What operators and functions make of cells.  Logic has three values, with null
for what is not known.  Elsewhere a null operand or argument makes the result
null, except for the functions that look for nulls.
-/

namespace TableQuery.Scalar

/-! ## Truth -/

def truth : Cell → Except EvaluationError (Option Bool)
  | .null => .ok none
  | .boolean b => .ok (some b)
  | cell => .error (.fault (.notATruthValue cell))

def ofTruth : Option Bool → Cell
  | some b => .boolean b
  | none => .null

def conjunction : Option Bool → Option Bool → Option Bool
  | some false, _ | _, some false => some false
  | some true, some true => some true
  | _, _ => none

def disjunction : Option Bool → Option Bool → Option Bool
  | some true, _ | _, some true => some true
  | some false, some false => some false
  | _, _ => none

/-! ## Operators -/

def compare (left right : Cell) : Except EvaluationError Ordering :=
  match left.compare? right with
  | some order => .ok order
  | none => .error (.fault (.notComparable left right))

def comparisonHolds (op : BinaryOp) (order : Ordering) : Bool :=
  match op with
  | .eq => order.isEq
  | .ne => order.isNe
  | .lt => order.isLT
  | .gt => order.isGT
  | .le => order.isLE
  | _ => order.isGE

def arithmetic (op : BinaryOp) (a b : Decimal) : Except EvaluationError Cell :=
  let checked (result : Option Decimal) : Except EvaluationError Cell :=
    ((Computation.operator op).checked result).map .number
  match op with
  | .add => checked (a.add? b)
  | .sub => checked (a.sub? b)
  | .mul => checked (a.mul? b)
  | _ => if b.isZero then .ok .null else checked (a.div? b)

def applyBinary (op : BinaryOp) (left right : Cell) :
    Except EvaluationError Cell :=
  if op.isLogical then do
    let a ← truth left
    let b ← truth right
    return ofTruth (if op = .and then conjunction a b else disjunction a b)
  else if left.isNull || right.isNull then .ok .null
  else if op.isComparison then do
    return .boolean (comparisonHolds op (← compare left right))
  else
    match left, right with
    | .number a, .number b => arithmetic op a b
    | _, _ => .error (.fault (.operandsNotNumbers op left right))

def applyUnary (op : UnaryOp) (operand : Cell) : Except EvaluationError Cell :=
  match op with
  | .not => do return ofTruth ((← truth operand).map (!·))
  | .neg =>
    match operand with
    | .null => .ok .null
    | .number n => .ok (.number n.neg)
    | cell => .error (.fault (.notNegatable cell))

/-! ## Arguments -/

def text (f : Function) : Cell → Except EvaluationError (List Char)
  | .string s | .temporal s => .ok s.toList
  | .number n => .ok n.normalize.toChars
  | cell => .error (.fault (.argumentNotText f cell))

def number (f : Function) : Cell → Except EvaluationError Decimal
  | .number n => .ok n
  | cell => .error (.fault (.argumentNotNumber f cell))

def argument (f : Function) (args : List Cell) (index : Nat) :
    Except EvaluationError Cell :=
  match args[index]? with
  | some cell => .ok cell
  | none => .error (.fault (.missingArgument f index))

def textArgument (f : Function) (args : List Cell) (index : Nat) :
    Except EvaluationError (List Char) := do
  text f (← argument f args index)

def numberArgument (f : Function) (args : List Cell) (index : Nat) :
    Except EvaluationError Decimal := do
  number f (← argument f args index)

/-! ## Text -/

def ofChars (cs : List Char) : Cell := .string (String.ofList cs)

/-- The characters from a position, counted from 1, on: as many as a length
says.  Positions before the first count as the first, and negative lengths as
none. -/
def substring (cs : List Char) (start length : Decimal) : List Char :=
  let first := max 1 ((start.toInt64?).getD 1)
  let count := max 0 ((length.toInt64?).getD 0)
  (cs.drop (first.toNat - 1)).take count.toNat

def replaced (find replacement cs : List Char) : List Char :=
  if find.isEmpty then cs else Text.replaceAll find replacement cs

/-! ## Functions -/

def nullAware? (f : Function) (args : List Cell) :
    Option (Except EvaluationError Cell) :=
  match f with
  | .coalesce => some (.ok ((args.find? (!·.isNull)).getD .null))
  | .isNull =>
    some (.ok (.boolean (match args with
      | cell :: _ => cell.isNull
      | [] => true)))
  | .isEmpty =>
    some (.ok (.boolean (match args with
      | [] | .null :: _ => true
      | .string s :: _ => s.isEmpty
      | _ => false)))
  | .concat =>
    some do
      let parts ← (args.filter (!·.isNull)).mapM (text f)
      return ofChars parts.flatten
  | _ => none

def extract (cs pattern : List Char) : Except EvaluationError Cell :=
  match Regex.parse? (String.ofList pattern) with
  | none => .error (.fault (.invalidPattern (String.ofList pattern)))
  | some r =>
    match r.extract (String.ofList cs) with
    | some found => .ok (.string found)
    | none => .ok .null

def applyToValues (f : Function) (args : List Cell) :
    Except EvaluationError Cell :=
  let checked (result : Option Decimal) : Except EvaluationError Cell :=
    ((Computation.function f).checked result).map .number
  match f with
  | .lower => do
    return .string (Unicode.lowercase (String.ofList (← textArgument f args 0)))
  | .upper => do
    return .string (Unicode.uppercase (String.ofList (← textArgument f args 0)))
  | .trim => do return ofChars (Text.trim (← textArgument f args 0))
  | .ltrim => do return ofChars (Text.trimStart (← textArgument f args 0))
  | .rtrim => do return ofChars (Text.trimEnd (← textArgument f args 0))
  | .length => do return .ofCount (← textArgument f args 0).length
  | .substring => do
    let cs ← textArgument f args 0
    let start ← numberArgument f args 1
    return ofChars (substring cs start (← numberArgument f args 2))
  | .replace => do
    let cs ← textArgument f args 0
    let find ← textArgument f args 1
    return ofChars (replaced find (← textArgument f args 2) cs)
  | .regexExtract => do
    let cs ← textArgument f args 0
    extract cs (← textArgument f args 1)
  | .abs => do return .number (← numberArgument f args 0).abs
  | .ceil => do return .number (← numberArgument f args 0).ceil
  | .floor => do return .number (← numberArgument f args 0).floor
  | .round => do return .number (← numberArgument f args 0).round
  | .sqrt => do
    match (← numberArgument f args 0).sqrt? with
    | some root => return .number root
    | none => return .null
  | .power => do
    let base ← numberArgument f args 0
    checked (base.pow? (← numberArgument f args 1))
  | .exp => do checked (← numberArgument f args 0).exp?
  | .log => do
    let n ← numberArgument f args 0
    if n.le .zero then return .null else checked n.log10?
  | .contains => do
    let cs ← textArgument f args 0
    return .boolean (Text.isInfixOf (← textArgument f args 1) cs)
  | .startsWith => do
    let cs ← textArgument f args 0
    return .boolean ((← textArgument f args 1).isPrefixOf cs)
  | .endsWith => do
    let cs ← textArgument f args 0
    return .boolean ((← textArgument f args 1).isSuffixOf cs)
  | .between => do
    let x ← argument f args 0
    let low ← argument f args 1
    let high ← argument f args 2
    if (← compare low x).isLE then return .boolean (← compare x high).isLE
    else return .boolean false
  | f => .error (.unsupported (.aggregateOfRow f))

def applyFunction (f : Function) (args : List Cell) :
    Except EvaluationError Cell :=
  match nullAware? f args with
  | some result => result
  | none => if args.any Cell.isNull then .ok .null else applyToValues f args

end TableQuery.Scalar
