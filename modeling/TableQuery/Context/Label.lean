import TableQuery.Context.Basic

/-!
# Labels

Names for expressions that the user has not named.  They read like prose, with
the signs of print, and put parentheses where the reading would change without
them.
-/

namespace TableQuery

def Identifier.labelIn (ctx : Context) (id : Identifier) : String :=
  match ctx.lookup id with
  | some e => e.label
  | none =>
    match id with
    | .field id => "Field " ++ toString id
    | .foreign _ id => "Field " ++ toString id
    | .customColumn name => name
    | .stageColumn name _ => name
    | .aggregation index => "Aggregation " ++ toString (index + 1)

def BinaryOp.sign : BinaryOp → String
  | add => "+"
  | sub => "−"
  | mul => "×"
  | div => "÷"
  | eq => "="
  | ne => "≠"
  | lt => "<"
  | gt => ">"
  | le => "≤"
  | ge => "≥"
  | and => "and"
  | or => "or"

def UnaryOp.sign : UnaryOp → String
  | neg => "−"
  | not => "not "

namespace Label

/-- Whether an operand needs parentheses: if it binds more loosely than its
parent, or equally on the right. -/
def needsParens (child parent : Nat) (right : Bool) : Bool :=
  child < parent || (right && child == parent)

def parenthesized (needed : Bool) (text : String) : String :=
  if needed then "(" ++ text ++ ")" else text

/-- The words for a call of an aggregation, given the labels of its arguments;
other functions are shown as they are written. -/
def phrase (function : Function) (args : List String) : Option String :=
  let of (words : String) : String :=
    match args with
    | first :: _ => words ++ " of " ++ first
    | [] => words
  match function with
  | .count => some (of "Count")
  | .cumulativeCount => some (of "Cumulative count")
  | .sum => some (of "Sum")
  | .cumulativeSum => some (of "Cumulative sum")
  | .distinct => some (of "Distinct values")
  | .standardDeviation => some (of "Standard deviation")
  | .average => some (of "Average")
  | .min => some (of "Min")
  | .max => some (of "Max")
  | .median => some (of "Median")
  | .variance => some (of "Variance")
  | .percentile =>
    match args with
    | value :: rank :: _ => some ("Percentile " ++ rank ++ " of " ++ value)
    | _ => some (of "Percentile")
  | .share =>
    match args with
    | condition :: _ => some ("Share of rows where " ++ condition)
    | [] => some "Share"
  | .countIf =>
    match args with
    | condition :: _ => some ("Count where " ++ condition)
    | [] => some "Count"
  | .sumIf =>
    match args with
    | value :: condition :: _ =>
      some ("Sum of " ++ value ++ " where " ++ condition)
    | _ => some (of "Sum")
  | _ => none

def argument (e : Expression) (label : String) : String :=
  parenthesized (needsParens e.precedence Precedence.atom false) label

end Label

namespace Expression

mutual

def labelIn (ctx : Context) : Expression → String
  | number value => value.normalize.render
  | string value => "\"" ++ value ++ "\""
  | column id => id.labelIn ctx
  | call function args =>
    let labels := argLabels ctx args
    match Label.phrase function (List.zipWith Label.argument args labels) with
    | some words => words
    | none => function.name ++ "(" ++ ", ".intercalate labels ++ ")"
  | binary op left right =>
    Label.parenthesized (Label.needsParens left.precedence op.precedence false)
      (labelIn ctx left) ++
      " " ++ op.sign ++ " " ++
      Label.parenthesized
        (Label.needsParens right.precedence op.precedence true)
        (labelIn ctx right)
  | unary op operand =>
    op.sign ++
      Label.parenthesized
        (Label.needsParens operand.precedence op.precedence false)
        (labelIn ctx operand)
  | unrecognized _ => "Custom"

def argLabels (ctx : Context) : List Expression → List String
  | [] => []
  | arg :: args => labelIn ctx arg :: argLabels ctx args

end

end Expression

/-- The user's name for the aggregation, or else its label. -/
def Aggregation.nameIn (ctx : Context) (a : Aggregation) : String :=
  a.name.getD (a.expression.labelIn ctx)

end TableQuery
