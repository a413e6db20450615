/-!
# Formula operators

The twelve binary and two prefix operators with their spellings and binding
strengths.
-/

namespace TableQuery

/-! ## Binding strengths, from loose to tight -/

namespace Precedence

def disjunction : Nat := 1
def conjunction : Nat := 2
def negation : Nat := 3
def comparison : Nat := 4
def additive : Nat := 5
def multiplicative : Nat := 6
def minus : Nat := 7
def atom : Nat := 8

end Precedence

/-! ## Binary operators -/

inductive BinaryOp where
  | add
  | sub
  | mul
  | div
  | eq
  | ne
  | lt
  | gt
  | le
  | ge
  | and
  | or
deriving DecidableEq, Repr

namespace BinaryOp

def all : List BinaryOp := [add, sub, mul, div, eq, ne, lt, gt, le, ge, and, or]

def precedence : BinaryOp → Nat
  | or => Precedence.disjunction
  | and => Precedence.conjunction
  | eq | ne | lt | gt | le | ge => Precedence.comparison
  | add | sub => Precedence.additive
  | mul | div => Precedence.multiplicative

def isComparison (op : BinaryOp) : Bool :=
  op.precedence == Precedence.comparison

def isArithmetic : BinaryOp → Bool
  | add | sub | mul | div => true
  | _ => false

def isLogical : BinaryOp → Bool
  | and | or => true
  | _ => false

def symbol : BinaryOp → String
  | add => "+"
  | sub => "-"
  | mul => "*"
  | div => "/"
  | eq => "="
  | ne => "!="
  | lt => "<"
  | gt => ">"
  | le => "<="
  | ge => ">="
  | and => "AND"
  | or => "OR"

def wireTag : BinaryOp → String
  | and => "and"
  | or => "or"
  | op => op.symbol

def ofWireTag? (tag : String) : Option BinaryOp := all.find? (·.wireTag == tag)

end BinaryOp

/-! ## Prefix operators -/

inductive UnaryOp where
  | neg
  | not
deriving DecidableEq, Repr

namespace UnaryOp

def precedence : UnaryOp → Nat
  | neg => Precedence.minus
  | not => Precedence.negation

def symbol : UnaryOp → String
  | neg => "-"
  | not => "NOT "

end UnaryOp

end TableQuery
