import TableQuery.Formula.Tree

/-!
# Writing trees as formulas

The formula of a tree brackets every reference and writes only the parentheses
that the binding strengths call for.
-/

namespace TableQuery

namespace Tree

/-! ## Parentheses -/

inductive Side where
  | left
  | right
deriving DecidableEq, Repr

/-- Whether an operand of a given strength needs parentheses beside a binary
operator: if it binds more loosely, or equally on the right, or equally beside a
comparison, which does not chain. -/
def needsParens (child : Nat) (parent : BinaryOp) (side : Side) : Bool :=
  child < parent.precedence ||
    (child == parent.precedence && (side == .right || parent.isComparison))

def parenthesized (needed : Bool) (cs : List Char) : List Char :=
  if needed then '(' :: cs ++ [')'] else cs

/-! ## String literals -/

def literalChar : Char → List Char
  | '"' => ['\\', '"']
  | '\\' => ['\\', '\\']
  | '\n' => ['\\', 'n']
  | '\t' => ['\\', 't']
  | '\r' => ['\\', 'r']
  | c => [c]

def literalChars (s : String) : List Char :=
  '"' :: s.toList.flatMap literalChar ++ ['"']

/-! ## Trees -/

mutual

def toChars : Tree → List Char
  | number value _ => value.toChars
  | string value _ => literalChars value
  | reference name _ _ => '[' :: name.toList ++ [']']
  | call function args _ => function.toList ++ '(' :: argChars args ++ [')']
  | binary op left right _ =>
    parenthesized (needsParens left.precedence op .left) (toChars left) ++
      ' ' :: op.symbol.toList ++
      ' ' :: parenthesized (needsParens right.precedence op .right)
        (toChars right)
  | unary op operand _ =>
    op.symbol.toList ++ parenthesized (operand.precedence < op.precedence)
      (toChars operand)

def argChars : List Tree → List Char
  | [] => []
  | [arg] => toChars arg
  | arg :: args => toChars arg ++ ',' :: ' ' :: argChars args

end

def render (t : Tree) : String := String.ofList t.toChars

end Tree

end TableQuery
