import TableQuery.Decimal.Basic
import TableQuery.Formula.Operator
import TableQuery.Formula.Span
import TableQuery.Identifier

/-!
# Formula trees

A formula as a tree in which every node has the span of its source.  A reference
starts out as the text between its brackets; resolving it adds the column that
it means.  Two trees are the same when they differ at most in spans and in the
scales of numbers (`Tree.same`).
-/

namespace TableQuery

inductive Tree where
  | number (value : Decimal) (span : Span)
  | string (value : String) (span : Span)
  | reference (name : String) (target : Option Identifier) (span : Span)
  | call (function : String) (args : List Tree) (span : Span)
  | binary (op : BinaryOp) (left right : Tree) (span : Span)
  | unary (op : UnaryOp) (operand : Tree) (span : Span)
deriving Repr

namespace Tree

instance : Inhabited Tree := ⟨number default ⟨0, 0⟩⟩

def span : Tree → Span
  | number _ span | string _ span | reference _ _ span | call _ _ span
  | binary _ _ _ span | unary _ _ span => span

def withSpan (span : Span) : Tree → Tree
  | number value _ => number value span
  | string value _ => string value span
  | reference name target _ => reference name target span
  | call function args _ => call function args span
  | binary op left right _ => binary op left right span
  | unary op operand _ => unary op operand span

def precedence : Tree → Nat
  | binary op _ _ _ => op.precedence
  | unary op _ _ => op.precedence
  | _ => Precedence.atom

mutual

def same : Tree → Tree → Bool
  | number a _, number b _ => a.sameValue b
  | string a _, string b _ => a == b
  | reference a s _, reference b t _ => a == b && s == t
  | call f as _, call g bs _ => f == g && sameArgs as bs
  | binary op a b _, binary op' a' b' _ => op == op' && same a a' && same b b'
  | unary op a _, unary op' a' _ => op == op' && same a a'
  | _, _ => false

def sameArgs : List Tree → List Tree → Bool
  | [], [] => true
  | a :: as, b :: bs => same a b && sameArgs as bs
  | _, _ => false

end

mutual

def references : Tree → List String
  | number _ _ | string _ _ => []
  | reference name _ _ => [name]
  | call _ args _ => argReferences args
  | binary _ left right _ => references left ++ references right
  | unary _ operand _ => references operand

def argReferences : List Tree → List String
  | [] => []
  | arg :: args => references arg ++ argReferences args

end

end Tree

end TableQuery
