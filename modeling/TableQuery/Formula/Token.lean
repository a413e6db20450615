import TableQuery.Formula.Operator
import TableQuery.Formula.Span
import TableQuery.Text.Quoted

/-!
# Formula tokens

The tokens of a formula, each with the span of text that it was read from.
-/

namespace TableQuery

inductive Token where
  | number (digits : String)
  | string (value : String)
  | word (name : String)
  | field (name : String)
  | operator (op : BinaryOp)
  | not
  | leftParen
  | rightParen
  | comma
deriving DecidableEq, Repr

namespace Token

def infixOp? : Token → Option BinaryOp
  | operator op => some op
  | _ => none

def toText : Token → String
  | number digits => digits
  | string value => Text.quote value
  | word name => name
  | field name => "[" ++ name ++ "]"
  | operator op => op.symbol
  | not => "NOT"
  | leftParen => "("
  | rightParen => ")"
  | comma => ","

end Token

structure Lexeme where
  token : Token
  span : Span
deriving DecidableEq, Repr

end TableQuery
