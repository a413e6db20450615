import TableQuery.Formula.Token.Lexer
import TableQuery.Formula.Tree

/-!
# Reading formulas as trees

Binding strengths, from loose to tight: `OR`, `AND`, `NOT`, comparisons, `+ -`,
`* /`, unary minus, and then calls, references, literals and parentheses.
Binary operators group to the left, except comparisons, which do not chain.
Expressions may nest up to a given number of levels.
-/

namespace TableQuery

/-! ## Errors -/

inductive Expected where
  | expression
  | operatorOrEnd
  | nestingAtMost (levels : Nat)
  | unchainedComparison
  | shorterNumber
  | token (token : Token)
  | commaOrParen
deriving DecidableEq, Repr

def Expected.describe : Expected → String
  | expression => "an expression"
  | operatorOrEnd => "an operator or end of input"
  | nestingAtMost levels =>
    "an expression nested at most " ++ toString levels ++ " levels deep"
  | unchainedComparison =>
    "AND, OR, or end of input (comparisons cannot be chained)"
  | shorterNumber => "a number that fits in 28 significant digits"
  | token t => "'" ++ t.toText ++ "'"
  | commaOrParen => "',' or ')'"

structure ParseError where
  expected : Expected
  found : Option Token
  span : Span
deriving DecidableEq, Repr

namespace ParseError

def foundText (e : ParseError) : String :=
  match e.found with
  | some token => "'" ++ token.toText ++ "'"
  | none => "end of input"

def reason (e : ParseError) : String :=
  "expected " ++ e.expected.describe ++ ", found " ++ e.foundText

def message (e : ParseError) : String := e.reason ++ " at " ++ e.span.toText

end ParseError

inductive FormulaError where
  | lex (e : LexError)
  | parse (e : ParseError)
deriving DecidableEq, Repr

namespace FormulaError

def span : FormulaError → Span
  | lex e => e.span
  | parse e => e.span

def reason : FormulaError → String
  | lex e => e.fault.message
  | parse e => e.reason

def message : FormulaError → String
  | lex e => e.message
  | parse e => e.message

end FormulaError

namespace Tree

abbrev Parsed := Except ParseError (Tree × List Lexeme)

/-- A parser for expressions one level further down, given the least strength
that an operator in it may have. -/
abbrev Nested := Nat → List Lexeme → Parsed

def errorAt (sourceEnd : Nat) (rest : List Lexeme) (expected : Expected) :
    ParseError :=
  match rest with
  | lexeme :: _ => ⟨expected, some lexeme.token, lexeme.span⟩
  | [] => ⟨expected, none, ⟨sourceEnd, sourceEnd⟩⟩

/-! ## Operands -/

def closing (sourceEnd : Nat) :
    List Lexeme → Except ParseError (Span × List Lexeme)
  | ⟨.rightParen, span⟩ :: rest => .ok (span, rest)
  | rest => .error (errorAt sourceEnd rest (.token .rightParen))

def arguments (sourceEnd : Nat) (nested : Nested) :
    (fuel : Nat) → List Lexeme → Except ParseError (List Tree × List Lexeme)
  | 0, rest => .error (errorAt sourceEnd rest .commaOrParen)
  | fuel + 1, lexemes =>
    match nested 0 lexemes with
    | .error e => .error e
    | .ok (arg, rest) =>
      match rest with
      | ⟨.comma, _⟩ :: more =>
        match arguments sourceEnd nested fuel more with
        | .error e => .error e
        | .ok (args, rest) => .ok (arg :: args, rest)
      | ⟨.rightParen, _⟩ :: _ => .ok ([arg], rest)
      | _ => .error (errorAt sourceEnd rest .commaOrParen)

def callOperand (sourceEnd : Nat) (nested : Nested) (name : String)
    (start : Span) (lexemes : List Lexeme) : Parsed :=
  match lexemes with
  | ⟨.rightParen, stop⟩ :: rest => .ok (call name [] (start.join stop), rest)
  | _ =>
    match arguments sourceEnd nested (lexemes.length + 1) lexemes with
    | .error e => .error e
    | .ok (args, rest) =>
      match closing sourceEnd rest with
      | .error e => .error e
      | .ok (stop, rest) => .ok (call name args (start.join stop), rest)

def prefixOperand (nested : Nested) (op : UnaryOp) (start : Span)
    (lexemes : List Lexeme) : Parsed :=
  match nested op.precedence lexemes with
  | .error e => .error e
  | .ok (operand, rest) =>
    .ok (unary op operand (start.join operand.span), rest)

def operand (sourceEnd : Nat) (nested : Nested) (lexemes : List Lexeme) :
    Parsed :=
  match lexemes with
  | [] => .error (errorAt sourceEnd lexemes .expression)
  | ⟨token, start⟩ :: rest =>
    match token with
    | .number digits =>
      match Decimal.ofString? digits with
      | some value => .ok (number value start, rest)
      | none => .error (errorAt sourceEnd lexemes .shorterNumber)
    | .string value => .ok (string value start, rest)
    | .field name => .ok (reference name none start, rest)
    | .word name =>
      match rest with
      | ⟨.leftParen, _⟩ :: rest => callOperand sourceEnd nested name start rest
      | _ => .ok (reference name none start, rest)
    | .leftParen =>
      match nested 0 rest with
      | .error e => .error e
      | .ok (inner, rest) =>
        match closing sourceEnd rest with
        | .error e => .error e
        | .ok (stop, rest) => .ok (inner.withSpan (start.join stop), rest)
    | .operator .sub => prefixOperand nested .neg start rest
    | .not => prefixOperand nested .not start rest
    | _ => .error (errorAt sourceEnd lexemes .expression)

/-! ## Binary operators -/

/-- Extends `left` by the binary operators that follow it, `fuel` at most, as
long as they bind at least as tightly as `least`. -/
def operators (sourceEnd : Nat) (nested : Nested) (least : Nat) :
    (fuel : Nat) → (left : Tree) → (afterComparison : Bool) →
      List Lexeme → Parsed
  | 0, left, _, lexemes => .ok (left, lexemes)
  | _ + 1, left, _, [] => .ok (left, [])
  | fuel + 1, left, afterComparison, ⟨token, span⟩ :: rest =>
    match token.infixOp? with
    | none => .ok (left, ⟨token, span⟩ :: rest)
    | some op =>
      if op.precedence < least then .ok (left, ⟨token, span⟩ :: rest)
      else if op.isComparison && afterComparison then
        .error (errorAt sourceEnd (⟨token, span⟩ :: rest) .unchainedComparison)
      else
        match nested (op.precedence + 1) rest with
        | .error e => .error e
        | .ok (right, rest) =>
          operators sourceEnd nested least fuel
            (binary op left right (left.span.join right.span))
            op.isComparison rest

/-! ## Expressions -/

/-- An expression that may nest `levels` deep where `maxDepth` levels are
allowed in all. -/
def expression (sourceEnd maxDepth : Nat) : (levels : Nat) → Nested
  | 0, _, lexemes =>
  .error (errorAt sourceEnd lexemes (.nestingAtMost maxDepth))
  | levels + 1, least, lexemes =>
    let nested := expression sourceEnd maxDepth levels
    match operand sourceEnd nested lexemes with
    | .error e => .error e
    | .ok (left, rest) =>
      operators sourceEnd nested least rest.length left false rest

def ofLexemes (sourceEnd maxDepth : Nat) (lexemes : List Lexeme) :
    Except ParseError Tree :=
  match expression sourceEnd maxDepth maxDepth 0 lexemes with
  | .error e => .error e
  | .ok (tree, []) => .ok tree
  | .ok (_, rest) => .error (errorAt sourceEnd rest .operatorOrEnd)

def defaultMaxDepth : Nat := 64

def parseWithin (maxDepth : Nat) (source : String) : Except FormulaError Tree :=
  match Token.scan source with
  | .error e => .error (.lex e)
  | .ok lexemes =>
    match ofLexemes source.utf8ByteSize maxDepth lexemes with
    | .error e => .error (.parse e)
    | .ok tree => .ok tree

def parse (source : String) : Except FormulaError Tree :=
  parseWithin defaultMaxDepth source

end Tree

end TableQuery
