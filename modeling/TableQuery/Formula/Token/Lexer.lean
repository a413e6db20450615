import TableQuery.Formula.Token

/-!
# Reading tokens

`Token.scan` cuts a formula into tokens, skipping white space.  The first
character decides what kind of token follows; each kind then takes as many
characters as it can.
-/

namespace TableQuery

/-! ## Failures -/

inductive LexFault where
  | unterminatedString
  | unterminatedReference
  | unexpected (c : Char)
  | unexpectedEnd
deriving DecidableEq, Repr

def LexFault.message : LexFault → String
  | unterminatedString => "unterminated string literal"
  | unterminatedReference => "unterminated field reference"
  | unexpected c => "unexpected character '" ++ String.singleton c ++ "'"
  | unexpectedEnd => "unexpected end of input"

structure LexError where
  fault : LexFault
  span : Span
deriving DecidableEq, Repr

def LexError.message (e : LexError) : String :=
  e.fault.message ++ " at " ++ e.span.toText

namespace Token

/-! ## Families of tokens -/

def isWordStart (c : Char) : Bool := Unicode.isIdentifierStart c || c == '_'

/-- A bare word; the logical keywords are words in any ASCII case. -/
def ofWord (name : List Char) : Token :=
  match name.map Char.toLower with
  | ['a', 'n', 'd'] => operator .and
  | ['o', 'r'] => operator .or
  | ['n', 'o', 't'] => not
  | _ => word (String.ofList name)

def numberChars (cs : List Char) : List Char :=
  let whole := cs.takeWhile Char.isDigit
  match cs.dropWhile Char.isDigit with
  | '.' :: rest =>
    let fraction := rest.takeWhile Char.isDigit
    if fraction.isEmpty then whole else whole ++ '.' :: fraction
  | _ => whole

def unescape : Char → Char
  | 'n' => '\n'
  | 't' => '\t'
  | 'r' => '\r'
  | c => c

/-- The text after an opening quote: its value, the number of characters read,
and whether the closing quote was among them. -/
structure QuotedBody where
  value : List Char
  length : Nat
  closed : Bool
deriving DecidableEq, Repr

def quotedBody (quote : Char) : List Char → QuotedBody
  | [] => ⟨[], 0, false⟩
  | '\\' :: [] => ⟨[], 0, false⟩
  | '\\' :: c :: rest =>
    let body := quotedBody quote rest
    ⟨unescape c :: body.value, body.length + 2, body.closed⟩
  | c :: rest =>
    if c = quote then ⟨[], 1, true⟩
    else
      let body := quotedBody quote rest
      ⟨c :: body.value, body.length + 1, body.closed⟩

/-- Where a token could not be read: how many characters before the fault, and
how many in it. -/
structure Stuck where
  fault : LexFault
  skipped : Nat
  width : Nat
deriving DecidableEq, Repr

def head (c : Char) (rest : List Char) : Except Stuck (Token × Nat) :=
  if isWordStart c then
    let more := rest.takeWhile Unicode.isIdentifierContinue
    .ok (ofWord (c :: more), more.length)
  else if c.isDigit then
    let digits := numberChars (c :: rest)
    .ok (number (String.ofList digits), digits.length - 1)
  else
    match c with
    | '"' | '\'' =>
      let body := quotedBody c rest
      if body.closed then .ok (string (String.ofList body.value), body.length)
      else .error ⟨.unterminatedString, 0, body.length + 1⟩
    | '[' =>
      let name := rest.takeWhile (· != ']')
      if name.length < rest.length then
        .ok (field (String.ofList name), name.length + 1)
      else .error ⟨.unterminatedReference, 0, name.length + 1⟩
    | '!' =>
      match rest with
      | '=' :: _ => .ok (operator .ne, 1)
      | other :: _ => .error ⟨.unexpected other, 1, 1⟩
      | [] => .error ⟨.unexpectedEnd, 1, 0⟩
    | '<' =>
      match rest with
      | '=' :: _ => .ok (operator .le, 1)
      | _ => .ok (operator .lt, 0)
    | '>' =>
      match rest with
      | '=' :: _ => .ok (operator .ge, 1)
      | _ => .ok (operator .gt, 0)
    | '=' => .ok (operator .eq, 0)
    | '+' => .ok (operator .add, 0)
    | '-' => .ok (operator .sub, 0)
    | '*' => .ok (operator .mul, 0)
    | '/' => .ok (operator .div, 0)
    | '(' => .ok (leftParen, 0)
    | ')' => .ok (rightParen, 0)
    | ',' => .ok (comma, 0)
    | _ => .error ⟨.unexpected c, 0, 1⟩

/-! ## Whole texts -/

def scanFrom (position : Nat) : List Char → Except LexError (List Lexeme)
  | [] => .ok []
  | c :: rest =>
    if Unicode.isWhiteSpace c then scanFrom (position + c.utf8Size) rest
    else
      match head c rest with
      | .error stuck =>
        let start := position + byteLength ((c :: rest).take stuck.skipped)
        let stop :=
          start + byteLength (((c :: rest).drop stuck.skipped).take stuck.width)
        .error ⟨stuck.fault, ⟨start, stop⟩⟩
      | .ok (token, more) =>
        let stop := position + c.utf8Size + byteLength (rest.take more)
        match scanFrom stop (rest.drop more) with
        | .error e => .error e
        | .ok lexemes => .ok (⟨token, ⟨position, stop⟩⟩ :: lexemes)
termination_by cs => cs.length
decreasing_by
  all_goals simp only [List.length_cons, List.length_drop]; omega

def scan (source : String) : Except LexError (List Lexeme) :=
  scanFrom 0 source.toList

end Token

end TableQuery
