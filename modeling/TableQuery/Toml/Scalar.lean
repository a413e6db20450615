import TableQuery.Json.Reader
import TableQuery.Text.Replace
import TableQuery.Word

/-!
# TOML scalars

Keys, strings, numbers and dates of TOML documents.  Each reader takes what it
can from the front of the text and gives the rest.
-/

namespace TableQuery.Toml

/-! ## Blanks and lines -/

def isBlank (c : Char) : Bool := c == ' ' || c == '\t'

def skipBlanks (cs : List Char) : List Char := cs.dropWhile isBlank

def isPlain (c : Char) : Bool := c == '\t' || (32 ≤ c.toNat && c.toNat != 127)

def newline? : List Char → Option (List Char)
  | '\n' :: rest => some rest
  | '\r' :: '\n' :: rest => some rest
  | _ => none

def skipComment (cs : List Char) : List Char :=
  match skipBlanks cs with
  | '#' :: rest => rest.dropWhile isPlain
  | rest => rest

def skipLines : (fuel : Nat) → List Char → List Char
  | 0, cs => cs
  | fuel + 1, cs =>
    let rest := skipComment cs
    match newline? rest with
    | some rest => skipLines fuel rest
    | none => rest

def skipSpace (cs : List Char) : List Char := skipLines (cs.length + 1) cs

/-! ## Escapes -/

def codePoint? (count : Nat) (cs : List Char) : Option (Char × List Char) := do
  let digits ← (cs.take count).mapM Json.hexDigit?
  let n := digits.foldl (fun n d => 16 * n + d) 0
  if digits.length = count ∧ n.isValidChar then
    some (Char.ofNat n, cs.drop count)
  else none

def escape? : List Char → Option (Char × List Char)
  | '"' :: rest => some ('"', rest)
  | '\\' :: rest => some ('\\', rest)
  | 'b' :: rest => some ('\x08', rest)
  | 'e' :: rest => some ('\x1b', rest)
  | 'f' :: rest => some ('\x0c', rest)
  | 'n' :: rest => some ('\n', rest)
  | 'r' :: rest => some ('\r', rest)
  | 't' :: rest => some ('\t', rest)
  | 'x' :: rest => codePoint? 2 rest
  | 'u' :: rest => codePoint? 4 rest
  | 'U' :: rest => codePoint? 8 rest
  | _ => none

/-! ## Strings -/

def stringBody? (quote : Char) (literal : Bool) :
    (fuel : Nat) → (before : List Char) → List Char →
      Option (String × List Char)
  | 0, _, _ => none
  | _ + 1, _, [] => none
  | fuel + 1, before, c :: rest =>
    if c = quote then some (String.ofList before.reverse, rest)
    else if c = '\\' ∧ !literal then
      match escape? rest with
      | some (c, rest) => stringBody? quote literal fuel (c :: before) rest
      | none => none
    else if isPlain c then stringBody? quote literal fuel (c :: before) rest
    else none

def continuation? (cs : List Char) : Option (List Char) :=
  (newline? (skipBlanks cs)).map fun rest => rest.dropWhile fun c =>
    isBlank c || c == '\n' || c == '\r'

/-- The rest of a string over several lines.  It ends at three quotes, and up to
two more before them belong to it. -/
def linesBody? (quote : Char) (literal : Bool) :
    (fuel : Nat) → (before : List Char) → List Char →
      Option (String × List Char)
  | 0, _, _ => none
  | _ + 1, _, [] => none
  | fuel + 1, before, c :: rest =>
    if c = quote then
      let run := min 5 (1 + (rest.takeWhile (· == quote)).length)
      if run < 3 then linesBody? quote literal fuel (c :: before) rest
      else
        some (String.ofList (before.reverse ++ List.replicate (run - 3) quote),
          rest.drop (run - 1))
    else if c = '\\' ∧ !literal then
      match continuation? rest with
      | some rest => linesBody? quote literal fuel before rest
      | none =>
        match escape? rest with
        | some (c, rest) => linesBody? quote literal fuel (c :: before) rest
        | none => none
    else
      match newline? (c :: rest) with
      | some rest => linesBody? quote literal fuel ('\n' :: before) rest
      | none =>
        if isPlain c then linesBody? quote literal fuel (c :: before) rest
        else none

def lineString? : List Char → Option (String × List Char)
  | '"' :: rest => stringBody? '"' false (rest.length + 1) [] rest
  | '\'' :: rest => stringBody? '\'' true (rest.length + 1) [] rest
  | _ => none

/-- A string on one line or over several, which starts behind its first line
end. -/
def string? : List Char → Option (String × List Char)
  | '"' :: '"' :: '"' :: rest =>
    linesBody? '"' false (rest.length + 1) [] ((newline? rest).getD rest)
  | '\'' :: '\'' :: '\'' :: rest =>
    linesBody? '\'' true (rest.length + 1) [] ((newline? rest).getD rest)
  | cs => lineString? cs

/-! ## Keys -/

def isBareKeyChar (c : Char) : Bool := c.isAlphanum || c == '_' || c == '-'

def simpleKey? (cs : List Char) : Option (String × List Char) :=
  match lineString? cs with
  | some read => some read
  | none =>
    let name := cs.takeWhile isBareKeyChar
    if name.isEmpty then none
    else some (String.ofList name, cs.dropWhile isBareKeyChar)

def keys? : (fuel : Nat) → List Char → Option (List String × List Char)
  | 0, _ => none
  | fuel + 1, cs => do
    let (key, rest) ← simpleKey? (skipBlanks cs)
    match skipBlanks rest with
    | '.' :: rest => do
      let (path, rest) ← keys? fuel rest
      return (key :: path, rest)
    | rest => return ([key], rest)

def path? (cs : List Char) : Option (List String × List Char) :=
  keys? (cs.length + 1) cs

/-! ## Numbers -/

/-- Digits, with underscores only between two of them, as digits alone. -/
def digits? (isDigit : Char → Bool) (cs : List Char) : Option (List Char) :=
  let parts := Text.splitOn '_' cs
  if parts.all fun part => !part.isEmpty && part.all isDigit then
    some parts.flatten
  else none

def wholeDigits? (cs : List Char) : Option (List Char) :=
  (digits? Char.isDigit cs).filter fun ds => ds == ['0'] || ds.head? != some '0'

def splitSign : List Char → Bool × List Char
  | '-' :: rest => (true, rest)
  | '+' :: rest => (false, rest)
  | cs => (false, cs)

def valueIn (base : Nat) (ds : List Char) : Nat :=
  ds.foldl (fun n c => base * n + (Json.hexDigit? c).getD 0) 0

def digitsIn? (base : Nat) (cs : List Char) : Option Int :=
  (digits? (fun c => (Json.hexDigit? c).any (· < base)) cs).map fun ds =>
    valueIn base ds

def integer? : List Char → Option Int
  | '0' :: 'x' :: cs => digitsIn? 16 cs
  | '0' :: 'o' :: cs => digitsIn? 8 cs
  | '0' :: 'b' :: cs => digitsIn? 2 cs
  | cs => do
    let (negative, cs) := splitSign cs
    let n : Int := valueIn 10 (← wholeDigits? cs)
    return if negative then -n else n

def fits128 (n : Int) : Bool :=
  Word.fitsSigned Word.size128 n || (0 ≤ n && n < Word.size128)

def isExponentMark (c : Char) : Bool := c == 'e' || c == 'E'

def isFraction : List Char → Bool
  | [] => true
  | '.' :: cs => (digits? Char.isDigit cs).isSome
  | _ => false

def isFloat (cs : List Char) : Bool :=
  let (_, cs) := splitSign cs
  if cs == "inf".toList || cs == "nan".toList then true
  else
    let mantissa := cs.takeWhile (!isExponentMark ·)
    let exponent := cs.dropWhile (!isExponentMark ·)
    let whole := mantissa.takeWhile (· != '.')
    let fraction := mantissa.dropWhile (· != '.')
    (wholeDigits? whole).isSome && isFraction fraction &&
      (match exponent with
        | [] => !fraction.isEmpty
        | _ :: power => (digits? Char.isDigit (splitSign power).2).isSome)

/-! ## Dates and times -/

def fixedDigits? (count : Nat) (cs : List Char) : Option (Nat × List Char) :=
  let ds := cs.take count
  if ds.length = count && ds.all Char.isDigit then
    some (valueIn 10 ds, cs.drop count)
  else none

def after? (c : Char) : List Char → Option (List Char)
  | d :: rest => if c = d then some rest else none
  | [] => none

def daysInMonth (year month : Nat) : Nat :=
  if month = 2 then
    if year % 4 = 0 ∧ (year % 100 ≠ 0 ∨ year % 400 = 0) then 29 else 28
  else if month = 4 ∨ month = 6 ∨ month = 9 ∨ month = 11 then 30
  else 31

def date? (cs : List Char) : Option (List Char) := do
  let (year, cs) ← fixedDigits? 4 cs
  let (month, cs) ← fixedDigits? 2 (← after? '-' cs)
  let (day, cs) ← fixedDigits? 2 (← after? '-' cs)
  if 1 ≤ month ∧ month ≤ 12 ∧ 1 ≤ day ∧ day ≤ daysInMonth year month then
    some cs
  else none

def seconds? : List Char → Option (List Char)
  | ':' :: cs => do
    let (second, cs) ← fixedDigits? 2 cs
    if 60 < second then none
    else
      match cs with
      | '.' :: cs =>
        if (cs.takeWhile Char.isDigit).isEmpty then none
        else some (cs.dropWhile Char.isDigit)
      | cs => some cs
  | cs => some cs

def time? (cs : List Char) : Option (List Char) := do
  let (hour, cs) ← fixedDigits? 2 cs
  let (minute, cs) ← fixedDigits? 2 (← after? ':' cs)
  if hour < 24 ∧ minute < 60 then seconds? cs else none

def isOffset : List Char → Bool
  | [] | ['Z'] | ['z'] => true
  | sign :: cs =>
    (sign == '+' || sign == '-') &&
      (match fixedDigits? 2 cs with
        | some (hour, ':' :: cs) =>
          (match fixedDigits? 2 cs with
            | some (minute, []) => hour < 24 && minute < 60
            | _ => false)
        | _ => false)

def isDateTime (cs : List Char) : Bool :=
  match date? cs with
  | some [] => true
  | some (mark :: cs) =>
    (mark == 'T' || mark == 't' || mark == ' ') && (time? cs).any isOffset
  | none => time? cs == some []

/-! ## Words -/

def isWordChar (c : Char) : Bool :=
  c.isAlphanum || c == '_' || c == '-' || c == '+' || c == '.' || c == ':'

/-- The characters of a scalar that is no string.  A date and a time may have a
blank between them. -/
def word (cs : List Char) : List Char × List Char :=
  let first := cs.takeWhile isWordChar
  match cs.dropWhile isWordChar with
  | ' ' :: rest =>
    if date? first == some [] && rest.head?.any Char.isDigit then
      (first ++ ' ' :: rest.takeWhile isWordChar, rest.dropWhile isWordChar)
    else (first, ' ' :: rest)
  | rest => (first, rest)

/-- The value that a word writes.  An integer stands as its decimal digits, any
other number as it is written, and a date or time as an object with one
member. -/
def wordValue? (cs : List Char) : Option Json :=
  if cs == "true".toList then some (.bool true)
  else if cs == "false".toList then some (.bool false)
  else
    match integer? cs with
    | some n => if fits128 n then some (.number (toString n)) else none
    | none =>
      if isFloat cs then some (.number (String.ofList cs))
      else if isDateTime cs then
        some (.object [("datetime", .string (String.ofList cs))])
      else none

def scalar? (cs : List Char) : Option (Json × List Char) :=
  match string? cs with
  | some (s, rest) => some (.string s, rest)
  | none =>
    let (text, rest) := word cs
    (wordValue? text).map (·, rest)

end TableQuery.Toml
