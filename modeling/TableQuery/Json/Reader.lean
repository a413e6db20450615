import TableQuery.Json.Basic

/-!
# Reading JSON

A strict reader.  A number keeps its text, except that its exponent gets a small
`e` and a sign; a repeated key keeps its first place and its last value; and
arrays and objects may not nest as deep as a given limit.  Each reader gives
what it read and the rest of the text.
-/

namespace TableQuery.Json

def isBlank (c : Char) : Bool := c == ' ' || c == '\n' || c == '\r' || c == '\t'

def skipBlanks (cs : List Char) : List Char := cs.dropWhile isBlank

/-! ## Strings -/

def hexDigit? (c : Char) : Option Nat :=
  if c.isDigit then some (c.toNat - '0'.toNat)
  else if 'a' ≤ c && c ≤ 'f' then some (c.toNat - 'a'.toNat + 10)
  else if 'A' ≤ c && c ≤ 'F' then some (c.toNat - 'A'.toNat + 10)
  else none

def codeUnit? : List Char → Option (Nat × List Char)
  | a :: b :: c :: d :: rest => do
    let a ← hexDigit? a
    let b ← hexDigit? b
    let c ← hexDigit? c
    let d ← hexDigit? d
    some (((a * 16 + b) * 16 + c) * 16 + d, rest)
  | _ => none

/-- The character of an escape whose backslash and `u` have been read.  Halves
of a pair count only together. -/
def codePoint? (cs : List Char) : Option (Char × List Char) := do
  let (high, rest) ← codeUnit? cs
  if high < 0xd800 || 0xe000 ≤ high then some (Char.ofNat high, rest)
  else if 0xdc00 ≤ high then none
  else
    match rest with
    | '\\' :: 'u' :: rest =>
      let (low, rest) ← codeUnit? rest
      if 0xdc00 ≤ low && low < 0xe000 then
        some (Char.ofNat (0x10000 + (high - 0xd800) * 0x400 + (low - 0xdc00)),
          rest)
      else none
    | _ => none

def escape? : List Char → Option (Char × List Char)
  | '"' :: rest => some ('"', rest)
  | '\\' :: rest => some ('\\', rest)
  | '/' :: rest => some ('/', rest)
  | 'b' :: rest => some ('\x08', rest)
  | 'f' :: rest => some ('\x0c', rest)
  | 'n' :: rest => some ('\n', rest)
  | 'r' :: rest => some ('\r', rest)
  | 't' :: rest => some ('\t', rest)
  | 'u' :: rest => codePoint? rest
  | _ => none

def stringBody? : (fuel : Nat) → (before : List Char) → List Char →
    Option (String × List Char)
  | 0, _, _ => none
  | _ + 1, _, [] => none
  | _ + 1, before, '"' :: rest => some (String.ofList before.reverse, rest)
  | fuel + 1, before, '\\' :: rest =>
    match escape? rest with
    | none => none
    | some (c, rest) => stringBody? fuel (c :: before) rest
  | fuel + 1, before, c :: rest =>
    if c.toNat < 32 then none else stringBody? fuel (c :: before) rest

def readString? : List Char → Option (String × List Char)
  | '"' :: rest => stringBody? (rest.length + 1) [] rest
  | _ => none

/-! ## Numbers -/

def wholePart? : List Char → Option (List Char × List Char)
  | '0' :: rest => some (['0'], rest)
  | cs =>
    let digits := cs.takeWhile Char.isDigit
    if digits.isEmpty then none else some (digits, cs.dropWhile Char.isDigit)

def fractionPart? : List Char → Option (List Char × List Char)
  | '.' :: rest =>
    let digits := rest.takeWhile Char.isDigit
    if digits.isEmpty then none
    else some ('.' :: digits, rest.dropWhile Char.isDigit)
  | rest => some ([], rest)

def exponentPart? : List Char → Option (List Char × List Char)
  | [] => some ([], [])
  | c :: rest =>
    if c == 'e' || c == 'E' then
      let (sign, rest) := match rest with
        | '-' :: rest => ('-', rest)
        | '+' :: rest => ('+', rest)
        | rest => ('+', rest)
      let digits := rest.takeWhile Char.isDigit
      if digits.isEmpty then none
      else some ('e' :: sign :: digits, rest.dropWhile Char.isDigit)
    else some ([], c :: rest)

def readNumber? (cs : List Char) : Option (String × List Char) := do
  let (sign, cs) := match cs with
    | '-' :: rest => (['-'], rest)
    | cs => ([], cs)
  let (whole, cs) ← wholePart? cs
  let (fraction, cs) ← fractionPart? cs
  let (exponent, cs) ← exponentPart? cs
  some (String.ofList (sign ++ whole ++ fraction ++ exponent), cs)

/-! ## Values -/

def items? (readValue? : List Char → Option (Json × List Char)) :
    (fuel : Nat) → List Char → Option (List Json × List Char)
  | 0, _ => none
  | fuel + 1, cs =>
    match readValue? cs with
    | none => none
    | some (item, rest) =>
      match skipBlanks rest with
      | ',' :: rest => (items? readValue? fuel rest).map fun (items, rest) =>
        (item :: items, rest)
      | ']' :: rest => some ([item], rest)
      | _ => none

def members? (readValue? : List Char → Option (Json × List Char)) :
    (fuel : Nat) → List Char → Option (Members × List Char)
  | 0, _ => none
  | fuel + 1, cs =>
    match readString? (skipBlanks cs) with
    | none => none
    | some (key, rest) =>
      match skipBlanks rest with
      | ':' :: rest =>
        match readValue? rest with
        | none => none
        | some (value, rest) =>
          match skipBlanks rest with
          | ',' :: rest =>
            (members? readValue? fuel rest).map fun (ms, rest) =>
              ((key, value) :: ms, rest)
          | c :: rest =>
            if c.toNat == 0x7d then some ([(key, value)], rest)
            else none
          | [] => none
      | _ => none

def literal? (word : String) (value : Json) (cs : List Char) :
    Option (Json × List Char) :=
  if word.toList.isPrefixOf cs then some (value, cs.drop word.toList.length)
  else none

def readValue? : (limit : Nat) → List Char → Option (Json × List Char)
  | limit, cs =>
    match skipBlanks cs with
    | [] => none
    | 'n' :: rest => literal? "null" null ('n' :: rest)
    | 't' :: rest => literal? "true" (bool true) ('t' :: rest)
    | 'f' :: rest => literal? "false" (bool false) ('f' :: rest)
    | '"' :: rest => (readString? ('"' :: rest)).map fun (s, rest) =>
      (string s, rest)
    | '[' :: rest =>
      match limit with
      | 0 | 1 => none
      | limit + 1 =>
        match skipBlanks rest with
        | ']' :: rest => some (array [], rest)
        | _ => (items? (readValue? limit) (rest.length + 1) rest).map
            fun (items, rest) => (array items, rest)
    | c :: rest =>
      if c.toNat == 0x7b then
        match limit with
        | 0 | 1 => none
        | limit + 1 =>
          match skipBlanks rest with
          | [] => none
          | d :: tail =>
            if d.toNat == 0x7d then some (object [], tail)
            else (members? (readValue? limit) (rest.length + 1) rest).map
              fun (members, rest) => (object members, rest)
      else (readNumber? (c :: rest)).map fun (text, rest) => (number text, rest)

/-! ## Repeated keys -/

mutual

/-- Merges repeated keys: a key keeps its first place and its last value. -/
def merged : Json → Json
  | array items => array (mergedItems items)
  | object members => object (mergedMembers [] members)
  | j => j

def mergedItems : List Json → List Json
  | [] => []
  | item :: items => merged item :: mergedItems items

def mergedMembers (before : Members) : List (String × Json) → Members
  | [] => before
  | (key, value) :: members =>
    mergedMembers (Members.insert before key (merged value)) members

end

/-! ## Whole texts -/

def parseRaw? (limit : Nat) (text : String) : Option Json :=
  match readValue? limit text.toList with
  | some (value, rest) => if (skipBlanks rest).isEmpty then some value else none
  | none => none

def depthLimit : Nat := 128

def parseWithin? (limit : Nat) (text : String) : Option Json :=
  (parseRaw? limit text).map merged

def parse? (text : String) : Option Json := parseWithin? depthLimit text

end TableQuery.Json
