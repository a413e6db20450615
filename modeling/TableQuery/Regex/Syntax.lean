import TableQuery.Regex.Class

/-!
# Patterns

Patterns as trees, and their written form: alternatives, groups with or without
a capture, repetitions, classes in brackets, escapes, assertions, and flags that
hold up to the end of their group.  Look-around and references to captures are
not part of the language.
-/

namespace TableQuery

inductive Regex.WordEdge where
  | boundary
  | notBoundary
  | start
  | stop
  | startHalf
  | stopHalf
deriving DecidableEq, Repr

inductive Regex.Assertion where
  | textStart
  | textEnd
  /-- Lines end with a line feed, or also with a carriage return, which a line
  feed may follow. -/
  | lineStart (carriageReturns : Bool)
  | lineEnd (carriageReturns : Bool)
  | word (edge : Regex.WordEdge) (unicode : Bool)
deriving DecidableEq, Repr

inductive Regex where
  | empty
  | char (set : Regex.CharClass)
  | look (assertion : Regex.Assertion)
  | sequence (first second : Regex)
  | either (first second : Regex)
  | repeats (min : Nat) (max : Option Nat) (greedy : Bool) (body : Regex)
  | capture (index : Nat) (body : Regex)

namespace Regex

/-! ## Flags -/

structure Flags where
  ignoreCase : Bool := false
  multiLine : Bool := false
  dotAll : Bool := false
  swapGreed : Bool := false
  unicode : Bool := true
  verbose : Bool := false
  carriageReturns : Bool := false

def Flags.set? (flags : Flags) (c : Char) (value : Bool) : Option Flags :=
  match c with
  | 'i' => some { flags with ignoreCase := value }
  | 'm' => some { flags with multiLine := value }
  | 's' => some { flags with dotAll := value }
  | 'U' => some { flags with swapGreed := value }
  | 'u' => some { flags with unicode := value }
  | 'x' => some { flags with verbose := value }
  | 'R' => some { flags with carriageReturns := value }
  | _ => none

def withCase (flags : Flags) (set : CharClass) : CharClass :=
  if flags.ignoreCase then .folded flags.unicode set else set

/-- A class that a text can be searched for: without the letters of all scripts
it may not hold a part of a character. -/
def whole? (flags : Flags) (set : CharClass) : Option CharClass :=
  if flags.unicode || !set.contains '\u0080' then some set else none

/-! ## Blanks and comments -/

def skipBlanks (flags : Flags) : (fuel : Nat) → List Char → List Char
  | 0, cs => cs
  | fuel + 1, cs =>
    if flags.verbose then
      match cs with
      | '#' :: rest => skipBlanks flags fuel (rest.dropWhile (· != '\n'))
      | c :: rest =>
        if Unicode.isWhiteSpace c then skipBlanks flags fuel rest
        else cs
      | [] => []
    else cs

def skip (flags : Flags) (cs : List Char) : List Char :=
  skipBlanks flags (cs.length + 1) cs

/-! ## Numbers -/

def hexValue? (c : Char) : Option Nat :=
  if c.isDigit then some (c.toNat - '0'.toNat)
  else if 'a' ≤ c && c ≤ 'f' then some (c.toNat - 'a'.toNat + 10)
  else if 'A' ≤ c && c ≤ 'F' then some (c.toNat - 'A'.toNat + 10)
  else none

def scalar? (digits : List Char) : Option Char := do
  let values ← digits.mapM hexValue?
  if values.isEmpty then none
  else
    let n := values.foldl (fun n d => 16 * n + d) 0
    if n < 0xd800 || (0xe000 ≤ n && n ≤ 0x10ffff) then some (Char.ofNat n)
    else none

/-- A character by its code: so many digits, or any number of them in braces. -/
def hexChar? (width : Nat) (cs : List Char) : Option (Char × List Char) :=
  match cs with
  | [] => none
  | c :: rest =>
    if c.toNat == 0x7b then
      let digits := rest.takeWhile (·.toNat != 0x7d)
      match rest.drop digits.length with
      | [] => none
      | _ :: rest => (scalar? digits).map (·, rest)
    else if cs.length < width then none
    else (scalar? (cs.take width)).map (·, cs.drop width)

def decimal? (cs : List Char) : Option (Nat × List Char) :=
  let cs := cs.dropWhile Unicode.isWhiteSpace
  let digits := cs.takeWhile Char.isDigit
  if digits.isEmpty then none
  else
    let n := digits.foldl (fun n c => 10 * n + (c.toNat - '0'.toNat)) 0
    if n < Word.size32 then
      some (n, (cs.drop digits.length).dropWhile Unicode.isWhiteSpace)
    else none

/-! ## Escapes -/

inductive Escape where
  | literal (c : Char)
  | byte (c : Char)
  | set (s : CharClass)
  | look (assertion : Regex.Assertion)

def perlClass (flags : Flags) (unicode ascii : Char → Bool) (negated : Bool) :
    Escape :=
  let set := CharClass.property (if flags.unicode then unicode else ascii)
  .set (if negated then .compl set else set)

/-- The name of a property without what names may differ in: case, blanks,
dashes, underscores and a leading `is`. -/
def propertyKey (name : List Char) : String :=
  let plain :=
    (name.filter fun c => c != ' ' && c != '-' && c != '_').map Char.toLower
  match plain with
  | 'i' :: 's' :: rest => String.ofList (if rest.isEmpty then plain else rest)
  | _ => String.ofList plain

def propertySet? (name : List Char) : Option CharClass :=
  let kind := name.takeWhile fun c => c != '=' && c != ':'
  match name.drop kind.length with
  | [] => CharClass.ofPropertyName? (propertyKey name)
  | _ :: value =>
    let (differs, kind) :=
      if kind.getLast? == some '!' then (true, kind.dropLast)
      else (false, kind)
    match propertyKey kind with
    | "gc" | "generalcategory" =>
      (CharClass.ofPropertyName? (propertyKey value)).map fun set =>
        if differs then .compl set else set
    | _ => none

def propertyClass? (flags : Flags) (negated : Bool) (name : List Char) :
    Option Escape := do
  if !flags.unicode then none
  let (negated, name) := match name with
    | '^' :: name => (!negated, name)
    | name => (negated, name)
  let set := withCase flags (← propertySet? name)
  some (.set (if negated then .compl set else set))

def property? (flags : Flags) (negated : Bool) (cs : List Char) :
    Option (Escape × List Char) :=
  match cs with
  | [] => none
  | c :: rest =>
    if c.toNat == 0x7b then
      let name := rest.takeWhile (·.toNat != 0x7d)
      match rest.drop name.length with
      | [] => none
      | _ :: rest => (propertyClass? flags negated name).map (·, rest)
    else (propertyClass? flags negated [c]).map (·, rest)

def boundary? (flags : Flags) (cs : List Char) : Option (Escape × List Char) :=
  let edge (e : WordEdge) (rest : List Char) : Option (Escape × List Char) :=
    some (.look (.word e flags.unicode), rest)
  let isNameChar (c : Char) : Bool := c.isAlpha || c == '-'
  match cs with
  | [] => edge .boundary []
  | c :: rest =>
    if c.toNat != 0x7b then edge .boundary cs
    else
      let name := rest.takeWhile isNameChar
      match name, rest.drop name.length with
      | [], _ :: _ => edge .boundary cs
      | _, close :: rest =>
        if close.toNat != 0x7d then none
        else
          match String.ofList name with
          | "start" => edge .start rest
          | "end" => edge .stop rest
          | "start-half" => edge .startHalf rest
          | "end-half" => edge .stopHalf rest
          | _ => none
      | _, [] => none

def escape? (flags : Flags) : List Char → Option (Escape × List Char)
  | [] => none
  | c :: rest =>
    match c with
    | 'd' => some (perlClass flags CharClass.isDigit Char.isDigit false, rest)
    | 'D' => some (perlClass flags CharClass.isDigit Char.isDigit true, rest)
    | 's' =>
      some
        (perlClass flags Unicode.isWhiteSpace CharClass.isAsciiSpace false, rest)
    | 'S' =>
      some
        (perlClass flags Unicode.isWhiteSpace CharClass.isAsciiSpace true, rest)
    | 'w' =>
      some (perlClass flags CharClass.isWord CharClass.isAsciiWord false, rest)
    | 'W' =>
      some (perlClass flags CharClass.isWord CharClass.isAsciiWord true, rest)
    | 'p' => property? flags false rest
    | 'P' => property? flags true rest
    | 'b' => boundary? flags rest
    | 'B' => some (.look (.word .notBoundary flags.unicode), rest)
    | 'A' => some (.look .textStart, rest)
    | 'z' => some (.look .textEnd, rest)
    | '<' => some (.look (.word .start flags.unicode), rest)
    | '>' => some (.look (.word .stop flags.unicode), rest)
    | 'a' => some (.literal '\x07', rest)
    | 'f' => some (.literal '\x0c', rest)
    | 't' => some (.literal '\t', rest)
    | 'n' => some (.literal '\n', rest)
    | 'r' => some (.literal '\r', rest)
    | 'v' => some (.literal '\x0b', rest)
    | 'x' =>
      let braced := rest.head?.any (·.toNat == 0x7b)
      (hexChar? 2 rest).map fun (c, rest) =>
        (if braced then .literal c else .byte c, rest)
    | 'u' => (hexChar? 4 rest).map fun (c, rest) => (.literal c, rest)
    | 'U' => (hexChar? 8 rest).map fun (c, rest) => (.literal c, rest)
    | c =>
      if c.toNat < 128 && !c.isAlphanum then some (.literal c, rest)
      else none

/-! ## Classes in brackets -/

def classItem? (flags : Flags) : List Char → Option (Escape × List Char)
  | [] => none
  | '\\' :: rest =>
    match escape? flags rest with
    | some (.look _, _) => none
    | some (.literal c, rest) =>
      if isAllowed c then some (.literal c, rest)
      else none
    | some (.byte c, rest) => some (.literal c, rest)
    | other => other
  | c :: rest => if isAllowed c then some (.literal c, rest) else none
where
  isAllowed (c : Char) : Bool := flags.unicode || c.toNat < 128

def asciiClass? (flags : Flags) (cs : List Char) :
    Option (CharClass × List Char) := do
  let (negated, cs) := match cs with
    | '^' :: rest => (true, rest)
    | cs => (false, cs)
  let name := cs.takeWhile Char.isAlpha
  match cs.drop name.length with
  | ':' :: ']' :: rest => do
    let set := withCase flags (← CharClass.ofAsciiName? (String.ofList name))
    some (if negated then .compl set else set, rest)
  | _ => none

/-- A character, a range, or a class by an escape. -/
def classRange? (flags : Flags) (cs : List Char) :
    Option (CharClass × List Char) := do
  let (first, rest) ← classItem? flags cs
  let alone : CharClass := match first with
    | .literal c | .byte c => withCase flags (.single c)
    | .set s => s
    | .look _ => .none
  match skip flags rest with
  | '-' :: more =>
    match skip flags more with
    | ']' :: _ => some (alone, skip flags rest)
    | '-' :: _ => some (alone, skip flags rest)
    | more =>
      match first, ← classItem? flags more with
      | .literal a, (.literal b, rest) =>
        if a.toNat ≤ b.toNat then
          some (withCase flags (.range a.toNat b.toNat), rest)
        else none
      | _, _ => none
  | rest => some (alone, rest)

abbrev Combine := CharClass → CharClass → CharClass

def brackets? (flags : Flags) :
    (fuel : Nat) → (before : Option (CharClass × Combine)) →
      (items : CharClass) → List Char → Option (CharClass × List Char)
  | 0, _, _, _ => none
  | fuel + 1, before, items, cs =>
    let whole : CharClass := match before with
      | some (left, combine) => combine left items
      | none => items
    match skip flags cs with
    | [] => none
    | ']' :: rest => some (whole, rest)
    | '&' :: '&' :: rest =>
      brackets? flags fuel (some (whole, .inter)) .none rest
    | '-' :: '-' :: rest =>
      brackets? flags fuel (some (whole, .diff)) .none rest
    | '~' :: '~' :: rest =>
      brackets? flags fuel (some (whole, .symmDiff)) .none rest
    | '[' :: rest =>
      match rest with
      | ':' :: name =>
        match asciiClass? flags name with
        | some (set, rest) =>
          brackets? flags fuel before (.union items set) rest
        | none =>
          match opened? fuel rest with
          | some (set, rest) =>
            brackets? flags fuel before (.union items set) rest
          | none => none
      | _ =>
        match opened? fuel rest with
        | some (set, rest) =>
          brackets? flags fuel before (.union items set) rest
        | none => none
    | cs =>
      match classRange? flags cs with
      | some (set, rest) => brackets? flags fuel before (.union items set) rest
      | none => none
where
  /-- A bracket whose opening has been read.  Dashes, and then a closing
  bracket, stand for themselves at its front. -/
  opened? (fuel : Nat) (cs : List Char) : Option (CharClass × List Char) :=
    let (negated, cs) := match skip flags cs with
      | '^' :: rest => (true, skip flags rest)
      | cs => (false, cs)
    let dashes := cs.takeWhile (· == '-')
    let items : CharClass := if dashes.isEmpty then .none else .single '-'
    let (items, rest) : CharClass × List Char :=
      match dashes, cs.drop dashes.length with
      | [], ']' :: rest => (.single ']', rest)
      | _, rest => (items, rest)
    match fuel with
    | 0 => none
    | fuel + 1 =>
      (brackets? flags fuel none items rest).map fun (set, rest) =>
        (if negated then .compl set else set, rest)

/-! ## Groups -/

def flags? (flags : Flags) : (negated : Bool) → (seen : List Char) → List Char →
    Option (Flags × List Char)
  | _, _, [] => none
  | negated, seen, c :: rest =>
    if c == ':' || c == ')' then
      if seen.getLast? == some '-' || (seen.isEmpty && c == ')') then none
      else some (flags, c :: rest)
    else if seen.contains c then none
    else if c == '-' then flags? flags true (seen ++ [c]) rest
    else
      match flags.set? c !negated with
      | some flags => flags? flags negated (seen ++ [c]) rest
      | none => none

def isNameChar (first : Bool) (c : Char) : Bool :=
  c == '_' || Unicode.isAlphabetic c ||
    (!first && (Unicode.isNumeric c || c == '.' || c == '[' || c == ']'))

def captureName? (cs : List Char) : Option (List Char × List Char) :=
  let name := cs.takeWhile (· != '>')
  match name, cs.drop name.length with
  | first :: more, _ :: rest =>
    if isNameChar true first && more.all (isNameChar false) then
      some (name, rest)
    else none
  | _, _ => none

structure Progress where
  rest : List Char
  captures : Nat
  names : List (List Char)

inductive Opening where
  | directive (flags : Flags)
  | group (flags : Flags)
  | capture

def opening? (flags : Flags) (p : Progress) : Option (Opening × Progress) :=
  match p.rest with
  | '?' :: 'P' :: '<' :: rest | '?' :: '<' :: rest => do
    let (name, rest) ← captureName? rest
    if p.names.contains name then none
    else some (.capture, ⟨rest, p.captures + 1, name :: p.names⟩)
  | '?' :: rest => do
    let (flags, rest) ← flags? flags false [] rest
    match rest with
    | ':' :: rest => some (.group flags, { p with rest })
    | _ :: rest => some (.directive flags, { p with rest })
    | [] => none
  | rest => some (.capture, ⟨rest, p.captures + 1, p.names⟩)

/-! ## Repetitions -/

def bounds? (flags : Flags) :
    List Char → Option (Option ((Nat × Option Nat) × List Char))
  | '*' :: rest => some (some ((0, none), rest))
  | '+' :: rest => some (some ((1, none), rest))
  | '?' :: rest => some (some ((0, some 1), rest))
  | c :: rest =>
    if c.toNat != 0x7b then some none
    else do
      let (min, rest) ← decimal? rest
      match rest with
      | ',' :: close :: rest =>
        if close.toNat == 0x7d then some (some ((min, none), skip flags rest))
        else do
          let (max, rest) ← decimal? (close :: rest)
          match rest with
          | close :: rest =>
            if close.toNat == 0x7d && min ≤ max then
              some (some ((min, some max), skip flags rest))
            else none
          | [] => none
      | close :: rest =>
        if close.toNat == 0x7d then
          some (some ((min, some min), skip flags rest))
        else none
      | [] => none
  | [] => some none

def repeated? (flags : Flags) : (fuel : Nat) → Regex → List Char →
    Option (Regex × List Char)
  | 0, r, cs => some (r, cs)
  | fuel + 1, r, cs =>
    match bounds? flags (skip flags cs) with
    | none => none
    | some none => some (r, cs)
    | some (some ((min, max), rest)) =>
      let (lazyMark, rest) := match rest with
        | '?' :: rest => (true, rest)
        | _ => (false, rest)
      repeated? flags fuel
        (.repeats min max (lazyMark == flags.swapGreed) r) rest

/-! ## Patterns -/

def literal (flags : Flags) (c : Char) : Regex :=
  .char (withCase flags (.single c))

def ofClass? (flags : Flags) (set : CharClass) : Option Regex :=
  (whole? flags set).map .char

def ofEscape? (flags : Flags) : Escape → Option Regex
  | .literal c => some (literal flags c)
  | .byte c =>
    if flags.unicode || c.toNat < 128 then some (literal flags c)
    else none
  | .set s => ofClass? flags s
  | .look a => some (.look a)

def ofChar? (flags : Flags) : Char → Option Regex
  | '.' =>
    ofClass? flags <|
      if flags.dotAll then .any
      else if flags.carriageReturns then
        .compl (.union (.single '\n') (.single '\r'))
      else .compl (.single '\n')
  | '^' =>
    some (.look
      (if flags.multiLine then .lineStart flags.carriageReturns else .textStart))
  | '$' =>
    some (.look
      (if flags.multiLine then .lineEnd flags.carriageReturns else .textEnd))
  | c => some (literal flags c)

def sequenceOf : List Regex → Regex
  | [] => .empty
  | [r] => r
  | r :: rs => .sequence r (sequenceOf rs)

/-- Reads up to the end of the enclosing group: alternatives before this one,
and the items of this one in reverse. -/
def alternatives? : (fuel : Nat) → Flags → (before : Option Regex) →
    (items : List Regex) → Progress → Option (Regex × Progress)
  | 0, _, _, _, _ => none
  | fuel + 1, flags, before, items, p =>
    let last := sequenceOf items.reverse
    let whole := match before with
      | some r => .either r last
      | none => last
    match skip flags p.rest with
    | [] => some (whole, { p with rest := [] })
    | ')' :: rest => some (whole, { p with rest := ')' :: rest })
    | '|' :: rest => alternatives? fuel flags (some whole) [] { p with rest }
    | '(' :: rest =>
      match opening? flags { p with rest } with
      | none => none
      | some (.directive flags, p) =>
        match bounds? flags (skip flags p.rest) with
        | some none => alternatives? fuel flags before items p
        | _ => none
      | some (.group inner, p) =>
        match alternatives? fuel inner none [] p with
        | some (body, ⟨')' :: rest, captures, names⟩) =>
          match repeated? flags fuel body rest with
          | some (item, rest) =>
            alternatives? fuel flags before (item :: items)
              ⟨rest, captures, names⟩
          | none => none
        | _ => none
      | some (.capture, p) =>
        match alternatives? fuel flags none [] p with
        | some (body, ⟨')' :: rest, captures, names⟩) =>
          match repeated? flags fuel (.capture p.captures body) rest with
          | some (item, rest) =>
            alternatives? fuel flags before (item :: items)
              ⟨rest, captures, names⟩
          | none => none
        | _ => none
    | '[' :: rest =>
      match brackets?.opened? flags fuel rest with
      | some (set, rest) =>
        match (ofClass? flags set).bind (repeated? flags fuel · rest) with
        | some (item, rest) =>
          alternatives? fuel flags before (item :: items) { p with rest }
        | none => none
      | none => none
    | '\\' :: rest =>
      match escape? flags rest with
      | some (e, rest) =>
        match (ofEscape? flags e).bind (repeated? flags fuel · rest) with
        | some (item, rest) =>
          alternatives? fuel flags before (item :: items) { p with rest }
        | none => none
      | none => none
    | c :: rest =>
      match bounds? flags (c :: rest) with
      | some none =>
        match (ofChar? flags c).bind (repeated? flags fuel · rest) with
        | some (item, rest) =>
          alternatives? fuel flags before (item :: items) { p with rest }
        | none => none
      | _ => none

/-! ## Sizes -/

/-- How many steps a search goes through to read a character of a class: those
beyond ASCII are read byte by byte. -/
def CharClass.weight : CharClass → Nat
  | .range _ last => if last < 128 then 1 else 4
  | .property _ => 300
  | .union a b | .inter a b => a.weight + b.weight
  | .compl a => 10 + a.weight
  | .folded _ a => 2 * a.weight

def weight : Regex → Nat
  | .empty => 0
  | .char set => set.weight
  | .look _ => 1
  | .sequence a b => weight a + weight b
  | .either a b => weight a + weight b + 1
  | .repeats min none _ body => max min 1 * weight body + 1
  | .repeats min (some max) _ body =>
    min * weight body + (max - min) * (weight body + 1)
  | .capture _ body => weight body + 2

def maxWeight : Nat := 300000

def parse? (pattern : String) : Option Regex :=
  let cs := pattern.toList
  match alternatives? (2 * cs.length + 2) {} none [] ⟨cs, 0, []⟩ with
  | some (r, ⟨[], _, _⟩) => if weight r ≤ maxWeight then some r else none
  | _ => none

end Regex

end TableQuery
