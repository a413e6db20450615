import TableQuery.Unicode.CaseMap
import TableQuery.Word

/-!
# Character classes of patterns

Sets of characters built from ranges and properties, with the set of all
characters that differ from one of a set in case alone.
-/

namespace TableQuery.Regex

inductive CharClass where
  | range (first last : Nat)
  | property (p : Char → Bool)
  | union (a b : CharClass)
  | inter (a b : CharClass)
  | compl (a : CharClass)
  | folded (unicode : Bool) (a : CharClass)

namespace CharClass

def none : CharClass := range 1 0

def any : CharClass := range 0 0x10ffff

def single (c : Char) : CharClass := range c.toNat c.toNat

def diff (a b : CharClass) : CharClass := inter a (compl b)

def symmDiff (a b : CharClass) : CharClass := union (diff a b) (diff b a)

/-- The characters that a case mapping takes to `c`. -/
def preimages (runs : List Unicode.CaseRun) (c : Char) : List Char :=
  runs.filterMap fun r =>
    let n := r.run.first + (c.toNat - r.image)
    if r.image ≤ c.toNat && r.run.contains n then some (Char.ofNat n) else .none

/-- The characters that differ from `c` in case alone, and `c`. -/
def caseOrbit (c : Char) : List Char :=
  let small := Unicode.foldCase c
  let capitals := preimages Unicode.lowerRuns small
  let others := (small :: capitals).flatMap (preimages Unicode.upperRuns)
  c :: (small :: capitals ++ others).filter (Unicode.foldCase · == small)

def contains : CharClass → Char → Bool
  | range first last, c => first ≤ c.toNat && c.toNat ≤ last
  | property p, c => p c
  | union a b, c => a.contains c || b.contains c
  | inter a b, c => a.contains c && b.contains c
  | compl a, c => !a.contains c
  | folded unicode a, c =>
    (if unicode then caseOrbit c else [c, c.toLower, c.toUpper]).any a.contains

/-! ## Named classes -/

def isDigit (c : Char) : Bool := Unicode.inRuns Unicode.decimalNumber c

def isAsciiWord (c : Char) : Bool := c.isAlphanum || c == '_'

def isWord (c : Char) : Bool :=
  if c.toNat < 128 then isAsciiWord c
  else
    Unicode.isAlphabetic c || Unicode.isMark c || isDigit c ||
      Unicode.inRuns Unicode.connectorPunctuation c || c.toNat == 0x200c ||
      c.toNat == 0x200d

def isAsciiSpace (c : Char) : Bool := c == ' ' || (9 ≤ c.toNat && c.toNat ≤ 13)

def ofAsciiName? : String → Option CharClass
  | "alnum" => some (property Char.isAlphanum)
  | "alpha" => some (property Char.isAlpha)
  | "ascii" => some (range 0 127)
  | "blank" => some (property fun c => c == ' ' || c == '\t')
  | "cntrl" => some (property fun c => c.toNat < 32 || c.toNat == 127)
  | "digit" => some (property Char.isDigit)
  | "graph" => some (range 33 126)
  | "lower" => some (property Char.isLower)
  | "print" => some (range 32 126)
  | "punct" =>
    some (property fun c => 33 ≤ c.toNat && c.toNat ≤ 126 && !c.isAlphanum)
  | "space" => some (property isAsciiSpace)
  | "upper" => some (property Char.isUpper)
  | "word" => some (property isAsciiWord)
  | "xdigit" => some (property fun c => c.isDigit || ('a' ≤ c && c ≤ 'f') ||
    ('A' ≤ c && c ≤ 'F'))
  | _ => .none

def ofPropertyName? : String → Option CharClass
  | "any" => some any
  | "ascii" => some (range 0 127)
  | "l" | "letter" => some (property Unicode.isLetter)
  | "lu" | "uppercaseletter" =>
    some (property (Unicode.inRuns Unicode.uppercaseLetter))
  | "ll" | "lowercaseletter" =>
    some (property (Unicode.inRuns Unicode.lowercaseLetter))
  | "lt" | "titlecaseletter" =>
    some (property (Unicode.inRuns Unicode.titlecaseLetter))
  | "lc" | "casedletter" =>
    some (property fun c => Unicode.inRuns Unicode.uppercaseLetter c ||
      Unicode.inRuns Unicode.lowercaseLetter c ||
      Unicode.inRuns Unicode.titlecaseLetter c)
  | "lm" | "modifierletter" =>
    some (property (Unicode.inRuns Unicode.modifierLetter))
  | "lo" | "otherletter" => some (property (Unicode.inRuns Unicode.otherLetter))
  | "m" | "mark" => some (property Unicode.isMark)
  | "mn" | "nonspacingmark" =>
    some (property (Unicode.inRuns Unicode.nonspacingMark))
  | "mc" | "spacingmark" => some (property (Unicode.inRuns Unicode.spacingMark))
  | "me" | "enclosingmark" =>
    some (property (Unicode.inRuns Unicode.enclosingMark))
  | "n" | "number" => some (property Unicode.isNumeric)
  | "nd" | "decimalnumber" | "digit" => some (property isDigit)
  | "nl" | "letternumber" =>
    some (property (Unicode.inRuns Unicode.letterNumber))
  | "no" | "othernumber" => some (property (Unicode.inRuns Unicode.otherNumber))
  | "p" | "punctuation" | "punct" => some (property Unicode.isPunctuation)
  | "pc" | "connectorpunctuation" =>
    some (property (Unicode.inRuns Unicode.connectorPunctuation))
  | "pd" | "dashpunctuation" =>
    some (property (Unicode.inRuns Unicode.dashPunctuation))
  | "ps" | "openpunctuation" =>
    some (property (Unicode.inRuns Unicode.openPunctuation))
  | "pe" | "closepunctuation" =>
    some (property (Unicode.inRuns Unicode.closePunctuation))
  | "pi" | "initialpunctuation" =>
    some (property (Unicode.inRuns Unicode.initialPunctuation))
  | "pf" | "finalpunctuation" =>
    some (property (Unicode.inRuns Unicode.finalPunctuation))
  | "po" | "otherpunctuation" =>
    some (property (Unicode.inRuns Unicode.otherPunctuation))
  | "s" | "symbol" => some (property Unicode.isSymbol)
  | "sm" | "mathsymbol" => some (property (Unicode.inRuns Unicode.mathSymbol))
  | "sc" | "currencysymbol" =>
    some (property (Unicode.inRuns Unicode.currencySymbol))
  | "sk" | "modifiersymbol" =>
    some (property (Unicode.inRuns Unicode.modifierSymbol))
  | "so" | "othersymbol" => some (property (Unicode.inRuns Unicode.otherSymbol))
  | "z" | "separator" =>
    some (property fun c => Unicode.inRuns Unicode.spaceSeparator c ||
      Unicode.inRuns Unicode.lineSeparator c ||
      Unicode.inRuns Unicode.paragraphSeparator c)
  | "zl" | "lineseparator" =>
    some (property (Unicode.inRuns Unicode.lineSeparator))
  | "zp" | "paragraphseparator" =>
    some (property (Unicode.inRuns Unicode.paragraphSeparator))
  | "zs" | "spaceseparator" =>
    some (property (Unicode.inRuns Unicode.spaceSeparator))
  | "cc" | "control" | "cntrl" =>
    some (property (Unicode.inRuns Unicode.control))
  | "cf" | "format" => some (property (Unicode.inRuns Unicode.format))
  | "alphabetic" | "alpha" => some (property Unicode.isAlphabetic)
  | "lowercase" | "lower" => some (property Unicode.isLowercase)
  | "uppercase" | "upper" => some (property Unicode.isUppercase)
  | "whitespace" | "wspace" | "space" => some (property Unicode.isWhiteSpace)
  | "cased" => some (property Unicode.isCased)
  | "xidstart" | "xids" => some (property Unicode.isIdentifierStart)
  | "xidcontinue" | "xidc" => some (property Unicode.isIdentifierContinue)
  | _ => .none

end CharClass

end TableQuery.Regex
