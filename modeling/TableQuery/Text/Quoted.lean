import TableQuery.Unicode.Property

/-!
# Quoted text

Text between double quotes in which every character that cannot be seen on its
own is written as an escape, down to the code point in hexadecimal digits.
-/

namespace TableQuery.Text

def hexDigits (n : Nat) : List Char := Nat.toDigits 16 n

/-- Whether a character is written as its code point: it joins the one before
it, or shows nothing. -/
def needsCodePoint (c : Char) : Bool :=
  if c.toNat < 128 then c.toNat < 32 || c.toNat == 127
  else Unicode.isGraphemeExtend c || !Unicode.isPrintable c

def quoteChar : Char → List Char
  | '"' => ['\\', '"']
  | '\\' => ['\\', '\\']
  | '\n' => ['\\', 'n']
  | '\t' => ['\\', 't']
  | '\r' => ['\\', 'r']
  | '\x00' => ['\\', '0']
  | c =>
    if needsCodePoint c then
      ['\\', 'u', Char.ofNat 0x7b] ++ hexDigits c.toNat ++ [Char.ofNat 0x7d]
    else [c]

def quoteChars (cs : List Char) : List Char :=
  '"' :: cs.flatMap quoteChar ++ ['"']

def quote (s : String) : String := String.ofList (quoteChars s.toList)

end TableQuery.Text
