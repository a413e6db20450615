import TableQuery.Json.Basic
import TableQuery.Text.Quoted

/-!
# Writing JSON

The compact form has no blanks.  The indented form puts each item on a line of
its own, two blanks further in than its container.  Strings escape only what
they must.
-/

namespace TableQuery.Json

/-! ## Strings -/

def escapeChar : Char → List Char
  | '"' => ['\\', '"']
  | '\\' => ['\\', '\\']
  | '\x08' => ['\\', 'b']
  | '\x0c' => ['\\', 'f']
  | '\n' => ['\\', 'n']
  | '\r' => ['\\', 'r']
  | '\t' => ['\\', 't']
  | c =>
    if c.toNat < 32 then
      let digits := Text.hexDigits c.toNat
      ['\\', 'u'] ++ List.replicate (4 - digits.length) '0' ++ digits
    else [c]

def stringChars (s : String) : List Char :=
  '"' :: s.toList.flatMap escapeChar ++ ['"']

def quoted (s : String) : String := String.ofList (stringChars s)

/-! ## Compact form -/

mutual

def toChars : Json → List Char
  | null => "null".toList
  | bool true => "true".toList
  | bool false => "false".toList
  | number text => text.toList
  | string value => stringChars value
  | array items => '[' :: itemChars items ++ [']']
  | object members =>
    Char.ofNat 0x7b :: memberChars members ++ [Char.ofNat 0x7d]

def itemChars : List Json → List Char
  | [] => []
  | [item] => toChars item
  | item :: items => toChars item ++ ',' :: itemChars items

def memberChars : List (String × Json) → List Char
  | [] => []
  | [(key, value)] => stringChars key ++ ':' :: toChars value
  | (key, value) :: members =>
    stringChars key ++ ':' :: toChars value ++ ',' :: memberChars members

end

def compact (j : Json) : String := String.ofList j.toChars

/-! ## Indented form -/

def newline (level : Nat) : List Char := '\n' :: List.replicate (2 * level) ' '

mutual

def prettyChars (level : Nat) : Json → List Char
  | array [] => ['[', ']']
  | array items =>
    '[' :: prettyItems (level + 1) items ++ newline level ++ [']']
  | object [] => [Char.ofNat 0x7b, Char.ofNat 0x7d]
  | object members =>
    Char.ofNat 0x7b :: prettyMembers (level + 1) members ++ newline level ++
      [Char.ofNat 0x7d]
  | null => "null".toList
  | bool true => "true".toList
  | bool false => "false".toList
  | number text => text.toList
  | string value => stringChars value

def prettyItems (level : Nat) : List Json → List Char
  | [] => []
  | [item] => newline level ++ prettyChars level item
  | item :: items =>
    newline level ++ prettyChars level item ++ ',' :: prettyItems level items

def prettyMembers (level : Nat) : List (String × Json) → List Char
  | [] => []
  | [(key, value)] =>
    newline level ++ stringChars key ++ ':' :: ' ' :: prettyChars level value
  | (key, value) :: members =>
    newline level ++ stringChars key ++ ':' :: ' ' :: prettyChars level value ++
      ',' :: prettyMembers level members

end

def pretty (j : Json) : String := String.ofList (prettyChars 0 j)

end TableQuery.Json
