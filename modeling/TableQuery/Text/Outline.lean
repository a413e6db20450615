import TableQuery.Text.Quoted

/-!
# Outlines

The full structure of a value as text, on one line or with one part per line.
-/

namespace TableQuery

inductive Outline where
  | atom (text : String)
  | record (name : String) (fields : List (String × Outline))
  | variant (name : String) (args : List Outline)
  | list (items : List Outline)
deriving Repr

namespace Outline

def quoted (s : String) : Outline := atom (Text.quote s)

def option {α : Type} (outline : α → Outline) : Option α → Outline
  | none => atom "None"
  | some a => variant "Some" [outline a]

def braced (inner : String) : String := "\x7b" ++ inner ++ "\x7d"

/-! ## On one line -/

mutual

def compact : Outline → String
  | atom text => text
  | record name fields =>
    name ++ " " ++ braced (" " ++ compactFields fields ++ " ")
  | variant name args => name ++ "(" ++ compactItems args ++ ")"
  | list items => "[" ++ compactItems items ++ "]"

def compactItems : List Outline → String
  | [] => ""
  | [item] => item.compact
  | item :: items => item.compact ++ ", " ++ compactItems items

def compactFields : List (String × Outline) → String
  | [] => ""
  | [(name, value)] => name ++ ": " ++ value.compact
  | (name, value) :: fields =>
    name ++ ": " ++ value.compact ++ ", " ++ compactFields fields

end

/-! ## With one part per line -/

def indent (level : Nat) : String :=
  String.ofList (List.replicate (4 * level) ' ')

mutual

def prettyAt (level : Nat) : Outline → String
  | atom text => text
  | record name fields =>
    name ++ " " ++
      braced ("\n" ++ prettyFields (level + 1) fields ++ indent level)
  | variant name args =>
    name ++ "(\n" ++ prettyItems (level + 1) args ++ indent level ++ ")"
  | list [] => "[]"
  | list (item :: items) =>
    "[\n" ++ prettyItems (level + 1) (item :: items) ++ indent level ++ "]"

def prettyItems (level : Nat) : List Outline → String
  | [] => ""
  | item :: items =>
    indent level ++ item.prettyAt level ++ ",\n" ++ prettyItems level items

def prettyFields (level : Nat) : List (String × Outline) → String
  | [] => ""
  | (name, value) :: fields =>
    indent level ++ name ++ ": " ++ value.prettyAt level ++ ",\n" ++
      prettyFields level fields

end

def pretty (o : Outline) : String := o.prettyAt 0

end Outline

end TableQuery
