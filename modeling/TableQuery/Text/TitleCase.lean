import TableQuery.Unicode.Property

/-!
# Title case

Words for a column name: the name is cut where its letters change case, around
digits and at anything that is neither letter nor digit, and each word starts
with a capital.
-/

namespace TableQuery.Text

/-- Where a reader of a name stands: whether a word has ended, whether nothing
is written yet, whether a letter or digit has been seen, and the last letter
that continued a word. -/
structure TitleState where
  newWord : Bool := true
  first : Bool := true
  found : Bool := false
  last : Char := ' '

def titleFrom (state : TitleState) : List Char → List Char
  | [] => []
  | c :: rest =>
    if !Unicode.isAlphanumeric c then
      titleFrom
        (if state.found then { state with newWord := true } else state) rest
    else if Unicode.isNumeric c then
      c :: titleFrom { state with found := true, newWord := true } rest
    else if state.newWord ||
      (Unicode.isLowercase state.last && Unicode.isUppercase c) then
      (if state.first then [] else [' ']) ++ c.toUpper ::
        titleFrom
          { state with found := true, newWord := false, first := false } rest
    else c.toLower :: titleFrom { state with found := true, last := c } rest

def dropTrailing (p : Char → Bool) (cs : List Char) : List Char :=
  (cs.reverse.dropWhile p).reverse

def titleCase (s : String) : String :=
  String.ofList
    (titleFrom {} (dropTrailing (!Unicode.isAlphanumeric ·) s.toList))

def humanize (column : String) : String :=
  " ".intercalate (((titleCase column).splitOn " ").map fun w => if w ==
    "Id" then "ID" else w)

end TableQuery.Text
