import TableQuery.Unicode.Property

/-!
# Trimming

Texts without the white space at their ends.
-/

namespace TableQuery.Text

def trimStart (cs : List Char) : List Char := cs.dropWhile Unicode.isWhiteSpace

def trimEnd (cs : List Char) : List Char :=
  (cs.reverse.dropWhile Unicode.isWhiteSpace).reverse

def trim (cs : List Char) : List Char := trimEnd (trimStart cs)

def trimmed (s : String) : String := String.ofList (trim s.toList)

end TableQuery.Text
