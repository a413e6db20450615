/-!
# Replacing and splitting

Occurrences of a text inside another one, found from left to right.
-/

namespace TableQuery.Text

def isInfixOf (needle : List Char) : List Char → Bool
  | [] => needle.isEmpty
  | c :: rest => needle.isPrefixOf (c :: rest) || isInfixOf needle rest

/-- Replaces the occurrences of a text in the rest of another one, passing over
`skip` characters that belong to an occurrence already replaced. -/
def replaceFrom (find replacement : List Char) :
    (skip : Nat) → List Char → List Char
  | _, [] => []
  | skip + 1, _ :: rest => replaceFrom find replacement skip rest
  | 0, c :: rest =>
    if find.isPrefixOf (c :: rest) then
      replacement ++ replaceFrom find replacement (find.length - 1) rest
    else c :: replaceFrom find replacement 0 rest

/-- Replaces each occurrence of a text, from left to right; an empty one occurs
before each character and at the end. -/
def replaceAll (find replacement cs : List Char) : List Char :=
  if find.isEmpty then replacement ++ cs.flatMap fun c => c :: replacement
  else replaceFrom find replacement 0 cs

def splitOn (mark : Char) : List Char → List (List Char)
  | [] => [[]]
  | c :: rest =>
    if c == mark then [] :: splitOn mark rest
    else
      match splitOn mark rest with
      | piece :: pieces => (c :: piece) :: pieces
      | [] => [[c]]

end TableQuery.Text
