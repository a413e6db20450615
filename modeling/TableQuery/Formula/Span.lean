/-!
# Spans of formula text

A span is a range of byte offsets.  Editors count characters, so an offset can
be turned into a line and a column.
-/

namespace TableQuery

structure Span where
  start : Nat
  stop : Nat
deriving DecidableEq, Repr

namespace Span

def join (a b : Span) : Span := ⟨min a.start b.start, max a.stop b.stop⟩

def toText (span : Span) : String :=
  toString span.start ++ ".." ++ toString span.stop

end Span

def byteLength : List Char → Nat
  | [] => 0
  | c :: cs => c.utf8Size + byteLength cs

def advance (offset : Nat) :
    (position line column : Nat) → List Char → Nat × Nat
  | _, line, column, [] => (line, column)
  | position, line, column, c :: rest =>
    if offset ≤ position then (line, column)
    else if c == '\n' then
      advance offset (position + c.utf8Size) (line + 1) 1 rest
    else advance offset (position + c.utf8Size) line (column + 1) rest

/-- The line and the column, both from 1 and in characters, of a byte offset.
An offset past the end stands for the place after the last character. -/
def lineColumn (source : String) (offset : Nat) : Nat × Nat :=
  advance offset 0 1 1 source.toList

end TableQuery
