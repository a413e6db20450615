import TableQuery.Formula.Span
import TableQuery.Text.Trim

/-!
# Diagnostics

A message drawn under the line of the formula that it is about, with the span
underlined.  The drawing counts one column per character and expects a span
within one line.
-/

namespace TableQuery.Diagnostic

def lineAt (offset : Nat) : (start : Nat) → List (List Char) → List Char × Nat
  | start, [] => ([], start)
  | start, [line] => (line, start)
  | start, line :: lines =>
    if offset ≤ start + line.length then (line, start)
    else lineAt offset (start + line.length + 1) lines

def lines (source : String) : List (List Char) :=
  (source.splitOn "\n").map String.toList

def spaces (n : Nat) : String := String.ofList (List.replicate n ' ')

def dashes (n : Nat) : String := String.ofList (List.replicate n '─')

def pointer (column width : Nat) (message : String) : String × String :=
  if width = 0 then (spaces column ++ "│ ", spaces column ++ "╰─ " ++ message)
  else
    let middle := width / 2
    (spaces column ++ dashes middle ++ "┬" ++
      dashes (width - middle - 1) ++ "  ",
      spaces (column + middle) ++ "╰" ++ dashes (width - middle - 1 + 2) ++
      " " ++ message)

/-- Draws a message; a span that leaves the source shows the message alone. -/
def render (source : String) (span : Span) (message : String) : String :=
  let heading := "Error: " ++ message ++ "\n"
  let size := source.toList.length
  if size < span.start || size < span.stop then heading
  else
    let (line, start) := lineAt span.start 0 (lines source)
    let (row, column) := lineColumn source span.start
    let number := toString row
    let margin := spaces (number.length + 2)
    let (underline, arrow) :=
      pointer (span.start - start) (span.stop - span.start) message
    heading ++
      margin ++ "╭─[ <unknown>:" ++ number ++ ":" ++ toString column ++
      " ]\n" ++ margin ++ "│\n" ++
      " " ++ number ++ " │ " ++ String.ofList (Text.trimEnd line) ++ "\n" ++
      margin ++ "│ " ++ underline ++ "\n" ++
      margin ++ "│ " ++ arrow ++ "\n" ++
      dashes (number.length + 2) ++ "╯\n"

end TableQuery.Diagnostic
