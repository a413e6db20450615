/-!
# Files and variables

What a command can see of the machine that it runs on: the texts of files by
path, and environment variables by name.
-/

namespace TableQuery

inductive FileError where
  | notFound
  | isDirectory
  | notDirectory
  | notText
  | other (message : String)
deriving DecidableEq, Repr

namespace FileError

def message : FileError → String
  | notFound => "No such file or directory (os error 2)"
  | isDirectory => "Is a directory (os error 21)"
  | notDirectory => "Not a directory (os error 20)"
  | notText => "stream did not contain valid UTF-8"
  | other message => message

def isAbsence : FileError → Bool
  | notFound | notDirectory => true
  | _ => false

end FileError

/-- What can be asked of the machine, as actions of a monad: those of a
description of a machine are pure. -/
structure Environment (m : Type → Type) where
  fileText : String → m (Except FileError String)
  getVariable : String → m (Option String)

def extension? (path : String) : Option String :=
  let pieces := (path.splitOn "/").filter fun piece =>
    piece != "" && piece != "."
  match pieces.getLast? with
  | none => none
  | some name =>
    let parts := name.splitOn "."
    match parts.dropLast, parts.getLast? with
    | [], _ | [""], _ | _, none => none
    | _, some last => if name == ".." then none else some last

end TableQuery
