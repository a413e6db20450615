import TableQuery.Command.Run

/-!
# The program

Carries out the command that its arguments ask for on the machine that it runs
on.
-/

namespace TableQuery

def fileError : IO.Error → FileError
  | .noFileOrDirectory _ _ _ => .notFound
  | .inappropriateType _ _ _ => .isDirectory
  | e => .other (toString e)

def readText (path : String) : IO (Except FileError String) := do
  try
    match String.fromUTF8? (← IO.FS.readBinFile path) with
    | some text => return .ok text
    | none => return .error .notText
  catch e => return .error (fileError e)

def machine : Environment IO := ⟨readText, fun name => IO.getEnv name⟩

end TableQuery

def main (args : List String) : IO UInt32 := do
  let result ← TableQuery.runArguments TableQuery.machine args
  IO.print result.output
  IO.eprint result.errors
  return UInt32.ofNat result.code
