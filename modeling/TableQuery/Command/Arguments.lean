/-!
# Command-line arguments

Sorts the arguments of a command into options and plain words.  Options and
words may stand in any order; after `--` everything is a word.
-/

namespace TableQuery

/-! ## Options -/

structure OptionSpec where
  name : String
  short : Option Char := none
  takesValue : Bool := true
  accepts : String → Bool := fun _ => true

inductive UsageError where
  | unexpectedArgument (text : String)
  | missingValue (option : String)
  | unexpectedValue (option : String)
  | invalidValue (option text : String)
  | repeatedOption (option : String)
  | missingArgument (name : String)
  | missingCommand
  | unknownCommand (name : String)
deriving DecidableEq, Repr

def UsageError.message : UsageError → String
  | unexpectedArgument text => "unexpected argument '" ++ text ++ "' found"
  | missingValue option => "a value is required for '--" ++ option ++ "'"
  | unexpectedValue option => "'--" ++ option ++ "' takes no value"
  | invalidValue option text =>
    "invalid value '" ++ text ++ "' for '" ++ option ++ "'"
  | repeatedOption option =>
    "'--" ++ option ++ "' cannot be used multiple times"
  | missingArgument name => "'" ++ name ++ "' was not provided"
  | missingCommand => "a command is required"
  | unknownCommand name => "unrecognized command '" ++ name ++ "'"

inductive Stop where
  | help
  | version
  | usage (e : UsageError)
deriving DecidableEq, Repr

/-! ## Sorting -/

structure Arguments where
  values : List (String × String) := []
  flags : List String := []
  words : List String := []
deriving DecidableEq, Repr

namespace Arguments

def value? (a : Arguments) (name : String) : Option String :=
  a.values.lookup name

def hasFlag (a : Arguments) (name : String) : Bool := a.flags.contains name

def addWord (a : Arguments) (limit : Nat) (text : String) :
    Except Stop Arguments :=
  if a.words.length < limit then .ok { a with words := a.words ++ [text] }
  else .error (.usage (.unexpectedArgument text))

def addValue (a : Arguments) (spec : OptionSpec) (text : String) :
    Except Stop Arguments :=
  if (a.value? spec.name).isSome then
    .error (.usage (.repeatedOption spec.name))
  else if !spec.accepts text then .error (.usage (.invalidValue spec.name text))
  else .ok { a with values := a.values ++ [(spec.name, text)] }

def addFlag (a : Arguments) (spec : OptionSpec) : Except Stop Arguments :=
  if a.hasFlag spec.name then .error (.usage (.repeatedOption spec.name))
  else .ok { a with flags := a.flags ++ [spec.name] }

abbrev Pending := Arguments × Option OptionSpec

def splitValue (cs : List Char) : List Char × Option (List Char) :=
  match cs.dropWhile (· != '=') with
  | [] => (cs, none)
  | _ :: value => (cs.takeWhile (· != '='), some value)

def addLong (specs : List OptionSpec) (a : Arguments) (cs : List Char) :
    Except Stop Pending :=
  let (name, value) := splitValue cs
  match specs.find? (·.name == String.ofList name) with
  | none =>
    .error (.usage (.unexpectedArgument (String.ofList ('-' :: '-' :: name))))
  | some spec =>
    if spec.takesValue then
      match value with
      | some value => (a.addValue spec (String.ofList value)).map (·, none)
      | none => .ok (a, some spec)
    else
      match value with
      | some _ => .error (.usage (.unexpectedValue spec.name))
      | none =>
        if spec.name == "help" then .error .help
        else if spec.name == "version" then .error .version
        else (a.addFlag spec).map (·, none)

/-- Takes in the letters behind one dash.  The rest of the text after an option
that takes a value is that value. -/
def addShort (specs : List OptionSpec) (a : Arguments) :
    List Char → Except Stop Pending
  | [] => .ok (a, none)
  | c :: rest =>
    match specs.find? (·.short == some c) with
    | none => .error (.usage (.unexpectedArgument (String.ofList ['-', c])))
    | some spec =>
      if spec.takesValue then
        match rest with
        | [] => .ok (a, some spec)
        | '=' :: value => (a.addValue spec (String.ofList value)).map (·, none)
        | value => (a.addValue spec (String.ofList value)).map (·, none)
      else if spec.name == "help" then .error .help
      else if spec.name == "version" then .error .version
      else
        match a.addFlag spec with
        | .error e => .error e
        | .ok a => addShort specs a rest

/-- Sorts arguments, with `limit` words at most.  A command that has commands of
its own sorts only the options before the first word. -/
def sort (specs : List OptionSpec) (limit : Option Nat) :
    Pending → List String → Except Stop (Arguments × List String)
  | (_, some spec), [] => .error (.usage (.missingValue spec.name))
  | (a, none), [] => .ok (a, [])
  | (a, waiting), text :: rest =>
    match waiting, text.toList with
    | some spec, ['-', '-'] => .error (.usage (.missingValue spec.name))
    | none, ['-', '-'] =>
      (rest.foldlM (fun (a : Arguments) text => a.addWord (limit.getD 0) text)
        a).map (·, [])
    | some spec, '-' :: _ :: _ => .error (.usage (.missingValue spec.name))
    | none, '-' :: '-' :: cs =>
      match addLong specs a cs with
      | .error e => .error e
      | .ok pending => sort specs limit pending rest
    | none, '-' :: c :: cs =>
      match addShort specs a (c :: cs) with
      | .error e => .error e
      | .ok pending => sort specs limit pending rest
    | some spec, _ =>
      match a.addValue spec text with
      | .error e => .error e
      | .ok a => sort specs limit (a, none) rest
    | none, _ =>
      match limit with
      | none => .ok (a, text :: rest)
      | some limit =>
        match a.addWord limit text with
        | .error e => .error e
        | .ok a => sort specs (some limit) (a, none) rest

def word (a : Arguments) (index : Nat) (name : String) : Except Stop String :=
  match a.words[index]? with
  | some text => .ok text
  | none => .error (.usage (.missingArgument name))

def value (a : Arguments) (name : String) : Except Stop String :=
  match a.value? name with
  | some text => .ok text
  | none => .error (.usage (.missingArgument ("--" ++ name)))

end Arguments

end TableQuery
