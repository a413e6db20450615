import TableQuery.Command.Arguments
import TableQuery.Compilation.Clause

/-!
# Commands

What the program can be asked to do, and how its arguments say so.
-/

namespace TableQuery

inductive Command where
  | parse (formula : String) (tree : Bool)
  | compile (formula : String) (target : FormulaTarget)
      (catalog query : Option String) (table : Option TableId)
      (name : Option String) (add : Bool)
  | granularities (field : String) (catalog : Option String) (table : TableId)
  | validate (file : String) (catalog : Option String)
  | run (file : String)
deriving DecidableEq, Repr

structure Invocation where
  settings : Option String
  command : Command
deriving DecidableEq, Repr

namespace Command

/-! ## Values of options -/

def tableId? (text : String) : Option TableId :=
  match text.toList with
  | '+' :: cs => Json.digits64? (String.ofList cs)
  | _ => Json.digits64? text

def target? (text : String) : Option FormulaTarget :=
  match text with
  | "aggregation" => some .aggregation
  | "filter" => some .filter
  | "expression" => some .customColumn
  | _ => none

def isPath (text : String) : Bool := text != ""

/-! ## Options -/

def helpOption : OptionSpec :=
  { name := "help", short := some 'h', takesValue := false }

def versionOption : OptionSpec :=
  { name := "version", short := some 'V', takesValue := false }

def settingsOption : OptionSpec := { name := "config", accepts := isPath }

def catalogOption : OptionSpec :=
  { name := "catalog", short := some 'c', accepts := isPath }

def queryOption : OptionSpec :=
  { name := "query", short := some 'q', accepts := isPath }

def tableOption : OptionSpec :=
  { name := "table", short := some 't',
    accepts := fun text => (tableId? text).isSome }

def targetOption : OptionSpec :=
  { name := "as", accepts := fun text => (target? text).isSome }

def nameOption : OptionSpec := { name := "name", short := some 'n' }

def flag (name : String) : OptionSpec := { name, takesValue := false }

/-! ## Reading commands -/

def file (a : Arguments) : Except Stop String := do
  let path ← a.word 0 "<FILE>"
  if isPath path then return path
  else throw (.usage (.invalidValue "<FILE>" path))

def needed {α : Type} (name text : String) : Option α → Except Stop α
  | some a => .ok a
  | none => .error (.usage (.invalidValue name text))

structure Reader where
  name : String
  options : List OptionSpec
  read : Arguments → Except Stop Command

def readers : List Reader := [
  { name := "parse"
    options := [flag "tree"]
    read := fun a => do
      return parse (← a.word 0 "<FORMULA>") (a.hasFlag "tree") },
  { name := "compile"
    options := [catalogOption, queryOption, tableOption, targetOption,
      nameOption, flag "add"]
    read := fun a => do
      let formula ← a.word 0 "<FORMULA>"
      let text ← a.value "as"
      let target ← needed "as" text (target? text)
      return compile formula target (a.value? "catalog") (a.value? "query")
        ((a.value? "table").bind tableId?) (a.value? "name")
        (a.hasFlag "add") },
  { name := "granularities"
    options := [catalogOption, tableOption]
    read := fun a => do
      let field ← a.word 0 "<FIELD>"
      let text ← a.value "table"
      return granularities field (a.value? "catalog")
        (← needed "table" text (tableId? text)) },
  { name := "validate"
    options := [catalogOption]
    read := fun a => do return validate (← file a) (a.value? "catalog") },
  { name := "run"
    options := []
    read := fun a => do return run (← file a) }]

def helpOn : List String → Stop
  | [] => .help
  | [name] =>
    if name == "help" || readers.any (·.name == name) then .help
    else .usage (.unknownCommand name)
  | _ :: text :: _ => .usage (.unknownCommand text)

end Command

namespace Invocation

/-- The command that arguments ask for.  The settings file may be named before
the command or among its arguments, and the latter counts. -/
def ofArguments (args : List String) : Except Stop Invocation := do
  let outer :=
    [Command.helpOption, Command.versionOption, Command.settingsOption]
  let (before, rest) ← Arguments.sort outer none ({}, none) args
  match rest with
  | [] => throw (.usage .missingCommand)
  | name :: rest =>
    match Command.readers.find? (·.name == name) with
    | none => throw (if name == "help" then Command.helpOn rest else
      .usage (.unknownCommand name))
    | some reader =>
      let inner :=
        [Command.helpOption, Command.settingsOption] ++ reader.options
      let (a, _) ← Arguments.sort inner (some 1) ({}, none) rest
      let command ← reader.read a
      return ⟨a.value? "config" <|> before.value? "config", command⟩

end Invocation

end TableQuery
