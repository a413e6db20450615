import TableQuery.Command.Basic
import TableQuery.Evaluation.Tracker
import TableQuery.Formula.Diagnostic
import TableQuery.Query.Outline
import TableQuery.Sample
import TableQuery.Settings
import TableQuery.Wire.Query

/-!
# Carrying out commands

What a command prints, given the files and variables that it can see.
-/

namespace TableQuery

structure CommandResult where
  code : Nat
  output : String
  errors : String
deriving DecidableEq, Repr

namespace CommandResult

def success (output : String) : CommandResult := ⟨0, output, ""⟩

def failure (errors : String) : CommandResult := ⟨1, "", errors⟩

def misuse (e : UsageError) : CommandResult :=
  ⟨2, "", "error: " ++ e.message ++ "\n"⟩

def aborted : CommandResult := ⟨101, "", "aborted\n"⟩

end CommandResult

namespace Command

def line (text : String) : String := text ++ "\n"

abbrev Step (m : Type → Type) := ExceptT CommandResult m

section

variable {m : Type → Type} [Monad m]

def failLine {α : Type} (text : String) : Step m α :=
  throw (.failure (line text))

def orFail {ε α : Type} (describe : ε → String) : Except ε α → Step m α
  | .ok a => return a
  | .error e => failLine (describe e)

/-! ## Inputs -/

variable (env : Environment m)

def loadSettings (path : Option String) : Step m Settings := do
  let read := match path with
    | some path => Settings.load env path
    | none => Settings.find env
  orFail (fun (e : SettingsError) => "Error loading config: " ++ e.message)
    (← read.run)

/-- The catalog named with the command, else the one of the settings, else the
sample. -/
def loadCatalog (settings : Settings) (path : Option String) :
    Step m Catalog := do
  let configured ←
    orFail
      (fun (e : SettingsError) => "Error in catalog setting: " ++ e.message)
      (← (Settings.resolvedCatalogPath env settings).run)
  match path <|> configured with
  | none => return Sample.catalog
  | some path =>
    orFail
      (fun (e : CatalogError) =>
        "Error loading catalog '" ++ path ++ "': " ++ e.message)
      (Catalog.ofFile path (← env.fileText path))

def loadQuery (path : String) : Step m Query := do
  let text ←
    orFail
      (fun (e : FileError) =>
        "Error reading file '" ++ path ++ "': " ++ e.message)
      (← env.fileText path)
  orFail (fun (e : WireError) => "Error in '" ++ path ++ "': " ++ e.message)
    (Wire.queryOfText text)

def report (source : String) (e : QueryError) : CommandResult :=
  .failure (match e.span? with
    | some span => Diagnostic.render source span e.message
    | none => line ("Error: " ++ e.message))

/-! ## Commands -/

def runParse (formula : String) (tree : Bool) : Step m String :=
  match Tree.parse formula with
  | .ok t => return line t.render ++ if tree then line t.outline.pretty else ""
  | .error e => throw (.failure (Diagnostic.render formula e.span e.reason))

def startQuery (c : Catalog) (query : Option String) (table : Option TableId) :
    Step m Query :=
  match query, table with
  | some path, _ => loadQuery env path
  | none, some id => return .table id
  | none, none =>
    match c.tables with
    | t :: _ => return .table t.id
    | [] => failLine "Error: the catalog has no tables"

def clauseExpression? : Clause → Option Expression
  | .aggregation a => some a.expression
  | .filter predicate => some predicate
  | .customColumn c => some c.expression
  | .breakout _ => none
  | .orderBy _ => none

def compiledText (compiled : CompiledClause) : String :=
  line ("-- " ++ compiled.clause.kind.describe ++ ": " ++
    compiled.displayName) ++
    line ("-- kind: " ++ compiled.kind.describe) ++
    (match clauseExpression? compiled.clause with
      | some e => line (Wire.expressionToJson e).pretty
      | none => "")

def runCompile (settings : Settings) (formula : String) (target : FormulaTarget)
    (catalog query : Option String) (table : Option TableId)
    (name : Option String) (add : Bool) : Step m String := do
  let c ← loadCatalog env settings catalog
  let q ← startQuery env c query table
  if add then
    match (Draft.ofQuery q).addFormula c settings.compileOptions formula target
      name none with
    | .error e => throw (report formula e)
    | .ok d =>
      return line (← orFail (fun (e : WireError) => "Error: " ++ e.message)
        (Wire.queryToText d.query))
  else
    match q.compile c settings.compileOptions formula target name with
    | .error e => throw (report formula e)
    | .ok compiled => return compiledText compiled

def padEnd (width : Nat) (text : String) : String :=
  text ++ String.ofList (List.replicate (width - text.length) ' ')

def runGranularities (settings : Settings) (field : String)
    (catalog : Option String) (table : TableId) : Step m String := do
  let c ← loadCatalog env settings catalog
  let some fields :=
    c.fields? table | failLine ("Error: unknown table " ++ toString table)
  let some info := fields.find? (·.name == field)
    | failLine ("Error: table " ++ toString table ++ " has no field named '" ++
      field ++ "'")
  match c.units info.id with
  | [] =>
    return line (info.name ++ " (" ++ info.kind.describe ++
      ") has no temporal granularities")
  | units =>
    return String.join (units.map fun unit =>
      line (padEnd 16 unit.name ++ " " ++ unit.label))

def runValidate (settings : Settings) (file : String)
    (catalog : Option String) : Step m String := do
  let c ← loadCatalog env settings catalog
  let q ← loadQuery env file
  orFail (fun (e : ConsistencyError) => "Validation error: " ++ e.message)
    (q.validate c)
  return line ("OK: " ++ file ++ " is valid")

def tabbed (texts : List String) : String := line ("\t".intercalate texts)

def resultText (r : ResultSet) : String :=
  tabbed (r.columns.map Prod.fst) ++ String.join (r.rows.map fun row =>
    tabbed (row.map Cell.toText))

def runQuery (file : String) : Step m String := do
  let q ← loadQuery env file
  match ((default : Tracker).run Sample.database (.ofQuery q)).2 with
  | .ok (.current result) => return resultText result
  | .ok (.stale _) => failLine "Results were superseded"
  | .error (.aborted _) => throw .aborted
  | .error e => failLine ("Execution error: " ++ e.message)

def runWith (settings : Settings) : Command → Step m String
  | parse formula tree => runParse formula tree
  | compile formula target catalog query table name add =>
    runCompile env settings formula target catalog query table name add
  | granularities field catalog table =>
    runGranularities env settings field catalog table
  | validate file catalog => runValidate env settings file catalog
  | run file => runQuery env file

end

def usageText : String :=
  "Compile custom expressions into structured analytic queries\n\n" ++
    "Usage: quarry [--config <FILE>] <COMMAND>\n\n" ++
    "Commands:\n" ++
    "  parse          Parse a formula and print it back in canonical form\n" ++
    "  compile        Compile a formula into a clause\n" ++
    "  granularities  List the breakout granularities of a field\n" ++
    "  validate       Check a query's clauses against the catalog\n" ++
    "  run            Execute a query against the sample dataset\n"

def versionText : String := "quarry 0.1.0\n"

end Command

section

variable {m : Type → Type} [Monad m] (env : Environment m)

def Invocation.run (i : Invocation) : m CommandResult := do
  let step : Command.Step m String := do
    let settings ← Command.loadSettings env i.settings
    i.command.runWith env settings
  match ← step.run with
  | .ok output => return .success output
  | .error result => return result

def runArguments (args : List String) : m CommandResult :=
  match Invocation.ofArguments args with
  | .ok invocation => invocation.run env
  | .error .help => return .success Command.usageText
  | .error .version => return .success Command.versionText
  | .error (.usage e) => return .misuse e

end

end TableQuery
