import TableQuery.Compilation.Clause
import TableQuery.Toml.Reader

/-!
# Settings

The settings of the program: how formulas are read, what becomes of sorts that
lose their clause, and where the catalog is.  They come from a TOML file, and
each has a default.
-/

namespace TableQuery

structure Settings where
  separators : List String := defaultSeparators
  maxDepth : Nat := Tree.defaultMaxDepth
  policy : OrderByPolicy := .retargetFirstAggregation
  catalogPath : Option String := none
  logLevel : String := "warn"
deriving Repr

inductive SettingsError where
  | fileNotFound (path : String)
  | unreadable (e : FileError)
  | unparsable
  | missingVariable (name : String)
  | blankSeparator
  | zeroDepth
deriving DecidableEq, Repr

def SettingsError.message : SettingsError → String
  | fileNotFound path => "Config file not found: " ++ path
  | unreadable e => "Failed to read config file: " ++ e.message
  | unparsable => "Failed to parse config file"
  | missingVariable name => "Missing environment variable: " ++ name
  | blankSeparator =>
    "Invalid configuration: formula.path_separators must not contain blank entries"
  | zeroDepth => "Invalid configuration: formula.max_depth must be at least 1"

/-! ## Variables in paths -/

def isVariableChar (c : Char) : Bool := Unicode.isAlphanumeric c || c == '_'

section

variable {m : Type → Type} [Monad m] (getVariable : String → m (Option String))

mutual

/-- Replaces the first variables of a text, `fuel` at most, by their values.  A
dollar sign that no name follows stands for itself. -/
def expandFrom : (fuel : Nat) → List Char → ExceptT SettingsError m (List Char)
  | 0, cs => return cs
  | _ + 1, [] => return []
  | fuel + 1, c :: cs =>
    if c != '$' then return c :: (← expandFrom fuel cs)
    else if cs.head? == some '{' then
      expandName fuel (cs.tail.takeWhile (· != '}'))
        ((cs.tail.dropWhile (· != '}')).drop 1)
    else if (cs.takeWhile isVariableChar).isEmpty then
      return c :: (← expandFrom fuel cs)
    else expandName fuel (cs.takeWhile isVariableChar)
      (cs.dropWhile isVariableChar)

def expandName (fuel : Nat) (name rest : List Char) :
    ExceptT SettingsError m (List Char) := do
  match ← getVariable (String.ofList name) with
  | none => throw (.missingVariable (String.ofList name))
  | some value => return value.toList ++ (← expandFrom fuel rest)

end

def expandVariables (text : String) : ExceptT SettingsError m String := do
  return String.ofList
    (← expandFrom getVariable (text.toList.length + 1) text.toList)

end

namespace Settings

instance : Inhabited Settings := ⟨{}⟩

def compileOptions (s : Settings) : CompileOptions :=
  ⟨s.separators, s.maxDepth, s.policy⟩

/-! ## Stored form -/

def toJson (s : Settings) : Json :=
  .object [
    ("formula", .object [
      ("path_separators", .array (s.separators.map .string)),
      ("max_depth", .ofNat s.maxDepth)]),
    ("consistency", .object [("order_by_policy", .string s.policy.name)]),
    ("catalog", .object [("path", (s.catalogPath.map Json.string).getD .null)]),
    ("logging", .object [("level", .string s.logLevel)])]

def section? (names : List String) (field : Option Json) :
    Option (List (Option Json)) :=
  match field with
  | none => some (names.map fun _ => none)
  | some j => j.fields? names

def ofJson? (j : Json) : Option Settings := do
  match ← j.fields? ["formula", "consistency", "catalog", "logging"] with
  | [formula, consistency, catalog, logging] =>
    match ← section? ["path_separators", "max_depth"] formula,
        ← section? ["order_by_policy"] consistency, ← section? ["path"] catalog,
        ← section? ["level"] logging with
    | [separators, depth], [policy], [path], [level] =>
      return {
        separators := ← Json.defaulted? (Json.list? Json.string?)
          defaultSeparators separators
        maxDepth := ← Json.defaulted? Json.nat64? Tree.defaultMaxDepth depth
        policy := ← Json.defaulted? (·.string?.bind OrderByPolicy.ofName?)
          .retargetFirstAggregation policy
        catalogPath := ← Json.optional? Json.string? path
        logLevel := ← Json.defaulted? Json.string? "warn" level }
    | _, _, _, _ => none
  | _ => none

/-! ## Reading -/

def check (s : Settings) : Except SettingsError Settings :=
  if s.separators.any fun separator => (Text.trimmed separator).isEmpty then
    .error .blankSeparator
  else if s.maxDepth = 0 then .error .zeroDepth
  else .ok s

def ofToml (text : String) : Except SettingsError Settings :=
  match (Toml.parse? text).bind ofJson? with
  | some s => s.check
  | none => .error .unparsable

def ofFile (path : String) :
    Except FileError String → Except SettingsError Settings
  | .ok text => ofToml text
  | .error e =>
    .error (if e.isAbsence then .fileNotFound path else .unreadable e)

/-! ## Places -/

section

variable {m : Type → Type} [Monad m] (env : Environment m)

def load (path : String) : ExceptT SettingsError m Settings := do
  ofFile path (← env.fileText path)

def loadFirst : List String → ExceptT SettingsError m Settings
  | [] => return {}
  | path :: paths => do
    match ofFile path (← env.fileText path) with
    | .error (.fileNotFound _) => loadFirst paths
    | read => read

def userDirectory? : m (Option String) := do
  match (← env.getVariable "XDG_CONFIG_HOME").filter (·.startsWith "/") with
  | some directory => return some directory
  | none => return (← env.getVariable "HOME").map (· ++ "/.config")

/-- Settings from the usual places: the file that a variable names, or else the
first that exists of a file in the current directory and one of the user's. -/
def find : ExceptT SettingsError m Settings := do
  match ← env.getVariable "QUARRY_CONFIG" with
  | some path => load env path
  | none =>
    let directory ← (userDirectory? env : m (Option String))
    loadFirst env
      ("quarry.toml" :: (directory.map (· ++ "/quarry/config.toml")).toList)

def resolvedCatalogPath (s : Settings) :
    ExceptT SettingsError m (Option String) := do
  match s.catalogPath with
  | none => return none
  | some path => return some (← expandVariables env.getVariable path)

end

end Settings

end TableQuery
