import TableQuery.Context.Basic
import TableQuery.Formula.Function
import TableQuery.Formula.Tree
import TableQuery.Text.Replace
import TableQuery.Text.Trim

/-!
# Resolution

Finds the column that each reference of a formula means among the columns of a
context, and gives each call the catalogued spelling of its function.  A
reference is cut into segments, of which the last is the name of the column and
the others the end of its path.
-/

namespace TableQuery

/-! ## Segments -/

def defaultSeparators : List String := ["→", "->"]

/-- Stands for every separator in a reference while it is cut. -/
def segmentMark : Char := '\x00'

/-- Writes the segment mark for each separator, one separator after the
other. -/
def markSegments (separators : List String) (name : List Char) : List Char :=
  separators.foldl
    (fun cs separator => Text.replaceAll separator.toList [segmentMark] cs) name

def segments (separators : List String) (name : String) : List String :=
  (Text.splitOn segmentMark (markSegments separators name.toList)).map
    fun segment =>
    String.ofList (Text.trim segment)

/-! ## Errors -/

inductive ResolveError where
  | unresolvedReference (name : String) (span : Span)
  | ambiguousReference (name : String) (candidates : List String) (span : Span)
  | wrongArgCount (function : Function) (count : Nat) (span : Span)
  | nestedAggregation (function : Function) (span : Span)
deriving DecidableEq, Repr

namespace ResolveError

def span : ResolveError → Span
  | unresolvedReference _ span | ambiguousReference _ _ span
  | wrongArgCount _ _ span | nestedAggregation _ span => span

def message : ResolveError → String
  | unresolvedReference name _ => "unknown name '" ++ name ++ "'"
  | ambiguousReference name candidates _ =>
    "'" ++ name ++ "' is ambiguous; it could mean " ++
      ", ".intercalate candidates
  | wrongArgCount function count _ =>
    function.name ++ " expects " ++ function.describeArity ++ ", got " ++
      toString count
  | nestedAggregation function _ =>
    function.name ++ " cannot contain another aggregation"

end ResolveError

/-! ## Resolved trees -/

def Function.namesAggregate (name : String) : Bool :=
  (ofName? name).any (·.isAggregate)

namespace Tree

mutual

/-- Whether a resolved tree aggregates: by a call, or by a reference to an
earlier aggregation. -/
def containsAggregate : Tree → Bool
  | number _ _ | string _ _ => false
  | reference _ target _ => (target.bind Identifier.aggregationIndex?).isSome
  | call function args _ =>
    Function.namesAggregate function || anyContainsAggregate args
  | binary _ left right _ => containsAggregate left || containsAggregate right
  | unary _ operand _ => containsAggregate operand

def anyContainsAggregate : List Tree → Bool
  | [] => false
  | arg :: args => containsAggregate arg || anyContainsAggregate args

end

def shorthandCall? : List String → Option Function
  | [name] => (Function.ofName? name).filter fun f =>
  f.isAggregate && f.acceptsArgCount 0
  | _ => none

def resolveReference (ctx : Context) (separators : List String) (name : String)
    (span : Span) : Except ResolveError Tree :=
  let parts := segments separators name
  match ctx.candidates parts with
  | [entry] => .ok (reference name (some entry.identifier) span)
  | [] =>
    match shorthandCall? parts with
    | some function => .ok (call function.name [] span)
    | none => .error (.unresolvedReference (Text.trimmed name) span)
  | many =>
    .error (.ambiguousReference (Text.trimmed name)
      (many.map Entry.qualifiedName) span)

mutual

def resolve (ctx : Context) (separators : List String) :
    Tree → Except ResolveError Tree
  | number value span => .ok (number value span)
  | string value span => .ok (string value span)
  | reference name _ span => resolveReference ctx separators name span
  | call name args span =>
    match Function.ofName? name with
    | none => .error (.unresolvedReference name span)
    | some function =>
      if !function.acceptsArgCount args.length then
        .error (.wrongArgCount function args.length span)
      else
        match resolveArgs ctx separators args with
        | .error e => .error e
        | .ok args =>
          match if function.isAggregate then args.find? containsAggregate
            else none with
          | some inner => .error (.nestedAggregation function inner.span)
          | none => .ok (call function.name args span)
  | binary op left right span =>
    match resolve ctx separators left with
    | .error e => .error e
    | .ok left =>
      match resolve ctx separators right with
      | .error e => .error e
      | .ok right => .ok (binary op left right span)
  | unary op operand span =>
    match resolve ctx separators operand with
    | .error e => .error e
    | .ok operand => .ok (unary op operand span)

def resolveArgs (ctx : Context) (separators : List String) :
    List Tree → Except ResolveError (List Tree)
  | [] => .ok []
  | arg :: args =>
    match resolve ctx separators arg with
    | .error e => .error e
    | .ok arg =>
      match resolveArgs ctx separators args with
      | .error e => .error e
      | .ok args => .ok (arg :: args)

end

end Tree

end TableQuery
