import TableQuery.Kind

/-!
# The function catalogue

Every function that a formula may call, with its signature: how it is spelled,
how a stored query tags it, what it does with rows, and which arguments it
takes.
-/

namespace TableQuery

/-! ## Signatures -/

inductive FunctionRole where
  | aggregate
  | scalar
  | predicate
deriving DecidableEq, Repr

inductive ParamKind where
  | numeric
  | text
  | boolean
  | any
deriving DecidableEq, Repr

namespace ParamKind

def accepts : ParamKind → ValueKind → Bool
  | any, _ | _, .unknown => true
  | numeric, .numeric => true
  | text, .text => true
  | boolean, .boolean => true
  | _, _ => false

def describe : ParamKind → String
  | numeric => "a number"
  | text => "a string"
  | boolean => "a boolean"
  | any => "any value"

end ParamKind

inductive ReturnKind where
  | kind (kind : ValueKind)
  | firstArgument
deriving DecidableEq, Repr

structure Signature where
  name : String
  wireTag : String
  role : FunctionRole
  params : List ParamKind
  minArgs : Nat
  maxArgs : Option Nat
  returns : ReturnKind

namespace Signature

def aggregate (name tag : String) (params : List ParamKind) : Signature :=
  ⟨name, tag, .aggregate, params, params.length, some params.length,
    .kind .numeric⟩

def extremum (name tag : String) : Signature :=
  ⟨name, tag, .aggregate, [.any], 1, some 1, .firstArgument⟩

def counting (name tag : String) : Signature :=
  ⟨name, tag, .aggregate, [.any], 0, some 1, .kind .numeric⟩

def scalar (name tag : String) (params : List ParamKind) (returns : ValueKind) :
    Signature :=
  ⟨name, tag, .scalar, params, params.length, some params.length, .kind returns⟩

def variadic (name tag : String) (param : ParamKind) (returns : ReturnKind) :
    Signature :=
  ⟨name, tag, .scalar, [param], 1, none, returns⟩

def predicate (name tag : String) (params : List ParamKind) : Signature :=
  ⟨name, tag, .predicate, params, params.length, some params.length,
    .kind .boolean⟩

end Signature

/-! ## Functions -/

inductive Function where
  | count
  | cumulativeCount
  | sum
  | cumulativeSum
  | distinct
  | standardDeviation
  | average
  | min
  | max
  | median
  | variance
  | percentile
  | share
  | countIf
  | sumIf
  | lower
  | upper
  | trim
  | ltrim
  | rtrim
  | length
  | substring
  | concat
  | replace
  | regexExtract
  | coalesce
  | abs
  | ceil
  | floor
  | round
  | sqrt
  | power
  | exp
  | log
  | contains
  | startsWith
  | endsWith
  | isNull
  | isEmpty
  | between
deriving DecidableEq, Repr

namespace Function

def all : List Function :=
  [count, cumulativeCount, sum, cumulativeSum, distinct, standardDeviation,
    average, min, max, median, variance, percentile, share, countIf, sumIf,
    lower, upper, trim, ltrim, rtrim, length, substring, concat, replace,
    regexExtract, coalesce, abs, ceil, floor, round, sqrt, power, exp, log,
    contains, startsWith, endsWith, isNull, isEmpty, between]

def signature : Function → Signature
  | count => .counting "Count" "count"
  | cumulativeCount => .counting "CumulativeCount" "cum-count"
  | sum => .aggregate "Sum" "sum" [.numeric]
  | cumulativeSum => .aggregate "CumulativeSum" "cum-sum" [.numeric]
  | distinct => .aggregate "Distinct" "distinct" [.any]
  | standardDeviation => .aggregate "StandardDeviation" "stddev" [.numeric]
  | average => .aggregate "Average" "avg" [.numeric]
  | min => .extremum "Min" "min"
  | max => .extremum "Max" "max"
  | median => .aggregate "Median" "median" [.numeric]
  | variance => .aggregate "Variance" "var" [.numeric]
  | percentile => .aggregate "Percentile" "percentile" [.numeric, .numeric]
  | share => .aggregate "Share" "share" [.boolean]
  | countIf => .aggregate "CountIf" "count-where" [.boolean]
  | sumIf => .aggregate "SumIf" "sum-where" [.numeric, .boolean]
  | lower => .scalar "lower" "lower" [.text] .text
  | upper => .scalar "upper" "upper" [.text] .text
  | trim => .scalar "trim" "trim" [.text] .text
  | ltrim => .scalar "ltrim" "ltrim" [.text] .text
  | rtrim => .scalar "rtrim" "rtrim" [.text] .text
  | length => .scalar "length" "length" [.text] .numeric
  | substring =>
    .scalar "substring" "substring" [.text, .numeric, .numeric] .text
  | concat => .variadic "concat" "concat" .any (.kind .text)
  | replace => .scalar "replace" "replace" [.text, .text, .text] .text
  | regexExtract =>
    .scalar "regexextract" "regex-match-first" [.text, .text] .text
  | coalesce => .variadic "coalesce" "coalesce" .any .firstArgument
  | abs => .scalar "abs" "abs" [.numeric] .numeric
  | ceil => .scalar "ceil" "ceil" [.numeric] .numeric
  | floor => .scalar "floor" "floor" [.numeric] .numeric
  | round => .scalar "round" "round" [.numeric] .numeric
  | sqrt => .scalar "sqrt" "sqrt" [.numeric] .numeric
  | power => .scalar "power" "power" [.numeric, .numeric] .numeric
  | exp => .scalar "exp" "exp" [.numeric] .numeric
  | log => .scalar "log" "log" [.numeric] .numeric
  | contains => .predicate "contains" "contains" [.text, .text]
  | startsWith => .predicate "startsWith" "starts-with" [.text, .text]
  | endsWith => .predicate "endsWith" "ends-with" [.text, .text]
  | isNull => .predicate "isnull" "is-null" [.any]
  | isEmpty => .predicate "isempty" "is-empty" [.any]
  | between => .predicate "between" "between" [.any, .any, .any]

def name (f : Function) : String := f.signature.name

def wireTag (f : Function) : String := f.signature.wireTag

def role (f : Function) : FunctionRole := f.signature.role

def params (f : Function) : List ParamKind := f.signature.params

def returns (f : Function) : ReturnKind := f.signature.returns

def isAggregate (f : Function) : Bool := f.role == .aggregate

/-! ## Look-up -/

def asciiLower (s : String) : List Char := s.toList.map Char.toLower

def ofName? (s : String) : Option Function :=
  all.find? (asciiLower ·.name == asciiLower s)

def ofWireTag? (tag : String) : Option Function := all.find? (·.wireTag == tag)

/-! ## Arguments -/

def acceptsArgCount (f : Function) (n : Nat) : Bool :=
  f.signature.minArgs ≤ n && f.signature.maxArgs.all (n ≤ ·)

/-- What the argument at an index must be; the last parameter repeats. -/
def paramKind (f : Function) (index : Nat) : ParamKind :=
  (f.params[index]? <|> f.params.getLast?).getD .any

def resultKind (f : Function) (first : ValueKind) : ValueKind :=
  match f.returns with
  | .kind kind => kind
  | .firstArgument => first

def describeArity (f : Function) : String :=
  let plural (n : Nat) : String := if n = 1 then "argument" else "arguments"
  let least := f.signature.minArgs
  match f.signature.maxArgs with
  | some most =>
    if least = most then toString least ++ " " ++ plural least
    else toString least ++ " to " ++ toString most ++ " arguments"
  | none => "at least " ++ toString least ++ " " ++ plural least

end Function

end TableQuery
