import TableQuery.Expression
import TableQuery.Json.Writer
import TableQuery.Wire.Error
import TableQuery.Wire.Number

/-!
# The stored form of expressions

Expressions are stored as arrays whose first item is a tag.  Chains of one
logical connective are stored flat; a minus with one operand negates.  A form
whose tag is not known is kept as it is.
-/

namespace TableQuery.Wire

/-- The tag of an array that starts with a string, and the items after it. -/
def tagged? : Json → Option (String × List Json)
  | .array (.string tag :: args) => some (tag, args)
  | _ => none

def taggedArray (tag : String) (args : List Json) : Json :=
  .array (.string tag :: args)

/-! ## Columns -/

def identifierToJson : Identifier → Json
  | .field id => taggedArray "field-id" [.ofNat id]
  | .foreign key id =>
    taggedArray "fk->" [taggedArray "field-id" [.ofNat key],
      taggedArray "field-id" [.ofNat id]]
  | .customColumn name => taggedArray "expression" [.string name]
  | .stageColumn name kind =>
    taggedArray "field-literal" [.string name, .string kind.baseType]
  | .aggregation index => taggedArray "aggregation" [.ofNat index]

def fieldId (path : String) (j : Json) : Except WireError FieldId :=
  match tagged? j with
  | some ("field-id", [id]) =>
    match id.nat64? with
    | some n => .ok n
    | none => .error (.malformed path "field-id takes an integer")
  | _ =>
    match j.nat64? with
    | some n => .ok n
    | none => .error (.malformed path "expected a field-id reference")

def identifier? (path : String) (j : Json) :
    Except WireError (Option Identifier) :=
  match tagged? j with
  | none => .ok none
  | some (tag, args) =>
    match tag, args with
    | "field-id", [_] => do return some (.field (← fieldId path j))
    | "fk->", [key, id] => do
      let key ← fieldId path key
      return some (.foreign key (← fieldId path id))
    | "expression", [name] =>
      match name.string? with
      | some name => .ok (some (.customColumn name))
      | none => .error (.malformed path "expression reference takes a name")
    | "field-literal", [name, base] =>
      match name.string? with
      | some name =>
        .ok (some (.stageColumn name
          ((base.string?.bind ValueKind.ofBaseType?).getD .unknown)))
      | none => .error (.malformed path "field-literal takes a name")
    | "aggregation", [index] =>
      match index.nat64? with
      | some index => .ok (some (.aggregation index))
      | none => .error (.malformed path "aggregation index must be an integer")
    | _, _ =>
      if ["field-id", "fk->", "expression", "field-literal",
        "aggregation"].contains tag then
        .error (.malformed path ("wrong number of arguments to " ++ tag))
      else .ok none

def identifier (path : String) (j : Json) : Except WireError Identifier := do
  match ← identifier? path j with
  | some id => return id
  | none => throw (.malformed path "expected a field reference")

/-! ## Writing -/

def unaryTag : UnaryOp → String
  | .neg => "-"
  | .not => "not"

/-- The operands that a left operand adds to a chain of one connective: those of
its own chain, if it is one, and else itself. -/
def chainOperands (op : BinaryOp) (left : Expression) (stored : Json) :
    List Json :=
  match left, stored with
  | .binary op' _ _, .array (_ :: operands) =>
    if op' = op then operands
    else [stored]
  | _, _ => [stored]

mutual

def expressionToJson : Expression → Json
  | .number value => .number value.render
  | .string value => .string value
  | .column id => identifierToJson id
  | .call function args => taggedArray function.wireTag (argsToJson args)
  | .binary op left right =>
    let stored := expressionToJson left
    let operands :=
      if op.isLogical then chainOperands op left stored
      else [stored]
    taggedArray op.wireTag (operands ++ [expressionToJson right])
  | .unary op operand => taggedArray (unaryTag op) [expressionToJson operand]
  | .unrecognized stored => stored

def argsToJson : List Expression → List Json
  | [] => []
  | arg :: args => expressionToJson arg :: argsToJson args

end

/-! ## Reading -/

def foldOperands (op : BinaryOp) (first : Expression) (more : List Expression) :
    Expression :=
  more.foldl (.binary op) first

def isVariadic : BinaryOp → Bool
  | .and | .or | .add | .mul | .sub => true
  | _ => false

mutual

def expressionOfJson (path : String) : Json → Except WireError Expression
  | .number text =>
    match exactDecimal? text with
    | some value => .ok (.number value)
    | none =>
      .error (.malformed path
        ("number " ++ text ++ " does not fit a decimal exactly"))
  | .string value => .ok (.string value)
  | .array (.string tag :: args) => do
    match ← identifier? path (.array (.string tag :: args)) with
    | some id => return .column id
    | none =>
      if tag = "-" && args.length = 1 then
        match ← argsOfJson path args with
        | [operand] => return .unary .neg operand
        | _ => throw (.malformed path "- takes one argument")
      else if tag = "not" then
        if args.length = 1 then
          match ← argsOfJson path args with
          | [operand] => return .unary .not operand
          | _ => throw (.malformed path "not takes one argument")
        else throw (.malformed path "not takes one argument")
      else
        match BinaryOp.ofWireTag? tag with
        | some op =>
          let operands ← argsOfJson path args
          let count := if isVariadic op then "two or more" else "two"
          let refusal :=
            WireError.malformed path ("'" ++ tag ++ "' takes " ++
              count ++ " operands")
          match operands with
          | first :: second :: more =>
            if !isVariadic op && !more.isEmpty then throw refusal
            else return foldOperands op first (second :: more)
          | _ => throw refusal
        | none =>
          match Function.ofWireTag? tag with
          | some function =>
            if function.acceptsArgCount args.length then
              return .call function (← argsOfJson path args)
            else throw (.malformed path
              (tag ++ " expects " ++ function.describeArity))
          | none => return .unrecognized (.array (.string tag :: args))
  | j => .ok (.unrecognized j)

def argsOfJson (path : String) : List Json → Except WireError (List Expression)
  | [] => .ok []
  | arg :: args => do
    let first ← expressionOfJson path arg
    return first :: (← argsOfJson path args)

end

end TableQuery.Wire
