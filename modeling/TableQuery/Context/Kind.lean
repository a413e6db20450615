import TableQuery.Context.Basic

/-!
# Kinds of expressions

The kind of value that an expression produces, as far as its context tells.
-/

namespace TableQuery

def Identifier.kindIn (ctx : Context) (id : Identifier) : ValueKind :=
  match id with
  | .stageColumn _ kind => kind
  | id =>
    match ctx.lookup id with
    | some e => e.kind
    | none => .unknown

namespace Expression

def kindIn (ctx : Context) : Expression → ValueKind
  | number _ => .numeric
  | string _ => .text
  | column id => id.kindIn ctx
  | call function [] => function.resultKind .unknown
  | call function (arg :: _) => function.resultKind (kindIn ctx arg)
  | binary op _ _ => if op.isArithmetic then .numeric else .boolean
  | unary .neg _ => .numeric
  | unary .not _ => .boolean
  | unrecognized _ => .unknown

end Expression

end TableQuery
