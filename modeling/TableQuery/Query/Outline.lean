import TableQuery.Formula.Tree
import TableQuery.Query.Clause
import TableQuery.Text.Outline

/-!
# Outlines of formulas and identifiers

Formula trees, columns and sort targets with all their parts.
-/

namespace TableQuery

/-! ## Identifiers -/

def CalendarShape.outline : CalendarShape → Outline
  | date => .atom "Date"
  | dateTime => .atom "DateTime"
  | time => .atom "Time"

def ValueKind.outline : ValueKind → Outline
  | numeric => .atom "Numeric"
  | text => .atom "String"
  | boolean => .atom "Boolean"
  | temporal shape => .variant "Temporal" [shape.outline]
  | unknown => .atom "Unknown"

def fieldIdOutline (id : FieldId) : Outline :=
  .variant "FieldId" [.atom (toString id)]

def Identifier.outline : Identifier → Outline
  | field id => .variant "Field" [fieldIdOutline id]
  | foreign key id =>
    .record "ForeignField" [("fk", fieldIdOutline key),
      ("field", fieldIdOutline id)]
  | customColumn name => .variant "CustomColumn" [.quoted name]
  | stageColumn name kind =>
    .record "StageColumn" [("name", .quoted name), ("kind", kind.outline)]
  | aggregation index => .variant "Aggregation" [.atom (toString index)]

def OrderTarget.outline : OrderTarget → Outline
  | aggregation index => .variant "Aggregation" [.atom (toString index)]
  | breakout index => .variant "Breakout" [.atom (toString index)]
  | column id => .variant "Field" [id.outline]

/-! ## Trees -/

def BinaryOp.outline : BinaryOp → Outline
  | add => .atom "Add"
  | sub => .atom "Sub"
  | mul => .atom "Mul"
  | div => .atom "Div"
  | eq => .atom "Eq"
  | ne => .atom "Ne"
  | lt => .atom "Lt"
  | gt => .atom "Gt"
  | le => .atom "Le"
  | ge => .atom "Ge"
  | and => .atom "And"
  | or => .atom "Or"

def UnaryOp.outline : UnaryOp → Outline
  | neg => .atom "Neg"
  | not => .atom "Not"

namespace Tree

def nodeOutline (kind : Outline) (span : Span) : Outline :=
  .record "Expr" [("kind", kind), ("span", .atom span.toText)]

def literalOutline (name : String) (value : Outline) : Outline :=
  .variant "Literal" [.variant name [value]]

mutual

def outline : Tree → Outline
  | number value span =>
  nodeOutline (literalOutline "Number" (.atom value.render)) span
  | string value span =>
    nodeOutline (literalOutline "String" (.quoted value)) span
  | reference name target span =>
    nodeOutline
      (.variant "FieldRef"
        [.record "FieldRef"
          [("name", .quoted name),
            ("target", .option Identifier.outline target)]])
      span
  | call function args span =>
    nodeOutline
      (.record "Call"
        [("function", .quoted function), ("args", .list (outlines args))])
      span
  | binary op left right span =>
    nodeOutline
      (.record "BinaryOp"
        [("op", op.outline), ("left", outline left), ("right", outline right)])
      span
  | unary op operand span =>
    nodeOutline (.record "UnaryOp" [("op", op.outline),
      ("operand", outline operand)]) span

def outlines : List Tree → List Outline
  | [] => []
  | t :: ts => outline t :: outlines ts

end

end Tree

end TableQuery
