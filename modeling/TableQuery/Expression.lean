import TableQuery.Decimal.Basic
import TableQuery.Formula.Function
import TableQuery.Formula.Operator
import TableQuery.Identifier
import TableQuery.Json.Basic

/-!
# Expressions

The expressions that clauses hold: formulas without spans in which every
reference is a column.  Stored forms that mean nothing to this library are kept
as they are.
-/

namespace TableQuery

inductive Expression where
  | number (value : Decimal)
  | string (value : String)
  | column (id : Identifier)
  | call (function : Function) (args : List Expression)
  | binary (op : BinaryOp) (left right : Expression)
  | unary (op : UnaryOp) (operand : Expression)
  | unrecognized (stored : Json)
deriving Repr

namespace Expression

instance : Inhabited Expression := ⟨number default⟩

def precedence : Expression → Nat
  | binary op _ _ => op.precedence
  | unary op _ => op.precedence
  | _ => Precedence.atom

mutual

def same : Expression → Expression → Bool
  | number a, number b => a.sameValue b
  | string a, string b => a == b
  | column a, column b => a == b
  | call f as, call g bs => f == g && sameArgs as bs
  | binary op a b, binary op' a' b' => op == op' && same a a' && same b b'
  | unary op a, unary op' a' => op == op' && same a a'
  | unrecognized a, unrecognized b => a.same b
  | _, _ => false

def sameArgs : List Expression → List Expression → Bool
  | [], [] => true
  | a :: as, b :: bs => same a b && sameArgs as bs
  | _, _ => false

end

/-! ## What an expression reads -/

mutual

def identifiers : Expression → List Identifier
  | number _ | string _ | unrecognized _ => []
  | column id => [id]
  | call _ args => argIdentifiers args
  | binary _ left right => identifiers left ++ identifiers right
  | unary _ operand => identifiers operand

def argIdentifiers : List Expression → List Identifier
  | [] => []
  | arg :: args => identifiers arg ++ argIdentifiers args

end

mutual

def containsAggregate : Expression → Bool
  | number _ | string _ | unrecognized _ | column _ => false
  | call function args => function.isAggregate || anyContainsAggregate args
  | binary _ left right => containsAggregate left || containsAggregate right
  | unary _ operand => containsAggregate operand

def anyContainsAggregate : List Expression → Bool
  | [] => false
  | arg :: args => containsAggregate arg || anyContainsAggregate args

end

def readsAggregation (index : Nat) (e : Expression) : Bool :=
  e.identifiers.any (·.aggregationIndex? == some index)

def readsCustomColumn (name : String) (e : Expression) : Bool :=
  e.identifiers.any (·.customColumn? == some name)

/-! ## Renaming -/

mutual

def mapIdentifiers (f : Identifier → Identifier) : Expression → Expression
  | column id => column (f id)
  | call function args => call function (mapArgIdentifiers f args)
  | binary op left right =>
    binary op (mapIdentifiers f left) (mapIdentifiers f right)
  | unary op operand => unary op (mapIdentifiers f operand)
  | e => e

def mapArgIdentifiers (f : Identifier → Identifier) :
    List Expression → List Expression
  | [] => []
  | arg :: args => mapIdentifiers f arg :: mapArgIdentifiers f args

end

def renumber (f : Nat → Nat) (e : Expression) : Expression :=
  e.mapIdentifiers fun
    | .aggregation i => .aggregation (f i)
    | id => id

end Expression

end TableQuery
