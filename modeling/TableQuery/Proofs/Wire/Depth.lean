import TableQuery.Proofs.Json.Reading
import TableQuery.Proofs.Wire.Documents

/-!
# How deep stored queries nest

An operation is stored as an array around its operands, so an expression nests
as deep in its stored form as its operations do; only a chain of one connective
is flat.  The arrays and objects of the query stand around that.
-/

namespace TableQuery

/-! ## Bounds on nesting -/

namespace Json

theorem itemsNesting_le_iff {items : List Json} {n : Nat} :
    itemsNesting items ≤ n ↔ ∀ item ∈ items, item.nesting ≤ n := by
  induction items with
  | nil => simp [itemsNesting]
  | cons item items ih =>
      rw [itemsNesting, Nat.max_le, ih, List.forall_mem_cons]

theorem membersNesting_le_iff {members : Members} {n : Nat} :
    membersNesting members ≤ n ↔ ∀ member ∈ members, member.2.nesting ≤ n := by
  induction members with
  | nil => simp [membersNesting]
  | cons member members ih =>
      rw [membersNesting, Nat.max_le, ih, List.forall_mem_cons]

theorem itemsNesting_append (as bs : List Json) :
    itemsNesting (as ++ bs) = max (itemsNesting as) (itemsNesting bs) := by
  induction as with
  | nil => simp [itemsNesting]
  | cons a as ih =>
      rw [List.cons_append, itemsNesting, ih, itemsNesting, Nat.max_assoc]

end Json

/-! ## Expressions -/

namespace Expression

def isChainOf (op : BinaryOp) : Expression → Bool
  | binary op' _ _ => op.isLogical && op' == op
  | _ => false

mutual

/-- How deep arrays nest in the stored form of an expression. -/
def storedDepth : Expression → Nat
  | number _ | string _ => 0
  | column (.foreign _ _) => 2
  | column _ => 1
  | call _ args => argsStoredDepth args + 1
  | binary op left right =>
    max (if left.isChainOf op then storedDepth left - 1 else storedDepth left)
      (storedDepth right) + 1
  | unary _ operand => storedDepth operand + 1
  | unrecognized stored => stored.nesting

def argsStoredDepth : List Expression → Nat
  | [] => 0
  | arg :: args => max (storedDepth arg) (argsStoredDepth args)

end

end Expression

namespace Wire

theorem nesting_taggedArray (tag : String) (args : List Json) :
    (taggedArray tag args).nesting = Json.itemsNesting args + 1 := by
  rw [taggedArray, Json.nesting, Json.itemsNesting, Json.nesting, Nat.zero_max]

theorem itemsNesting_operandsBefore (op : BinaryOp) (left : Expression) :
    Json.itemsNesting (operandsBefore op left) =
      if left.isChainOf op then (expressionToJson left).nesting - 1
      else (expressionToJson left).nesting := by
  have halone : Json.itemsNesting [expressionToJson left] =
      (expressionToJson left).nesting := by
    rw [Json.itemsNesting, Json.itemsNesting, Nat.max_zero]
  cases hlogical : op.isLogical with
  | false =>
      have hchain : left.isChainOf op = false := by
        cases left <;> simp [Expression.isChainOf, hlogical]
      rw [operandsBefore, hlogical, hchain, if_neg Bool.false_ne_true,
        if_neg Bool.false_ne_true, halone]
  | true =>
      rw [operandsBefore, hlogical, if_pos rfl]
      cases left with
      | binary op' first second =>
          rw [Expression.isChainOf, hlogical, Bool.true_and,
            expressionToJson_binary, taggedArray, chainOperands]
          by_cases hop : op' = op
          · -- The operands of the chain leave the array that they would be
            -- stored in alone.
            rw [if_pos hop, if_pos (beq_iff_eq.mpr hop), ← taggedArray,
              nesting_taggedArray, Nat.add_sub_cancel]
          · rw [if_neg hop, if_neg (mt beq_iff_eq.mp hop), Json.itemsNesting,
              Json.itemsNesting, Nat.max_zero]
      | _ => exact halone

theorem nesting_expressionToJson (e : Expression) :
    (expressionToJson e).nesting = e.storedDepth := by
  induction e using Expression.induct with
  | number value => rfl
  | string value => rfl
  | column id => cases id <;> rfl
  | call function args ih =>
      have hargs : Json.itemsNesting (args.map expressionToJson) =
          Expression.argsStoredDepth args := by
        induction args with
        | nil => rfl
        | cons arg args ihArgs =>
            obtain ⟨hfirst, hrest⟩ := List.forall_mem_cons.mp ih
            rw [List.map_cons, Json.itemsNesting, hfirst, ihArgs hrest,
              Expression.argsStoredDepth]
      rw [expressionToJson, argsToJson_eq_map, nesting_taggedArray, hargs,
        Expression.storedDepth]
  | binary op left right ihLeft ihRight =>
      rw [expressionToJson_binary, nesting_taggedArray,
        Json.itemsNesting_append, itemsNesting_operandsBefore, ihLeft,
        Json.itemsNesting, ihRight, Json.itemsNesting, Nat.max_zero,
        Expression.storedDepth]
  | unary op operand ih =>
      rw [expressionToJson, nesting_taggedArray, Json.itemsNesting, ih,
        Json.itemsNesting, Nat.max_zero, Expression.storedDepth]
  | unrecognized stored => rfl

/-! ## Clauses -/

theorem nesting_aggregationToJson_le_iff {a : Aggregation}
    (hoptions : a.options = []) {n : Nat} (hn : 0 < n) :
    (aggregationToJson a).nesting ≤ n + 1 ↔
      a.expression.storedDepth ≤ n + 1 ∧
      (a.name ≠ none → a.expression.storedDepth ≤ n) := by
  obtain ⟨e, name, options⟩ := a
  cases hoptions
  cases name with
  | none =>
      have hstored : aggregationToJson ⟨e, none, []⟩ = expressionToJson e := rfl
      simp [hstored, nesting_expressionToJson]
  | some name =>
      have hstored : aggregationToJson ⟨e, some name, []⟩ =
          taggedArray "aggregation-options"
          [expressionToJson e, .object [("display-name", .string name)]] := rfl
      rw [hstored, nesting_taggedArray, Nat.add_le_add_iff_right,
        Json.itemsNesting_le_iff]
      simp only [List.forall_mem_cons, List.not_mem_nil, false_imp_iff,
        implies_true, and_true, nesting_expressionToJson, Json.nesting,
        Json.membersNesting, Nat.max_self, Nat.zero_add, ne_eq, reduceCtorEq,
        not_false_eq_true, forall_const]
      omega

theorem nesting_listMember_le_iff {key : String} {items : List Json} {n : Nat} :
    (∀ member ∈ listMember key items, member.2.nesting ≤ n + 1) ↔
      ∀ item ∈ items, item.nesting ≤ n := by
  cases items with
  | nil => simp [listMember]
  | cons item items =>
      rw [listMember, List.isEmpty_cons, if_neg Bool.false_ne_true,
        List.forall_mem_singleton, Json.nesting, Nat.add_le_add_iff_right,
        Json.itemsNesting_le_iff]

theorem nesting_expressionsMember_le_iff {columns : List CustomColumn}
    (hnames : (columns.map CustomColumn.name).Nodup) {n : Nat} :
    (∀ member ∈ expressionsMember columns, member.2.nesting ≤ n + 1) ↔
      ∀ c ∈ columns, c.expression.storedDepth ≤ n := by
  rw [expressionsMember_eq hnames]
  cases columns with
  | nil => simp
  | cons c columns =>
      rw [List.isEmpty_cons, if_neg Bool.false_ne_true,
        List.forall_mem_singleton, Json.nesting, Nat.add_le_add_iff_right,
        Json.membersNesting_le_iff, List.forall_mem_map]
      simp only [columnMember, nesting_expressionToJson]

end Wire

end TableQuery
