import TableQuery.Proofs.Compilation.Clause

/-!
# Formulas compile to what can be evaluated

A row has a value for every expression without aggregation (`Expression.OfRow`).
A group has one for what is made of aggregations over its rows and of
aggregations that are computed already (`Expression.OfGroup`).  The compiler
makes filters and custom columns of the first form and aggregations of the
second.
-/

namespace TableQuery

/-! ## Expressions of rows and groups -/

namespace Expression

inductive OfRow : Expression → Prop
  | number (value : Decimal) : OfRow (.number value)
  | string (value : String) : OfRow (.string value)
  | column {id : Identifier} (hid : id.aggregationIndex? = none) :
      OfRow (.column id)
  | call {function : Function} {args : List Expression}
      (hscalar : function.isAggregate = false)
      (hargs : ∀ arg ∈ args, OfRow arg) : OfRow (.call function args)
  | binary (op : BinaryOp) {left right : Expression} (hleft : OfRow left)
      (hright : OfRow right) :
      OfRow (.binary op left right)
  | unary (op : UnaryOp) {operand : Expression} (hoperand : OfRow operand) :
      OfRow (.unary op operand)

inductive OfGroup : Expression → Prop
  | number (value : Decimal) : OfGroup (.number value)
  | string (value : String) : OfGroup (.string value)
  | aggregation (index : Nat) : OfGroup (.column (.aggregation index))
  | aggregate {function : Function} {args : List Expression}
      (haggregate : function.isAggregate) (hargs : ∀ arg ∈ args, OfRow arg) :
      OfGroup (.call function args)
  | call {function : Function} {args : List Expression}
      (hscalar : function.isAggregate = false)
      (hargs : ∀ arg ∈ args, OfGroup arg) : OfGroup (.call function args)
  | binary (op : BinaryOp) {left right : Expression} (hleft : OfGroup left)
      (hright : OfGroup right) : OfGroup (.binary op left right)
  | unary (op : UnaryOp) {operand : Expression} (hoperand : OfGroup operand) :
      OfGroup (.unary op operand)

/-! ## Renumbering -/

variable {e : Expression}

theorem OfRow.aggregationRefs_eq_nil (h : e.OfRow) :
    e.aggregationRefs = [] := by
  induction h with
  | number value => rfl
  | string value => rfl
  | column hid => simp [aggregationRefs, identifiers, hid]
  | call _ _ ih => simpa [List.flatMap_eq_nil_iff] using ih
  | binary op _ _ ihLeft ihRight => simp [ihLeft, ihRight]
  | unary op _ ih => exact ih

theorem OfRow.renumber_eq_self (h : e.OfRow) (f : Nat → Nat) :
    e.renumber f = e :=
  Expression.renumber_eq_self (by simp [h.aggregationRefs_eq_nil])

theorem OfGroup.renumber (h : e.OfGroup) (f : Nat → Nat) :
    (e.renumber f).OfGroup := by
  induction h with
  | number value => exact .number value
  | string value => exact .string value
  | aggregation index => exact .aggregation (f index)
  | aggregate haggregate hargs =>
      rw [renumber_call]
      refine .aggregate haggregate (List.forall_mem_map.mpr fun arg harg => ?_)
      rw [(hargs arg harg).renumber_eq_self f]
      exact hargs arg harg
  | call hscalar _ ih =>
      rw [renumber_call]
      exact .call hscalar (List.forall_mem_map.mpr ih)
  | binary op _ _ ihLeft ihRight => exact .binary op ihLeft ihRight
  | unary op _ ih => exact .unary op ih

end Expression

/-! ## Resolved trees -/

theorem Function.nodup_names : (all.map fun f => asciiLower f.name).Nodup := by
  decide +kernel

theorem Function.ofName?_name (f : Function) : ofName? f.name = some f := by
  have hall : f ∈ all := by cases f <;> simp [all]
  obtain ⟨g, hg⟩ : ∃ g, all.find? (asciiLower ·.name == asciiLower f.name) =
      some g :=
    Option.isSome_iff_exists.mp
      (List.find?_isSome.mpr ⟨f, hall, beq_self_eq_true _⟩)
  have hname := List.find?_some hg
  rw [beq_iff_eq] at hname
  rw [ofName?, hg,
    List.inj_on_of_nodup_map nodup_names
      (List.mem_of_find?_eq_some hg) hall hname]

namespace Tree

inductive Unnested : Tree → Prop
  | number (value : Decimal) (span : Span) : Unnested (.number value span)
  | string (value : String) (span : Span) : Unnested (.string value span)
  | reference (name : String) (target : Option Identifier) (span : Span) :
      Unnested (.reference name target span)
  | call {name : String} {args : List Tree} (span : Span)
      (hargs : ∀ arg ∈ args, Unnested arg)
      (hplain : Function.namesAggregate name → ∀ arg ∈ args,
        arg.containsAggregate = false) :
      Unnested (.call name args span)
  | binary (op : BinaryOp) {left right : Tree} (span : Span)
      (hleft : Unnested left) (hright : Unnested right) :
      Unnested (.binary op left right span)
  | unary (op : UnaryOp) {operand : Tree} (span : Span)
      (hoperand : Unnested operand) :
      Unnested (.unary op operand span)

variable {ctx : Context} {separators : List String}

theorem unnested_of_resolve {t resolved : Tree}
    (h : t.resolve ctx separators = .ok resolved) :
    resolved.Unnested := by
  induction t using induct generalizing resolved with
  | number value span =>
      cases h
      exact .number value span
  | string value span =>
      cases h
      exact .string value span
  | reference name target span =>
      rcases resolveReference_eq_ok_iff.mp h with ⟨entry, -, rfl⟩ |
        ⟨-, function, -, rfl⟩
      · exact .reference name (some entry.identifier) span
      · exact .call span (by simp) (by simp)
  | call name args span ih =>
      rcases resolve_call_eq_ok_iff.mp h with
        ⟨function, args', -, -, hargs, hplain, rfl⟩
      apply Unnested.call span
      · intro arg' harg'
        rcases exists_of_mem_forall₂ hargs harg' with ⟨arg, harg, hresolve⟩
        exact ih arg harg hresolve
      · intro hnames
        rw [Function.namesAggregate, Function.ofName?_name, Option.any_some]
          at hnames
        exact hplain hnames
  | binary op left right span ihLeft ihRight =>
      rcases resolve_binary_eq_ok_iff.mp h with
        ⟨left', right', hleft, hright, rfl⟩
      exact .binary op span (ihLeft hleft) (ihRight hright)
  | unary op operand span ih =>
      rcases resolve_unary_eq_ok_iff.mp h with ⟨operand', hoperand, rfl⟩
      exact .unary op span (ih hoperand)

/-! ## Typed trees -/

/-- A tree that does not aggregate has a value for each row. -/
theorem ofRow_of_typed {t : Tree} {e : Expression} {kind : ValueKind}
    (h : t.typed ctx = .ok (e, kind)) (hplain : t.containsAggregate = false) :
    e.OfRow := by
  induction t using induct generalizing e kind with
  | number value span =>
      cases h
      exact .number value
  | string value span =>
      cases h
      exact .string value
  | reference name target span =>
      cases target with
      | none => cases h
      | some id =>
          cases h
          exact .column (by simpa [containsAggregate] using hplain)
  | call name args span ih =>
      rw [containsAggregate, Bool.or_eq_false_iff, anyContainsAggregate_eq_any,
        List.any_eq_false] at hplain
      obtain ⟨function, es, rfl, hname, hargs⟩ := typed_call_eq_ok h
      have hfunction := isAggregate_eq_of_ofName? hname
      refine .call (hfunction.trans hplain.1) fun x hx => ?_
      obtain ⟨arg, harg, kind, htyped⟩ := exists_of_mem_forall₂ hargs hx
      exact ih arg harg htyped (by simpa using hplain.2 arg harg)
  | binary op left right span ihLeft ihRight =>
      rw [containsAggregate, Bool.or_eq_false_iff] at hplain
      obtain ⟨l, r, rfl, ⟨_, hleft⟩, _, hright⟩ := typed_binary_eq_ok h
      exact .binary op (ihLeft hleft hplain.1) (ihRight hright hplain.2)
  | unary op operand span ih =>
      obtain ⟨x, rfl, _, hoperand⟩ := typed_unary_eq_ok h
      exact .unary op (ih hoperand hplain)

theorem argColumnOutsideAggregation?_eq_none_iff {args : List Tree} :
    argColumnOutsideAggregation? args = none ↔
      ∀ arg ∈ args, arg.columnOutsideAggregation? = none := by
  induction args with
  | nil => simp [argColumnOutsideAggregation?]
  | cons arg args ih => simp [argColumnOutsideAggregation?, ih]

/-- A tree that reads columns only inside of aggregations has a value for each
group. -/
theorem ofGroup_of_typed {t : Tree} {e : Expression} {kind : ValueKind}
    (h : t.typed ctx = .ok (e, kind)) (hunnested : t.Unnested)
    (hinside : t.columnOutsideAggregation? = none) : e.OfGroup := by
  induction hunnested generalizing e kind with
  | number value span =>
      cases h
      exact .number value
  | string value span =>
      cases h
      exact .string value
  | reference name target span =>
      cases target with
      | none => cases h
      | some id =>
          cases h
          cases id with
          | aggregation index => exact .aggregation index
          | _ =>
              simp [columnOutsideAggregation?, Identifier.aggregationIndex?]
                at hinside
  | call span hargs hplain ih =>
      obtain ⟨function, es, rfl, hname, htyped⟩ := typed_call_eq_ok h
      have hfunction := isAggregate_eq_of_ofName? hname
      cases haggregate : function.isAggregate with
      | true =>
          -- The arguments are read row by row, and none of them aggregates.
          refine .aggregate haggregate fun x hx => ?_
          obtain ⟨arg, harg, _, htyped⟩ := exists_of_mem_forall₂ htyped hx
          exact ofRow_of_typed htyped (hplain (hfunction ▸ haggregate) arg harg)
      | false =>
          refine .call haggregate fun x hx => ?_
          obtain ⟨arg, harg, _, htyped⟩ := exists_of_mem_forall₂ htyped hx
          rw [columnOutsideAggregation?, ← hfunction, haggregate,
            if_neg Bool.false_ne_true, argColumnOutsideAggregation?_eq_none_iff]
            at hinside
          exact ih arg harg htyped (hinside arg harg)
  | binary op span _ _ ihLeft ihRight =>
      obtain ⟨l, r, rfl, ⟨_, hleft⟩, _, hright⟩ := typed_binary_eq_ok h
      simp only [columnOutsideAggregation?, Option.orElse_eq_orElse,
        Option.orElse_eq_or, Option.or_eq_none_iff] at hinside
      exact .binary op (ihLeft hleft hinside.1) (ihRight hright hinside.2)
  | unary op span _ ih =>
      obtain ⟨x, rfl, _, hoperand⟩ := typed_unary_eq_ok h
      exact .unary op (ih hoperand hinside)

end Tree

/-! ## Compiled clauses -/

def Clause.Evaluable : Clause → Prop
  | .customColumn c => c.expression.OfRow
  | .filter predicate => predicate.OfRow
  | .aggregation a => a.expression.OfGroup
  | .breakout _ | .orderBy _ => True

namespace Query

theorem evaluable_of_compileAt {c : Catalog} {options : CompileOptions}
    {q : Query} {text : String} {target : FormulaTarget} {name : Option String}
    {position : ClausePosition} {compiled : CompiledClause}
    (h : q.compileAt c options text target name position = .ok compiled) :
    compiled.clause.Evaluable := by
  obtain ⟨ctx, parsed, resolved, -, hresolved, hcompile⟩ := compileAt_eq_ok h
  obtain ⟨e, htyped, hclause, -⟩ := Tree.compile_eq_ok hcompile
  cases target with
  | aggregation =>
      obtain ⟨-, hinside, hclause⟩ := Tree.clauseFor_aggregation_eq_ok hclause
      rw [hclause]
      exact Tree.ofGroup_of_typed htyped
        (Tree.unnested_of_resolve hresolved) hinside
  | filter =>
      obtain ⟨hplain, hclause⟩ := Tree.clauseFor_filter_eq_ok hclause
      rw [hclause]
      exact Tree.ofRow_of_typed htyped hplain
  | customColumn =>
      obtain ⟨hplain, _, -, hclause⟩ :=
        Tree.clauseFor_customColumn_eq_ok hclause
      rw [hclause]
      exact Tree.ofRow_of_typed htyped hplain

end Query

end TableQuery
