import TableQuery.Proofs.Compilation.Evaluable

/-!
# Drafts built from formulas

A draft that starts empty and takes expressions from formulas alone holds only
what can be evaluated.  The edits of its other clauses move, renumber and erase
those expressions, but make no new ones.
-/

namespace TableQuery

/-! ## Stages -/

structure Stage.Evaluable (s : Stage) : Prop where
  customColumn : ∀ c ∈ s.customColumns, c.expression.OfRow
  filter : ∀ predicate ∈ s.filters, predicate.OfRow
  aggregation : ∀ a ∈ s.aggregations, a.expression.OfGroup

namespace Stage.Evaluable

variable {s : Stage}

theorem clause (h : s.Evaluable) {position : ClausePosition} {clause : Clause}
    (hclause : s.clause? position = some clause) : clause.Evaluable := by
  obtain ⟨kind, index⟩ := position
  cases kind <;> simp only [clause?, Option.map_eq_some_iff] at hclause <;>
    obtain ⟨x, hx, rfl⟩ := hclause
  case customColumn => exact h.customColumn x (List.mem_of_getElem? hx)
  case filter => exact h.filter x (List.mem_of_getElem? hx)
  case aggregation => exact h.aggregation x (List.mem_of_getElem? hx)
  case breakout => exact trivial
  case orderBy => exact trivial

theorem congr (h : s.Evaluable) {s' : Stage}
    (hcolumns : s'.customColumns = s.customColumns)
    (hfilters : s'.filters = s.filters)
    (haggregations : s'.aggregations = s.aggregations) : s'.Evaluable where
  customColumn := hcolumns ▸ h.customColumn
  filter := hfilters ▸ h.filter
  aggregation := haggregations ▸ h.aggregation

theorem renumberExpressions (h : s.Evaluable) (f : Nat → Nat) :
    (s.renumberExpressions f).Evaluable where
  customColumn := h.customColumn
  filter := h.filter
  aggregation := List.forall_mem_map.mpr fun a ha =>
    (h.aggregation a ha).renumber f

theorem renumber (h : s.Evaluable) (kind : ClauseKind) (f : Nat → Nat) :
    (s.renumber kind f).Evaluable := by
  cases kind with
  | aggregation => exact (h.renumberExpressions f).congr rfl rfl rfl
  | breakout => exact h.congr rfl rfl rfl
  | customColumn => exact h
  | filter => exact h
  | orderBy => exact h

theorem erase (h : s.Evaluable) (position : ClausePosition) :
    (s.erase position).Evaluable := by
  obtain ⟨kind, index⟩ := position
  cases kind with
  | customColumn =>
      exact ⟨fun c hc => h.customColumn c (List.mem_of_mem_eraseIdx hc),
        h.filter, h.aggregation⟩
  | filter =>
      exact ⟨h.customColumn,
        fun f hf => h.filter f (List.mem_of_mem_eraseIdx hf), h.aggregation⟩
  | aggregation =>
      exact ⟨h.customColumn, h.filter,
        fun a ha => h.aggregation a (List.mem_of_mem_eraseIdx ha)⟩
  | breakout => exact h.congr rfl rfl rfl
  | orderBy => exact h.congr rfl rfl rfl

theorem insert (h : s.Evaluable) (index : Nat) {clause : Clause}
    (hclause : clause.Evaluable) : (s.insert index clause).Evaluable := by
  cases clause with
  | customColumn c =>
      refine ⟨fun c' hc' => ?_, h.filter, h.aggregation⟩
      obtain rfl | hmem := List.eq_or_mem_of_mem_insertIdx hc'
      · exact hclause
      · exact h.customColumn c' hmem
  | filter f =>
      refine ⟨h.customColumn, fun f' hf' => ?_, h.aggregation⟩
      obtain rfl | hmem := List.eq_or_mem_of_mem_insertIdx hf'
      · exact hclause
      · exact h.filter f' hmem
  | aggregation a =>
      refine ⟨h.customColumn, h.filter, fun a' ha' => ?_⟩
      obtain rfl | hmem := List.eq_or_mem_of_mem_insertIdx ha'
      · exact hclause
      · exact h.aggregation a' hmem
  | breakout b => exact h.congr rfl rfl rfl
  | orderBy o => exact h.congr rfl rfl rfl

theorem withInserted (h : s.Evaluable) (index : Nat) {clause : Clause}
    (hclause : clause.Evaluable) : (s.withInserted index clause).Evaluable := by
  have hmoved := h.renumber clause.kind (indexAfterInsert index)
  unfold Stage.withInserted
  dsimp only
  split
  case isTrue =>
      refine insert ?_ index hclause
      exact hmoved.congr rfl rfl rfl
  case isFalse => exact hmoved.insert index hclause

theorem withErased (h : s.Evaluable) (policy : OrderByPolicy)
    (position : ClausePosition) : (s.withErased policy position).Evaluable := by
  have hrest := h.erase position
  obtain ⟨kind, index⟩ := position
  cases kind with
  | aggregation =>
      exact (hrest.renumberExpressions (indexAfterErase index)).congr
        rfl rfl rfl
  | breakout => exact hrest.congr rfl rfl rfl
  | customColumn => exact hrest
  | filter => exact hrest
  | orderBy => exact hrest

theorem withReplaced (h : s.Evaluable) (position : ClausePosition)
    {clause : Clause} (hclause : clause.Evaluable) :
    (s.withReplaced position clause).Evaluable :=
  (h.erase position).insert position.index hclause

theorem withMoved (h : s.Evaluable) (position : ClausePosition) (stop : Nat) :
    (s.withMoved position stop).Evaluable := by
  have hmoved := h.renumber position.kind (indexAfterMove position.index stop)
  unfold Stage.withMoved Stage.move
  split
  case h_1 clause hclause =>
      exact (hmoved.erase position).insert stop (hmoved.clause hclause)
  case h_2 => exact hmoved

end Stage.Evaluable

theorem Clause.evaluable_of_kind {clause : Clause}
    (h : clause.kind = .breakout ∨ clause.kind = .orderBy) :
    clause.Evaluable := by
  cases clause <;> simp_all [kind, Evaluable]

/-! ## Drafts -/

namespace Draft

/-- A draft over a table that was built from nothing by formulas, and by edits
that put no expressions of their own into it. -/
inductive Built (c : Catalog) (table : TableId) : Draft → Prop
  | empty (revision : Nat) : Built c table ⟨.table table, revision⟩
  | addFormula {d d' : Draft} {options : CompileOptions} {text : String}
      {target : FormulaTarget} {name : Option String} {index : Option Nat}
      (h : Built c table d)
      (hedit : d.addFormula c options text target name index = .ok d') :
      Built c table d'
  | insert {d d' : Draft} {position : ClausePosition} {clause : Clause}
      (h : Built c table d)
      (hkind : clause.kind = .breakout ∨ clause.kind = .orderBy)
      (hedit : d.insert c position clause = .ok d') : Built c table d'
  | replace {d d' : Draft} {position : ClausePosition} {clause : Clause}
      (h : Built c table d)
      (hkind : clause.kind = .breakout ∨ clause.kind = .orderBy)
      (hedit : d.replace c position clause = .ok d') : Built c table d'
  | remove {d d' : Draft} {policy : OrderByPolicy} {position : ClausePosition}
      (h : Built c table d) (hedit : d.remove c policy position = .ok d') :
      Built c table d'
  | move {d d' : Draft} {position : ClausePosition} {stop : Nat}
      (h : Built c table d) (hedit : d.move c position stop = .ok d') :
      Built c table d'
  | setLimit {d d' : Draft} {limit : Option Nat} (h : Built c table d)
      (hedit : d.setLimit c limit = .ok d') : Built c table d'

variable {c : Catalog} {table : TableId} {d d' : Draft}

def Evaluable (c : Catalog) (table : TableId) (d : Draft) : Prop :=
  ∃ stage, d.query = .ofTable table stage ∧ stage.Evaluable ∧
  stage.Valid (c.tableEntries table)

theorem Evaluable.stage (h : d.Evaluable c table) :
    d.query.stage.Evaluable := by
  obtain ⟨stage, hquery, hstage, -⟩ := h
  rw [hquery]
  exact hstage

theorem Evaluable.commit (h : d.Evaluable c table) {stage : Stage}
    (hstage : stage.Evaluable) (hedit : d.commit c stage = .ok d') :
    d'.Evaluable c table := by
  obtain ⟨old, hquery, -, -⟩ := h
  obtain ⟨hvalid, rfl⟩ := commit_eq_ok_iff.mp hedit
  rw [hquery] at hvalid ⊢
  exact ⟨stage, rfl, hstage, hvalid⟩

theorem Evaluable.insert (h : d.Evaluable c table) {position : ClausePosition}
    {clause : Clause} (hclause : clause.Evaluable)
    (hedit : d.insert c position clause = .ok d') : d'.Evaluable c table :=
  h.commit (h.stage.withInserted position.index hclause)
    (insert_eq_ok_iff.mp hedit).2.2.2

theorem Built.evaluable (h : d.Built c table) : d.Evaluable c table := by
  induction h with
  | empty revision =>
      exact ⟨{}, rfl, ⟨by simp, by simp, by simp⟩, Stage.check_eq_ok_iff.mp rfl⟩
  | addFormula _ hedit ih =>
      obtain ⟨compiled, hcompile, hedit⟩ := addFormula_eq_ok_iff.mp hedit
      exact ih.insert (Query.evaluable_of_compileAt hcompile) hedit
  | insert _ hkind hedit ih =>
      exact ih.insert (Clause.evaluable_of_kind hkind) hedit
  | replace _ hkind hedit ih =>
      obtain ⟨-, -, -, -, hcommit⟩ := replace_eq_ok_iff.mp hedit
      exact ih.commit
        (ih.stage.withReplaced _ (Clause.evaluable_of_kind hkind)) hcommit
  | remove _ hedit ih =>
      obtain ⟨-, -, -, hcommit⟩ := remove_eq_ok_iff.mp hedit
      exact ih.commit (ih.stage.withErased _ _) hcommit
  | move _ hedit ih =>
      obtain ⟨-, -, -, hcommit⟩ := move_eq_ok_iff.mp hedit
      exact ih.commit (ih.stage.withMoved _ _) hcommit
  | setLimit _ hedit ih =>
      refine ih.commit ?_ hedit
      exact ih.stage.congr rfl rfl rfl

end Draft

end TableQuery
