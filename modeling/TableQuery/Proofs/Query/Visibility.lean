import TableQuery.Proofs.Query.Validity

/-!
# What each list of clauses sees

A clause sees the columns of the source, custom columns and, if it aggregates,
aggregations.  Which of them is a matter of their positions alone, so each list
of clauses has a check of its own, and a stage is valid when all its lists pass
theirs (`Stage.Consistent`).
-/

namespace TableQuery

/-! ## Look-up -/

namespace Context

theorem isEntryOf_identifier (e : Entry) : isEntryOf e.identifier e = true := by
  cases h : e.identifier <;> simp [isEntryOf, h]

theorem identifier_eq_of_isEntryOf {id : Identifier} {e : Entry}
    (h : ∀ name kind, id ≠ .stageColumn name kind)
    (hentry : isEntryOf id e = true) : e.identifier = id := by
  cases id with
  | stageColumn name kind => exact absurd rfl (h name kind)
  | _ => exact (beq_iff_eq.mp hentry).symm

theorem isSome_lookup_of_mem {ctx : Context} {e : Entry} (h : e ∈ ctx.entries) :
    (ctx.lookup e.identifier).isSome :=
  List.find?_isSome.mpr ⟨e, h, isEntryOf_identifier e⟩

theorem lookup_push (ctx : Context) (e : Entry) (id : Identifier) :
    (ctx.push e).lookup id =
      (ctx.lookup id).or (if isEntryOf id e then some e else none) := by
  rw [lookup, push, List.find?_append, List.find?_singleton]
  rfl

/-- Columns of an earlier stage apart, an entry stands for its own identifier
only. -/
theorem isEntryOf_iff {id : Identifier} {e : Entry}
    (h : ∀ name kind, e.identifier ≠ .stageColumn name kind) :
    isEntryOf id e = true ↔ id = e.identifier := by
  cases hid : e.identifier with
  | stageColumn name kind => exact absurd hid (h name kind)
  | _ => cases id <;> simp [isEntryOf, hid]

theorem isSome_lookup_push {ctx : Context} {e : Entry} {id : Identifier}
    (h : ∀ name kind, e.identifier ≠ .stageColumn name kind) :
    ((ctx.push e).lookup id).isSome ↔
      (ctx.lookup id).isSome ∨ id = e.identifier := by
  rw [lookup_push, Option.isSome_or, Bool.or_eq_true, ← isEntryOf_iff h]
  cases isEntryOf id e <;> simp

end Context

namespace Stage

theorem isSome_lookup_pushColumns {columns : List CustomColumn} {ctx : Context}
    {id : Identifier} :
    ((pushColumns columns ctx).lookup id).isSome ↔
      (ctx.lookup id).isSome ∨ ∃ c ∈ columns, id = .customColumn c.name := by
  induction columns generalizing ctx with
  | nil => simp [pushColumns]
  | cons c columns ih =>
      have hrest :=
        @ih (ctx.push ⟨c.name, [], .customColumn c.name,
          c.expression.kindIn ctx⟩)
      rw [Context.isSome_lookup_push (by simp)] at hrest
      simpa [pushColumns, or_assoc] using hrest

theorem isSome_lookup_pushAggregations {aggregations : List Aggregation}
    {index : Nat} {ctx : Context} {id : Identifier} :
    ((pushAggregations index aggregations ctx).lookup id).isSome ↔
      (ctx.lookup id).isSome ∨
        ∃ i, index ≤ i ∧ i < index + aggregations.length ∧
        id = .aggregation i := by
  induction aggregations generalizing index ctx with
  | nil =>
      have hnone : ∀ i, index ≤ i → ¬ i < index + 0 := by omega
      simp only [pushAggregations, List.length_nil]
      exact ⟨.inl, fun h => h.resolve_right fun ⟨i, hle, hlt, _⟩ =>
        hnone i hle hlt⟩
  | cons a aggregations ih =>
      rw [pushAggregations, ih, Context.isSome_lookup_push (by simp), or_assoc]
      refine or_congr_right ?_
      rw [List.length_cons]
      constructor
      · rintro (rfl | ⟨i, hle, hlt, rfl⟩)
        · exact ⟨index, by omega, by omega, rfl⟩
        · exact ⟨i, by omega, by omega, rfl⟩
      · rintro ⟨i, hle, hlt, rfl⟩
        by_cases hi : i = index
        · exact .inl (by rw [hi])
        · exact .inr ⟨i, by omega, by omega, rfl⟩

/-! ## Positions -/

def visibleColumns (s : Stage) (position : ClausePosition) :
    List CustomColumn :=
  if position.kind = .customColumn then s.customColumns.take position.index
  else s.customColumns

def visibleAggregations (s : Stage) (position : ClausePosition) :
    List Aggregation :=
  if position.kind = .aggregation then s.aggregations.take position.index
  else []

theorem length_visibleAggregations {s : Stage} {i : Nat}
    (h : i ≤ s.aggregations.length) :
    (s.visibleAggregations ⟨.aggregation, i⟩).length = i :=
  List.length_take_of_le h

theorem contextAt_eq (source : List Entry) (s : Stage)
    (position : ClausePosition) :
    s.contextAt source position =
      pushAggregations 0 (s.visibleAggregations position)
        (pushColumns (s.visibleColumns position) ⟨source⟩) := by
  obtain ⟨kind, index⟩ := position
  cases kind <;> rfl

theorem isSome_lookup_contextAt {source : List Entry} {s : Stage}
    {position : ClausePosition} {id : Identifier} :
    ((s.contextAt source position).lookup id).isSome ↔
      (Context.lookup ⟨source⟩ id).isSome ∨
        (∃ c ∈ s.visibleColumns position, id = .customColumn c.name) ∨
        ∃ i, i < (s.visibleAggregations position).length ∧
        id = .aggregation i := by
  rw [contextAt_eq, isSome_lookup_pushAggregations, isSome_lookup_pushColumns,
    or_assoc]
  simp

theorem isSome_lookup_contextAt_mono {source : List Entry} {s s' : Stage}
    {position position' : ClausePosition}
    (hcolumns : s.visibleColumns position ⊆ s'.visibleColumns position')
    (haggregations : (s.visibleAggregations position).length ≤
      (s'.visibleAggregations position').length)
    {id : Identifier} (h : ((s.contextAt source position).lookup id).isSome) :
    ((s'.contextAt source position').lookup id).isSome := by
  rw [isSome_lookup_contextAt] at h ⊢
  refine h.imp_right (.imp ?_ ?_)
  · rintro ⟨c, hc, hid⟩
    exact ⟨c, hcolumns hc, hid⟩
  · rintro ⟨i, hi, hid⟩
    exact ⟨i, Nat.lt_of_lt_of_le hi haggregations, hid⟩

theorem mem_names_of_lookup {source : List Entry}
    (hsource : ∀ e ∈ source, e.IsSource) {s : Stage} {position : ClausePosition}
    {name : String}
    (h : ((s.contextAt source position).lookup (.customColumn name)).isSome) :
    name ∈ s.customColumns.map CustomColumn.name := by
  rw [isSome_lookup_contextAt] at h
  rcases h with hold | ⟨c, hc, hid⟩ | ⟨i, -, hid⟩
  · obtain ⟨e, he, hentry⟩ := List.find?_isSome.mp hold
    exact absurd (Context.identifier_eq_of_isEntryOf (by simp) hentry)
      ((hsource e he).identifier_ne_customColumn name)
  · rw [Identifier.customColumn.injEq] at hid
    refine List.mem_map.mpr ⟨c, ?_, hid.symm⟩
    unfold visibleColumns at hc
    split at hc
    · exact List.mem_of_mem_take hc
    · exact hc
  · cases hid

end Stage

/-! ## Checks of each list -/

/-- Whether an expression suits a clause of a kind: it reads only what the
clause sees, and aggregates if and only if the clause is an aggregation. -/
def Expression.Fits (ctx : Context) (kind : ClauseKind)
    (e : Expression) : Prop :=
  (∀ id ∈ e.identifiers, (ctx.lookup id).isSome) ∧
    if kind = .aggregation then e.isAggregating ∨ e.isUnrecognized
    else e.containsAggregate = false

theorem Expression.check_eq_ok_iff_fits {ctx : Context}
    {position : ClausePosition} {e : Expression} :
    e.check ctx position = .ok () ↔ e.Fits ctx position.kind :=
  Expression.check_eq_ok_iff

theorem Expression.Fits.mono {ctx ctx' : Context} {kind : ClauseKind}
    {e : Expression} (h : e.Fits ctx kind)
    (hmono : ∀ id ∈ e.identifiers, (ctx.lookup id).isSome →
      (ctx'.lookup id).isSome) :
    e.Fits ctx' kind :=
  ⟨fun id hid => hmono id hid (h.1 id hid), h.2⟩

namespace Stage

/-- A stage without faults over the columns of its source, list by list. -/
structure Consistent (source : List Entry) (s : Stage) : Prop where
  names_nodup : (s.customColumns.map CustomColumn.name).Nodup
  customColumn : ∀ (i : Nat) c, s.customColumns[i]? = some c →
    c.expression.Fits (s.contextAt source ⟨.customColumn, i⟩) .customColumn
  filter : ∀ predicate ∈ s.filters, predicate.Fits (s.context source) .filter
  aggregation : ∀ (i : Nat) a, s.aggregations[i]? = some a →
    a.expression.Fits (s.contextAt source ⟨.aggregation, i⟩) .aggregation
  breakout : ∀ b ∈ s.breakouts, ∃ e,
    (s.context source).lookup b.column = some e ∧
    ∀ unit, b.unit = some unit → e.takesUnit unit
  breakouts_nodup : s.breakouts.Nodup
  sort : ∀ o ∈ s.orderBy, TargetValid (s.context source) s o.target
  sortTargets_nodup : (s.orderBy.map OrderBy.target).Nodup

theorem valid_ok_iff {source : List Entry} {s : Stage} :
    s.Valid (.ok source) ↔ s.Consistent source := by
  constructor
  · intro h
    have hclause : ∀ position clause, s.clause? position = some clause →
        checkClause source s position clause = .ok () := by
      intro position clause hclause
      obtain ⟨_, hsource, hok⟩ := h.clause_ok position clause hclause
      cases hsource
      exact hok
    refine ⟨h.names_nodup, fun i c hc => ?_, fun predicate hmem => ?_,
      fun i a ha => ?_, fun b hmem => ?_, h.breakouts_nodup, fun o hmem => ?_,
      h.sortTargets_nodup⟩
    · exact Expression.check_eq_ok_iff_fits.mp
        (hclause ⟨.customColumn, i⟩ (.customColumn c) (by simp [clause?, hc]))
    · obtain ⟨i, hi⟩ := List.mem_iff_getElem?.mp hmem
      exact Expression.check_eq_ok_iff_fits.mp
        (hclause ⟨.filter, i⟩ (.filter predicate) (by simp [clause?, hi]))
    · exact Expression.check_eq_ok_iff_fits.mp
        (hclause ⟨.aggregation, i⟩ (.aggregation a) (by simp [clause?, ha]))
    · obtain ⟨i, hi⟩ := List.mem_iff_getElem?.mp hmem
      exact (checkBreakout_eq_ok_iff.mp
        (hclause ⟨.breakout, i⟩ (.breakout b) (by simp [clause?, hi]))).1
    · obtain ⟨_, hsource, hvalid⟩ := h.sortTarget_valid hmem
      cases hsource
      exact hvalid
  · intro h
    -- Each position takes its clause from the list of its kind.
    refine ⟨h.names_nodup, fun position clause hclause => ⟨source, rfl, ?_⟩⟩
    obtain ⟨kind, i⟩ := position
    cases kind <;> simp only [clause?, Option.map_eq_some_iff] at hclause <;>
      obtain ⟨x, hx, rfl⟩ := hclause
    case customColumn =>
        exact Expression.check_eq_ok_iff_fits.mpr (h.customColumn i x hx)
    case filter =>
        exact Expression.check_eq_ok_iff_fits.mpr
          (h.filter x (List.mem_of_getElem? hx))
    case aggregation =>
        exact Expression.check_eq_ok_iff_fits.mpr (h.aggregation i x hx)
    case breakout =>
        exact checkBreakout_eq_ok_iff.mpr
          ⟨h.breakout x (List.mem_of_getElem? hx),
          nodup_iff_forall_not_mem_take.mp h.breakouts_nodup i x hx⟩
    case orderBy =>
        refine checkOrderBy_eq_ok_iff.mpr
          ⟨h.sort x (List.mem_of_getElem? hx), ?_⟩
        rw [List.map_take]
        exact nodup_iff_forall_not_mem_take.mp h.sortTargets_nodup i x.target
          (by simp [hx])

end Stage

end TableQuery
