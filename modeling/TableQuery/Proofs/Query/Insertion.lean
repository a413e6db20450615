import TableQuery.Proofs.Query.Edit
import TableQuery.Proofs.Query.Visibility

/-!
# Inserting what suits its place

A filter, an aggregation or a custom column that suits what it sees at a
position keeps the stage consistent when it is inserted there.  The clauses that
were there go on seeing what they read: the aggregations under their new
numbers, and the columns with the kinds that they had.
-/

namespace TableQuery

/-! ## Renumbered expressions -/

namespace Expression

theorem anyContainsAggregate_eq_any (args : List Expression) :
    anyContainsAggregate args = args.any containsAggregate := by
  induction args with
  | nil => rfl
  | cons arg args ih => simp [anyContainsAggregate, ih]

@[simp] theorem containsAggregate_renumber (f : Nat → Nat) (e : Expression) :
    (e.renumber f).containsAggregate = e.containsAggregate := by
  induction e using induct with
  | number value => rfl
  | string value => rfl
  | column id => rfl
  | call function args ih =>
      rw [renumber_call, containsAggregate, containsAggregate,
        anyContainsAggregate_eq_any, anyContainsAggregate_eq_any, List.any_map,
        Bool.eq_iff_iff, Bool.or_eq_true, Bool.or_eq_true, List.any_eq_true,
        List.any_eq_true]
      refine or_congr_right (exists_congr fun arg =>
        and_congr_right fun harg => ?_)
      rw [Function.comp_apply, ih arg harg]
  | binary op left right ihLeft ihRight =>
      simp [containsAggregate, ihLeft, ihRight]
  | unary op operand ih => simpa [containsAggregate] using ih
  | unrecognized stored => rfl

theorem isAggregating_iff {e : Expression} :
    e.isAggregating ↔ e.containsAggregate ∨ e.aggregationRefs ≠ [] := by
  rw [isAggregating, Bool.or_eq_true]
  refine or_congr_right ?_
  rw [ne_eq, aggregationRefs_eq_nil_iff]
  simp [Option.isSome_iff_ne_none]

theorem isAggregating_renumber {f : Nat → Nat} {e : Expression}
    (h : e.isAggregating) : (e.renumber f).isAggregating := by
  rw [isAggregating_iff] at h ⊢
  simpa using h

theorem isUnrecognized_renumber {f : Nat → Nat} {e : Expression}
    (h : e.isUnrecognized) : (e.renumber f).isUnrecognized := by
  cases e <;> simp_all [isUnrecognized, renumber, mapIdentifiers]

theorem mem_identifiers_renumber {f : Nat → Nat} {e : Expression}
    {id : Identifier} (h : id ∈ (e.renumber f).identifiers) :
    (id ∈ e.identifiers ∧ id.aggregationIndex? = none) ∨
      ∃ i ∈ e.aggregationRefs, id = .aggregation (f i) := by
  rw [renumber, identifiers_mapIdentifiers] at h
  obtain ⟨old, hold, rfl⟩ := List.mem_map.mp h
  cases old with
  | aggregation i => exact .inr ⟨i, mem_aggregationRefs.mpr hold, rfl⟩
  | _ => exact .inl ⟨hold, rfl⟩

theorem Fits.renumber {ctx ctx' : Context} {f : Nat → Nat} {e : Expression}
    (h : e.Fits ctx .aggregation)
    (hrefs : ∀ i ∈ e.aggregationRefs, (ctx'.lookup (.aggregation (f i))).isSome)
    (hothers : ∀ id : Identifier, id.aggregationIndex? = none →
      (ctx.lookup id).isSome → (ctx'.lookup id).isSome) :
    (e.renumber f).Fits ctx' .aggregation := by
  refine ⟨fun id hid => ?_,
    h.2.imp isAggregating_renumber isUnrecognized_renumber⟩
  obtain ⟨hold, hnone⟩ | ⟨i, hi, rfl⟩ := mem_identifiers_renumber hid
  · exact hothers id hnone (h.1 id hold)
  · exact hrefs i hi

theorem kindIn_congr {ctx ctx' : Context} {e : Expression}
    (h : ∀ id ∈ e.identifiers, ctx.lookup id = ctx'.lookup id) :
    e.kindIn ctx = e.kindIn ctx' := by
  induction e using induct with
  | number value => rfl
  | string value => rfl
  | column id =>
      have hid := h id (by simp [identifiers])
      cases id <;> simp [kindIn, Identifier.kindIn, hid]
  | call function args ih =>
      cases args with
      | nil => rfl
      | cons arg args =>
          have harg := ih arg List.mem_cons_self fun id hid => h id <| by
            simp [identifiers, argIdentifiers, hid]
          simp [kindIn, harg]
  | binary op left right _ _ => rfl
  | unary op operand _ => cases op <;> rfl
  | unrecognized stored => rfl

end Expression

namespace Stage

variable {source : List Entry} {s : Stage} {index : Nat}

/-! ## Filters -/

theorem Consistent.insert_filter (h : s.Consistent source)
    {predicate : Expression}
    (hfits : predicate.Fits (s.context source) .filter) :
    (s.withInserted index (.filter predicate)).Consistent source where
  names_nodup := h.names_nodup
  customColumn := h.customColumn
  filter := by
    intro f hf
    obtain rfl | hmem := List.eq_or_mem_of_mem_insertIdx hf
    · exact hfits
    · exact h.filter f hmem
  aggregation := h.aggregation
  breakout := h.breakout
  breakouts_nodup := h.breakouts_nodup
  sort := h.sort
  sortTargets_nodup := h.sortTargets_nodup

/-! ## Aggregations -/

theorem mapAggregation_insert_injective (index : Nat) :
    Function.Injective (OrderTarget.mapAggregation (indexAfterInsert index)) :=
  (OrderTarget.mapAggregation_leftInverse
    (indexAfterErase_indexAfterInsert index)).injective

theorem keptSorts_sublist (s : Stage) : s.keptSorts.Sublist s.orderBy := by
  unfold keptSorts
  split
  · exact List.Sublist.refl _
  · exact List.filter_sublist

theorem Consistent.target_of_keptSorts (h : s.Consistent source) {o : OrderBy}
    (ho : o ∈ s.keptSorts) (id : Identifier) : o.target ≠ .column id := by
  intro htarget
  unfold keptSorts at ho
  split at ho
  case isTrue hs =>
      have hvalid := h.sort o ho
      rw [htarget] at hvalid
      exact absurd hvalid.1 (by simp [hs])
  case isFalse => simp [List.mem_filter, htarget, OrderTarget.isColumn] at ho

theorem length_withInserted_aggregation (hindex : index ≤ s.aggregations.length)
    (a : Aggregation) :
    (s.withInserted index (.aggregation a)).aggregations.length =
      s.aggregations.length + 1 := by
  rw [withInserted_aggregation]
  dsimp only
  rw [List.length_insertIdx_of_le_length (by simpa using hindex),
    List.length_map]

/-- The new aggregation sees what it was checked against, and the others what
they saw, under the new numbers. -/
theorem Consistent.fits_insert_aggregation (h : s.Consistent source)
    (hsource : SourceEntries source) (hindex : index ≤ s.aggregations.length)
    {a : Aggregation}
    (hfits : a.expression.Fits (s.contextAt source ⟨.aggregation, index⟩)
      .aggregation) {i : Nat} {b : Aggregation}
    (hb : (s.withInserted index (.aggregation a)).aggregations[i]? = some b) :
    b.expression.Fits ((s.withInserted index (.aggregation a)).contextAt source
        ⟨.aggregation, i⟩)
      .aggregation := by
  have hi : i ≤ (s.withInserted index (.aggregation a)).aggregations.length :=
    Nat.le_of_lt (List.getElem?_eq_some_iff.mp hb).1
  have hvisible := length_visibleAggregations hi
  rw [withInserted_aggregation] at hb hvisible ⊢
  obtain ⟨rfl, rfl⟩ | ⟨j, rfl, hmap⟩ := getElem?_insertIdx_eq_some hb
  · -- Before the new aggregation stand as many as before, so it sees the same
    -- numbers.
    refine hfits.mono fun id _ hid => ?_
    rw [isSome_lookup_contextAt, length_visibleAggregations hindex] at hid
    rwa [isSome_lookup_contextAt, hvisible]
  · rw [List.getElem?_map, Option.map_eq_some_iff] at hmap
    obtain ⟨old, ha, rfl⟩ := hmap
    have hold := h.aggregation j old ha
    refine hold.renumber (fun k hk => ?_) (fun id hnone hid => ?_)
    · -- What an older one reads stands before it, also under the new numbers.
      have hlt : k < j := (lt_of_lookup_aggregation hsource
        (hold.1 _ (Expression.mem_aggregationRefs.mp hk))).2
      rw [isSome_lookup_contextAt, hvisible]
      exact .inr (.inr ⟨_, indexAfterInsert_lt hlt, rfl⟩)
    · rw [isSome_lookup_contextAt] at hid ⊢
      refine hid.imp_right (.imp_right ?_)
      rintro ⟨k, -, rfl⟩
      cases hnone

theorem Consistent.targetValid_insert_aggregation (h : s.Consistent source)
    (hindex : index ≤ s.aggregations.length) (a : Aggregation) {o : OrderBy}
    (ho : o ∈ s.keptSorts) :
    TargetValid (s.context source) (s.withInserted index (.aggregation a))
      (o.target.mapAggregation (indexAfterInsert index)) := by
  have hvalid := h.sort o (s.keptSorts_sublist.subset ho)
  cases htarget : o.target with
  | aggregation i =>
      rw [htarget] at hvalid
      have hvalid : i < s.aggregations.length := hvalid
      rw [OrderTarget.mapAggregation, TargetValid,
        length_withInserted_aggregation hindex]
      unfold indexAfterInsert
      split <;> omega
  | breakout i =>
      rw [htarget] at hvalid
      rwa [withInserted_aggregation]
  | column id => exact absurd htarget (h.target_of_keptSorts ho id)

theorem Consistent.insert_aggregation (h : s.Consistent source)
    (hsource : SourceEntries source) (hindex : index ≤ s.aggregations.length)
    {a : Aggregation}
    (hfits : a.expression.Fits (s.contextAt source ⟨.aggregation, index⟩)
      .aggregation) :
    (s.withInserted index (.aggregation a)).Consistent source := by
  have haggregation := fun (i : Nat) (b : Aggregation)
    (hb : (s.withInserted index (.aggregation a)).aggregations[i]? = some b) =>
      h.fits_insert_aggregation hsource hindex hfits hb
  have hsort := fun (o : OrderBy) (ho : o ∈ s.keptSorts) =>
    h.targetValid_insert_aggregation hindex a ho
  rw [withInserted_aggregation] at haggregation hsort ⊢
  refine {
    names_nodup := h.names_nodup
    customColumn := h.customColumn
    filter := h.filter
    aggregation := haggregation
    breakout := h.breakout
    breakouts_nodup := h.breakouts_nodup
    sort := List.forall_mem_map.mpr hsort
    sortTargets_nodup := ?_ }
  have htargets : OrderBy.target ∘
        OrderBy.mapTarget
            (OrderTarget.mapAggregation (indexAfterInsert index)) =
      OrderTarget.mapAggregation (indexAfterInsert index) ∘ OrderBy.target :=
      rfl
  rw [List.map_map, htargets, ← List.map_map]
  exact (h.sortTargets_nodup.sublist (s.keptSorts_sublist.map _)).map
    (mapAggregation_insert_injective index)

/-! ## Custom columns -/

theorem lookup_pushColumns_congr {new : Identifier}
    {columns : List CustomColumn}
    (hcolumns : ∀ c ∈ columns, new ∉ c.expression.identifiers)
    {ctx ctx' : Context}
    (hctx : ∀ id, id ≠ new → ctx.lookup id = ctx'.lookup id) {id : Identifier}
    (hid : id ≠ new) :
    (pushColumns columns ctx).lookup id =
      (pushColumns columns ctx').lookup id := by
  induction columns generalizing ctx ctx' with
  | nil => exact hctx id hid
  | cons c columns ih =>
      -- The columns enter with their kinds, so each has to have the same kind
      -- in both contexts.
      obtain ⟨hfirst, hrest⟩ := List.forall_mem_cons.mp hcolumns
      have hkind : c.expression.kindIn ctx = c.expression.kindIn ctx' :=
        Expression.kindIn_congr fun i hi => hctx i fun heq => hfirst (heq ▸ hi)
      refine ih hrest fun i hi => ?_
      rw [Context.lookup_push, Context.lookup_push, hctx i hi, hkind]

theorem lookup_pushColumns_cons {c : CustomColumn} {columns : List CustomColumn}
    (hcolumns : ∀ c' ∈ columns,
      .customColumn c.name ∉ c'.expression.identifiers) (ctx : Context)
    {id : Identifier} (hid : id ≠ .customColumn c.name) :
    (pushColumns (c :: columns) ctx).lookup id =
      (pushColumns columns ctx).lookup id := by
  refine lookup_pushColumns_congr hcolumns (fun i hi => ?_) hid
  rw [Context.lookup_push, if_neg, Option.or_none]
  rwa [Context.isEntryOf_iff (by simp)]

theorem lookup_pushColumns_insertIdx {c : CustomColumn}
    {columns : List CustomColumn}
    (hcolumns : ∀ c' ∈ columns,
      .customColumn c.name ∉ c'.expression.identifiers) (index : Nat)
        (ctx : Context) {id : Identifier} (hid : id ≠ .customColumn c.name) :
    (pushColumns (columns.insertIdx index c) ctx).lookup id =
      (pushColumns columns ctx).lookup id := by
  induction columns generalizing index ctx with
  | nil =>
      cases index with
      | zero => exact lookup_pushColumns_cons hcolumns ctx hid
      | succ index => rfl
  | cons first columns ih =>
      cases index with
      | zero => exact lookup_pushColumns_cons hcolumns ctx hid
      | succ index => exact ih (List.forall_mem_cons.mp hcolumns).2 index _

/-- The new custom column takes nothing from the sight of other clauses. -/
theorem isSome_lookup_insert_customColumn (c : CustomColumn)
    (position : ClausePosition) (hkind : position.kind ≠ .customColumn)
    {id : Identifier} (h : ((s.contextAt source position).lookup id).isSome) :
    (((s.withInserted index (.customColumn c)).contextAt source position).lookup
      id).isSome := by
  refine isSome_lookup_contextAt_mono ?_ ?_ h
  · rw [visibleColumns, visibleColumns, if_neg hkind, if_neg hkind]
    exact List.subset_insertIdx _ _ _
  · exact Nat.le_refl _

theorem Consistent.fits_insert_customColumn (h : s.Consistent source)
    {c : CustomColumn}
    (hfits : c.expression.Fits (s.contextAt source ⟨.customColumn, index⟩)
      .customColumn) {i : Nat} {b : CustomColumn}
      (hb : (s.customColumns.insertIdx index c)[i]? = some b) :
    b.expression.Fits
      ((s.withInserted index (.customColumn c)).contextAt source
        ⟨.customColumn, i⟩)
      .customColumn := by
  obtain ⟨rfl, rfl⟩ | ⟨j, rfl, hj⟩ := getElem?_insertIdx_eq_some hb
  · refine hfits.mono fun id _ => isSome_lookup_contextAt_mono ?_ ?_
    · exact (List.Perm.of_eq
        (List.take_insertIdx_eq_take_of_le _ _ _ _ (Nat.le_refl _)).symm).subset
    · exact Nat.le_refl _
  · refine (h.customColumn j b hj).mono fun id _ =>
      isSome_lookup_contextAt_mono ?_ ?_
    · exact take_subset_take_insertIdx _ _ _ _
    · exact Nat.le_refl _

theorem Consistent.insert_customColumn (h : s.Consistent source)
    (hsource : ∀ e ∈ source, e.IsSource)
    (hindex : index ≤ s.customColumns.length) {c : CustomColumn}
    (hnew : c.name ∉ s.customColumns.map CustomColumn.name)
    (hfits : c.expression.Fits (s.contextAt source ⟨.customColumn, index⟩)
      .customColumn) :
    (s.withInserted index (.customColumn c)).Consistent source := by
  have hfresh : ∀ (position : ClausePosition) {id : Identifier},
      ((s.contextAt source position).lookup id).isSome →
      id ≠ .customColumn c.name := by
    rintro position id hsome rfl
    exact hnew (mem_names_of_lookup hsource hsome)
  have hunread : ∀ c' ∈ s.customColumns,
      .customColumn c.name ∉ c'.expression.identifiers := by
    intro c' hc' hmem
    obtain ⟨i, hi⟩ := List.mem_iff_getElem?.mp hc'
    exact hfresh _ ((h.customColumn i c' hi).1 _ hmem) rfl
  refine {
    names_nodup := ?_
    customColumn := fun i b hb => h.fits_insert_customColumn hfits hb
    filter :=
      fun predicate hmem => (h.filter predicate hmem).mono fun _ _ hid =>
      isSome_lookup_insert_customColumn c ⟨.filter, 0⟩ (by simp) hid
    aggregation := fun i a ha => (h.aggregation i a ha).mono fun _ _ hid =>
      isSome_lookup_insert_customColumn c ⟨.aggregation, i⟩ (by simp) hid
    breakout := fun b hb => ?_
    breakouts_nodup := h.breakouts_nodup
    sort := fun o ho => ?_
    sortTargets_nodup := h.sortTargets_nodup }
  · exact ((List.perm_insertIdx c _ hindex).map _).nodup_iff.mpr
      (List.nodup_cons.mpr ⟨hnew, h.names_nodup⟩)
  · -- A breakout by a unit depends on the kind of its column, not only on
    -- finding it.
    obtain ⟨e, he, hunit⟩ := h.breakout b hb
    have hsome : ((s.contextAt source ⟨.breakout, 0⟩).lookup b.column).isSome :=
      Option.isSome_of_eq_some he
    refine ⟨e, ?_, hunit⟩
    rw [← he]
    exact lookup_pushColumns_insertIdx hunread index _ (hfresh _ hsome)
  · have hvalid := h.sort o ho
    cases htarget : o.target with
    | aggregation i => rwa [htarget] at hvalid
    | breakout i => rwa [htarget] at hvalid
    | column id =>
        rw [htarget] at hvalid
        exact ⟨hvalid.1,
          isSome_lookup_insert_customColumn c ⟨.orderBy, 0⟩ (by simp) hvalid.2⟩

end Stage

end TableQuery
