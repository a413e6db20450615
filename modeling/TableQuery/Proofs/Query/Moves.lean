import TableQuery.Proofs.Query.Removal

/-!
# Moving clauses past one another

A clause can be moved unless one that reads another would no longer stand behind
it.  The other clauses see the same columns as before, with the same kinds, and
the sorts look at the same clauses under their new numbers.
-/

namespace TableQuery

/-! ## Moved lists -/

theorem indexAfterMove_lt {start stop i n : Nat} (hstart : start < n)
    (hstop : stop < n) (h : i < n) : indexAfterMove start stop i < n := by
  unfold indexAfterMove
  repeat' split
  all_goals omega

theorem moveItem_perm {α : Type} {items : List α} {start stop : Nat}
    (hstart : start < items.length) (hstop : stop < items.length) :
    (moveItem start stop items).Perm items := by
  have hlength := List.length_eraseIdx_of_lt hstart
  have hback : (items[start] :: items.eraseIdx start).Perm items := by
    have hinsert := List.perm_insertIdx items[start] (items.eraseIdx start)
      (i := start) (by omega)
    rw [List.insertIdx_eraseIdx_getElem hstart] at hinsert
    exact hinsert.symm
  simp only [moveItem, List.getElem?_eq_getElem hstart]
  exact (List.perm_insertIdx _ _ (by omega)).trans hback

namespace Stage

variable {source : List Entry} {s : Stage} {start stop : Nat}

/-! ## Columns in another order -/

theorem pushColumns_append (before after : List CustomColumn) (ctx : Context) :
    pushColumns (before ++ after) ctx =
      pushColumns after (pushColumns before ctx) :=
  List.foldl_append

theorem lookup_pushColumns_of_eq_some {columns : List CustomColumn}
    {ctx : Context} {id : Identifier} {e : Entry} (h : ctx.lookup id = some e) :
    (pushColumns columns ctx).lookup id = some e := by
  induction columns generalizing ctx with
  | nil => exact h
  | cons c columns ih =>
      exact ih (by rw [Context.lookup_push, h, Option.some_or])

theorem lookup_pushColumns_of_not_mem {columns : List CustomColumn}
    {ctx : Context} {id : Identifier}
    (h : ∀ c ∈ columns, id ≠ .customColumn c.name) :
    (pushColumns columns ctx).lookup id = ctx.lookup id := by
  induction columns generalizing ctx with
  | nil => rfl
  | cons c columns ih =>
      obtain ⟨hfirst, hrest⟩ := List.forall_mem_cons.mp h
      refine (ih hrest).trans ?_
      rw [Context.lookup_push, if_neg, Option.or_none]
      rwa [Context.isEntryOf_iff (by simp)]

/-- Custom columns of distinct names, each of which sees what it reads. -/
structure OrderedColumns (source : List Entry) (columns : List CustomColumn) :
    Prop where
  names_nodup : (columns.map CustomColumn.name).Nodup
  visible : ∀ (i : Nat) c, columns[i]? = some c →
    ∀ id ∈ c.expression.identifiers,
    ((pushColumns (columns.take i) ⟨source⟩).lookup id).isSome

theorem Consistent.orderedColumns (h : s.Consistent source) :
    OrderedColumns source s.customColumns where
  names_nodup := h.names_nodup
  visible := fun i c hc => (h.customColumn i c hc).1

theorem lookup_source_customColumn (hsource : ∀ e ∈ source, e.IsSource)
    (name : String) : Context.lookup ⟨source⟩ (.customColumn name) = none := by
  refine List.find?_eq_none.mpr fun e he hentry => ?_
  exact (hsource e he).identifier_ne_customColumn name
    (Context.identifier_eq_of_isEntryOf (by simp) hentry)

theorem OrderedColumns.lookup_customColumn {columns : List CustomColumn}
    (h : OrderedColumns source columns) (hsource : ∀ e ∈ source, e.IsSource)
    {i : Nat} {c : CustomColumn} (hi : columns[i]? = some c) :
    (pushColumns columns ⟨source⟩).lookup (.customColumn c.name) =
      some ⟨c.name, [], .customColumn c.name,
        c.expression.kindIn (pushColumns columns ⟨source⟩)⟩ := by
  obtain ⟨hlt, hget⟩ := List.getElem?_eq_some_iff.mp hi
  let before := pushColumns (columns.take i) ⟨source⟩
  have hsplit : columns = columns.take i ++ c :: columns.drop (i + 1) := by
    rw [← hget, ← List.drop_eq_getElem_cons hlt, List.take_append_drop]
  have hall : pushColumns columns ⟨source⟩ = pushColumns (columns.drop (i + 1))
      (before.push ⟨c.name, [], .customColumn c.name,
        c.expression.kindIn before⟩) :=
    (congrArg (pushColumns · ⟨source⟩) hsplit).trans (pushColumns_append ..)
  have hkind : c.expression.kindIn before =
      c.expression.kindIn (pushColumns columns ⟨source⟩) := by
    refine Expression.kindIn_congr fun id hid => ?_
    obtain ⟨e, he⟩ := Option.isSome_iff_exists.mp (h.visible i c hi id hid)
    have hbefore : before.lookup id = some e := he
    rw [hbefore, hall]
    refine (lookup_pushColumns_of_eq_some ?_).symm
    rw [Context.lookup_push, hbefore, Option.some_or]
  have hnew : before.lookup (.customColumn c.name) = none := by
    refine (lookup_pushColumns_of_not_mem fun c' hc' hname => ?_).trans
      (lookup_source_customColumn hsource c.name)
    have hnodup := h.names_nodup
    rw [hsplit, List.map_append, List.map_cons, List.nodup_append] at hnodup
    exact hnodup.2.2 c'.name (List.mem_map_of_mem hc') c.name List.mem_cons_self
      (Identifier.customColumn.inj hname).symm
  rw [← hkind, hall]
  refine lookup_pushColumns_of_eq_some ?_
  rw [Context.lookup_push, hnew, Option.none_or,
    if_pos (by simp [Context.isEntryOf])]

/-- Two orders of the same columns show the same, if in both each column sees
what it reads. -/
theorem OrderedColumns.lookup_eq_of_perm {columns columns' : List CustomColumn}
    (h : OrderedColumns source columns) (h' : OrderedColumns source columns')
    (hsource : ∀ e ∈ source, e.IsSource) (hperm : columns'.Perm columns)
    (id : Identifier) :
    (pushColumns columns' ⟨source⟩).lookup id =
      (pushColumns columns ⟨source⟩).lookup id := by
  have hother : ∀ id : Identifier, (∀ c ∈ columns, id ≠ .customColumn c.name) →
      (pushColumns columns' ⟨source⟩).lookup id =
        (pushColumns columns ⟨source⟩).lookup id := by
    intro id hid
    rw [lookup_pushColumns_of_not_mem hid,
      lookup_pushColumns_of_not_mem fun c hc => hid c (hperm.subset hc)]
  -- By the place in the first order: what a column reads stands before it.
  have hcolumn : ∀ (i : Nat) (c : CustomColumn), columns[i]? = some c →
      (pushColumns columns' ⟨source⟩).lookup (.customColumn c.name) =
        (pushColumns columns ⟨source⟩).lookup (.customColumn c.name) := by
    intro i
    induction i using Nat.strongRecOn with
    | ind i ih =>
        intro c hc
        obtain ⟨j, hj⟩ :=
          List.mem_iff_getElem?.mp (hperm.symm.subset (List.mem_of_getElem? hc))
        have hkind : c.expression.kindIn (pushColumns columns' ⟨source⟩) =
            c.expression.kindIn (pushColumns columns ⟨source⟩) := by
          refine Expression.kindIn_congr fun id hid => ?_
          by_cases hread : ∃ c' ∈ columns, id = .customColumn c'.name
          · obtain ⟨c', hc', rfl⟩ := hread
            rcases isSome_lookup_pushColumns.mp (h.visible i c hc _ hid) with
              hold | ⟨c'', hc'', hid'⟩
            · rw [lookup_source_customColumn hsource] at hold
              cases hold
            · obtain ⟨k, hk, rfl⟩ := List.mem_take_iff_getElem.mp hc''
              rw [hid']
              exact ih k (by omega) _ (List.getElem?_eq_getElem (by omega))
          · exact hother id fun c' hc' heq => hread ⟨c', hc', heq⟩
        rw [h.lookup_customColumn hsource hc,
          h'.lookup_customColumn hsource hj, hkind]
  by_cases hread : ∃ c ∈ columns, id = .customColumn c.name
  · obtain ⟨c, hc, rfl⟩ := hread
    obtain ⟨i, hi⟩ := List.mem_iff_getElem?.mp hc
    exact hcolumn i c hi
  · exact hother id fun c hc heq => hread ⟨c, hc, heq⟩

/-! ## Stages with the clause moved -/

theorem Consistent.move_filter (h : s.Consistent source)
    (hstart : start < s.filters.length) (hstop : stop < s.filters.length) :
    (s.withMoved ⟨.filter, start⟩ stop).Consistent source := by
  rw [withMoved_filter hstart]
  exact {
    names_nodup := h.names_nodup
    customColumn := h.customColumn
    filter := fun predicate hmem =>
      h.filter predicate ((moveItem_perm hstart hstop).subset hmem)
    aggregation := h.aggregation
    breakout := h.breakout
    breakouts_nodup := h.breakouts_nodup
    sort := h.sort
    sortTargets_nodup := h.sortTargets_nodup }

theorem Consistent.move_orderBy (h : s.Consistent source)
    (hstart : start < s.orderBy.length) (hstop : stop < s.orderBy.length) :
    (s.withMoved ⟨.orderBy, start⟩ stop).Consistent source := by
  rw [withMoved_orderBy hstart]
  have hperm := moveItem_perm hstart hstop
  exact {
    names_nodup := h.names_nodup
    customColumn := h.customColumn
    filter := h.filter
    aggregation := h.aggregation
    breakout := h.breakout
    breakouts_nodup := h.breakouts_nodup
    sort := fun o ho => h.sort o (hperm.subset ho)
    sortTargets_nodup := (hperm.map _).nodup_iff.mpr h.sortTargets_nodup }

theorem nodup_targets_mapTarget {f : OrderTarget → OrderTarget}
    (hf : Function.Injective f) {orders : List OrderBy}
    (h : (orders.map OrderBy.target).Nodup) :
    ((orders.map (OrderBy.mapTarget f)).map OrderBy.target).Nodup := by
  have htargets : (orders.map (OrderBy.mapTarget f)).map OrderBy.target =
      (orders.map OrderBy.target).map f := by
    rw [List.map_map, List.map_map]
    rfl
  rw [htargets]
  exact h.map hf

theorem mapAggregation_move_injective (start stop : Nat) :
    Function.Injective
      (OrderTarget.mapAggregation (indexAfterMove start stop)) :=
  (OrderTarget.mapAggregation_leftInverse
    (indexAfterMove_indexAfterMove start stop)).injective

theorem mapBreakout_move_injective (start stop : Nat) :
    Function.Injective (OrderTarget.mapBreakout (indexAfterMove start stop)) :=
  (OrderTarget.mapBreakout_leftInverse
    (indexAfterMove_indexAfterMove start stop)).injective

theorem Consistent.move_breakout (h : s.Consistent source)
    (hstart : start < s.breakouts.length) (hstop : stop < s.breakouts.length) :
    (s.withMoved ⟨.breakout, start⟩ stop).Consistent source := by
  rw [withMoved_breakout hstart]
  have hperm := moveItem_perm hstart hstop
  refine {
    names_nodup := h.names_nodup
    customColumn := h.customColumn
    filter := h.filter
    aggregation := h.aggregation
    breakout := fun b hb => h.breakout b (hperm.subset hb)
    breakouts_nodup := hperm.nodup_iff.mpr h.breakouts_nodup
    sort := List.forall_mem_map.mpr fun o ho => ?_
    sortTargets_nodup :=
      nodup_targets_mapTarget (mapBreakout_move_injective start stop)
        h.sortTargets_nodup }
  have hvalid := h.sort o ho
  have hs : s.isSummarized := isSummarized_of_lt_count (.inr rfl) hstart
  have hlength : (moveItem start stop s.breakouts).length =
      s.breakouts.length :=
    length_moveItem _ hstop
  cases htarget : o.target with
  | aggregation i =>
      rw [htarget] at hvalid
      simpa [OrderBy.mapTarget, OrderTarget.mapBreakout, htarget, TargetValid]
        using hvalid
  | breakout i =>
      rw [htarget] at hvalid
      simp only [OrderBy.mapTarget, OrderTarget.mapBreakout, htarget,
        TargetValid, hlength]
      exact indexAfterMove_lt hstart hstop hvalid
  | column id =>
      rw [htarget] at hvalid
      exact absurd hvalid.1 (by simp [hs])

theorem Consistent.move_aggregation (h : s.Consistent source)
    (hstart : start < s.aggregations.length)
    (hstop : stop < s.aggregations.length)
    (hfits : ∀ (i : Nat) a,
      (s.withMoved ⟨.aggregation, start⟩ stop).aggregations[i]? = some a →
      a.expression.Fits
        ((s.withMoved ⟨.aggregation, start⟩ stop).contextAt source
          ⟨.aggregation, i⟩)
        .aggregation) :
    (s.withMoved ⟨.aggregation, start⟩ stop).Consistent source := by
  rw [withMoved_aggregation hstart] at hfits ⊢
  refine {
    names_nodup := h.names_nodup
    customColumn := h.customColumn
    filter := h.filter
    aggregation := hfits
    breakout := h.breakout
    breakouts_nodup := h.breakouts_nodup
    sort := List.forall_mem_map.mpr fun o ho => ?_
    sortTargets_nodup :=
      nodup_targets_mapTarget (mapAggregation_move_injective start stop)
        h.sortTargets_nodup }
  have hvalid := h.sort o ho
  have hs : s.isSummarized := isSummarized_of_lt_count (.inl rfl) hstart
  have hlength : (moveItem start stop
      (s.aggregations.map
        (Aggregation.renumber (indexAfterMove start stop)))).length =
        s.aggregations.length := by
    rw [length_moveItem _ (by rwa [List.length_map]), List.length_map]
  cases htarget : o.target with
  | aggregation i =>
      rw [htarget] at hvalid
      simp only [OrderBy.mapTarget, OrderTarget.mapAggregation, htarget,
        TargetValid, hlength]
      exact indexAfterMove_lt hstart hstop hvalid
  | breakout i =>
      rw [htarget] at hvalid
      simpa [OrderBy.mapTarget, OrderTarget.mapAggregation, htarget,
        TargetValid] using hvalid
  | column id =>
      rw [htarget] at hvalid
      exact absurd hvalid.1 (by simp [hs])

theorem Consistent.move_customColumn (h : s.Consistent source)
    (hsource : ∀ e ∈ source, e.IsSource)
    (hstart : start < s.customColumns.length)
    (hstop : stop < s.customColumns.length)
    (hfits : ∀ (i : Nat) c,
      (s.withMoved ⟨.customColumn, start⟩ stop).customColumns[i]? = some c →
      c.expression.Fits
        ((s.withMoved ⟨.customColumn, start⟩ stop).contextAt source
          ⟨.customColumn, i⟩)
        .customColumn) :
    (s.withMoved ⟨.customColumn, start⟩ stop).Consistent source := by
  have hperm := moveItem_perm hstart hstop
  rw [withMoved_customColumn hstart] at hfits ⊢
  have hordered : OrderedColumns source
    (moveItem start stop s.customColumns) := {
    names_nodup := (hperm.map _).nodup_iff.mpr h.names_nodup
    visible := fun i c hc => (hfits i c hc).1 }
  have hlookup := h.orderedColumns.lookup_eq_of_perm hordered hsource hperm
  have hsee : ∀ (aggregations : List Aggregation) (id : Identifier),
      ((pushAggregations 0 aggregations (s.context source)).lookup id).isSome →
      ((pushAggregations 0 aggregations
        (pushColumns (moveItem start stop s.customColumns) ⟨source⟩)).lookup
        id).isSome := by
    intro aggregations id hid
    rw [isSome_lookup_pushAggregations] at hid ⊢
    rwa [hlookup id]
  refine {
    names_nodup := hordered.names_nodup
    customColumn := hfits
    filter := fun predicate hmem => (h.filter predicate hmem).mono fun id _ =>
      hsee [] id
    aggregation := fun i a ha => (h.aggregation i a ha).mono fun id _ =>
      hsee _ id
    breakout := fun b hb => ?_
    breakouts_nodup := h.breakouts_nodup
    sort := fun o ho => ?_
    sortTargets_nodup := h.sortTargets_nodup }
  · obtain ⟨e, he, hunit⟩ := h.breakout b hb
    exact ⟨e, (hlookup b.column).trans he, hunit⟩
  · have hvalid := h.sort o ho
    cases htarget : o.target with
    | aggregation i => rwa [htarget] at hvalid
    | breakout i => rwa [htarget] at hvalid
    | column id =>
        rw [htarget] at hvalid
        exact ⟨hvalid.1, hsee [] id hvalid.2⟩

/-! ## Why a move fails -/

/-- Why a clause cannot be moved: one that reads another would no longer stand
behind it. -/
inductive MoveFault (s : Stage) (kind : ClauseKind) (start stop : Nat) :
    ConsistencyError → Prop where
  | unresolvedColumn {reader index : Nat} {id : Identifier}
      (hreads : s.Reads ⟨kind, reader⟩ ⟨kind, index⟩)
      (hle : indexAfterMove start stop reader ≤ indexAfterMove start stop index)
      (hid : (s.withMoved ⟨kind, start⟩ stop).identifierAt?
        ⟨kind, indexAfterMove start stop index⟩ = some id) :
      MoveFault s kind start stop
        (.unresolvedColumn ⟨kind, indexAfterMove start stop reader⟩ id)

theorem getElem?_aggregations_withMoved (hstart : start < s.aggregations.length)
    (hstop : stop < s.aggregations.length) (i : Nat) :
    (s.withMoved ⟨.aggregation, start⟩ stop).aggregations[indexAfterMove
      start stop i]? =
      s.aggregations[i]?.map
        (Aggregation.renumber (indexAfterMove start stop)) := by
  rw [withMoved_aggregation hstart]
  dsimp only
  rw [getElem?_moveItem_indexAfterMove (by rwa [List.length_map])
    (by rwa [List.length_map]),
    List.getElem?_map]

theorem getElem?_customColumns_withMoved
    (hstart : start < s.customColumns.length)
    (hstop : stop < s.customColumns.length) (i : Nat) :
    (s.withMoved ⟨.customColumn, start⟩ stop).customColumns[indexAfterMove
      start stop i]? =
      s.customColumns[i]? := by
  rw [withMoved_customColumn hstart]
  exact getElem?_moveItem_indexAfterMove hstart hstop i

theorem reads_withMoved {kind : ClauseKind} (hstart : start < s.count kind)
    (hstop : stop < s.count kind) {reader index : Nat}
    (h : s.Reads ⟨kind, reader⟩ ⟨kind, index⟩) :
    (s.withMoved ⟨kind, start⟩ stop).Reads
      ⟨kind, indexAfterMove start stop reader⟩
      ⟨kind, indexAfterMove start stop index⟩ := by
  obtain ⟨clause, hclause, id, hid, hat⟩ := h
  cases kind with
  | aggregation =>
      cases hat
      obtain ⟨a, ha, rfl⟩ := Option.map_eq_some_iff.mp hclause
      refine ⟨.aggregation (a.renumber (indexAfterMove start stop)),
        ?_, _, ?_, rfl⟩
      · rw [clause?, getElem?_aggregations_withMoved hstart hstop, ha]
        rfl
      · refine Expression.mem_aggregationRefs.mp ?_
        rw [Aggregation.renumber, Expression.aggregationRefs_renumber]
        exact List.mem_map_of_mem (Expression.mem_aggregationRefs.mpr hid)
  | customColumn =>
      refine ⟨clause, ?_, id, hid, ?_⟩
      · rw [clause?, getElem?_customColumns_withMoved hstart hstop]
        exact hclause
      · rw [identifierAt?, getElem?_customColumns_withMoved hstart hstop]
        exact hat
  | filter => cases hat
  | breakout => cases hat
  | orderBy => cases hat

theorem Consistent.fault_of_moved_aggregation (h : s.Consistent source)
    (hstart : start < s.aggregations.length)
    (hstop : stop < s.aggregations.length) {i : Nat} {a : Aggregation}
    {e : ConsistencyError}
    (ha : (s.withMoved ⟨.aggregation, start⟩ stop).aggregations[i]? = some a)
    (herror : a.expression.check
      ((s.withMoved ⟨.aggregation, start⟩ stop).contextAt source
        ⟨.aggregation, i⟩)
      ⟨.aggregation, i⟩ = .error e) :
    s.MoveFault .aggregation start stop e := by
  have hlength :=
    length_visibleAggregations
      (Nat.le_of_lt (List.getElem?_eq_some_iff.mp ha).1)
  obtain ⟨j, rfl⟩ : ∃ j, i = indexAfterMove start stop j :=
    ⟨indexAfterMove stop start i,
      (indexAfterMove_indexAfterMove stop start i).symm⟩
  have hmoved := ha
  rw [getElem?_aggregations_withMoved hstart hstop] at hmoved
  obtain ⟨old, hold, rfl⟩ := Option.map_eq_some_iff.mp hmoved
  have hfits := h.aggregation j old hold
  have haggregates : old.expression.isAggregating ∨
      old.expression.isUnrecognized := hfits.2
  have hplace := haggregates.imp
    (Expression.isAggregating_renumber (f := indexAfterMove start stop))
    (Expression.isUnrecognized_renumber (f := indexAfterMove start stop))
  obtain ⟨id, hid, hnone, rfl⟩ :=
    Expression.exists_of_check_eq_error (by rwa [if_pos rfl]) herror
  rcases Expression.mem_identifiers_renumber hid with ⟨hold', hother⟩ |
    ⟨k, hk, rfl⟩
  · -- Whatever is not an aggregation is visible wherever the aggregation
    -- stands.
    have hvisible := hfits.1 id hold'
    have hsome : (((s.withMoved ⟨.aggregation, start⟩ stop).contextAt source
        ⟨.aggregation, indexAfterMove start stop j⟩).lookup id).isSome := by
      rw [isSome_lookup_contextAt] at hvisible ⊢
      rw [withMoved_aggregation hstart]
      refine hvisible.imp_right (.imp_right ?_)
      rintro ⟨i, -, rfl⟩
      cases hother
    rw [hnone] at hsome
    cases hsome
  · have hreads : s.Reads ⟨.aggregation, j⟩ ⟨.aggregation, k⟩ :=
      ⟨.aggregation old, by simp [clause?, hold], _,
        Expression.mem_aggregationRefs.mp hk, rfl⟩
    refine .unresolvedColumn hreads (Nat.le_of_not_lt fun hlt => ?_) rfl
    have hsome : (((s.withMoved ⟨.aggregation, start⟩ stop).contextAt source
        ⟨.aggregation, indexAfterMove start stop j⟩).lookup
          (.aggregation (indexAfterMove start stop k))).isSome := by
      rw [isSome_lookup_contextAt, hlength]
      exact .inr (.inr ⟨_, hlt, rfl⟩)
    rw [hnone] at hsome
    cases hsome

theorem Consistent.fault_of_moved_customColumn (h : s.Consistent source)
    (hstart : start < s.customColumns.length)
    (hstop : stop < s.customColumns.length) {i : Nat} {c : CustomColumn}
    {e : ConsistencyError}
    (hc : (s.withMoved ⟨.customColumn, start⟩ stop).customColumns[i]? = some c)
    (herror : c.expression.check
      ((s.withMoved ⟨.customColumn, start⟩ stop).contextAt source
        ⟨.customColumn, i⟩)
      ⟨.customColumn, i⟩ = .error e) :
    s.MoveFault .customColumn start stop e := by
  obtain ⟨j, rfl⟩ : ∃ j, i = indexAfterMove start stop j :=
    ⟨indexAfterMove stop start i,
      (indexAfterMove_indexAfterMove stop start i).symm⟩
  have hold := hc
  rw [getElem?_customColumns_withMoved hstart hstop] at hold
  have hfits := h.customColumn j c hold
  obtain ⟨id, hid, hnone, rfl⟩ :=
    Expression.exists_of_check_eq_error hfits.2 herror
  have hunseen : ¬ (((s.withMoved ⟨.customColumn, start⟩ stop).contextAt source
      ⟨.customColumn, indexAfterMove start stop j⟩).lookup id).isSome := by
    rw [hnone]
    simp
  rw [isSome_lookup_contextAt] at hunseen
  rcases isSome_lookup_contextAt.mp (hfits.1 id hid) with hin |
    ⟨read, hread, rfl⟩ | ⟨k, hk, -⟩
  · exact absurd (.inl hin) hunseen
  · obtain ⟨k, hk, rfl⟩ := List.mem_take_iff_getElem.mp hread
    have hget : s.customColumns[k]? = some s.customColumns[k] :=
      List.getElem?_eq_getElem (by omega)
    have hmoved := (getElem?_customColumns_withMoved hstart hstop k).trans hget
    have hreads : s.Reads ⟨.customColumn, j⟩ ⟨.customColumn, k⟩ :=
      ⟨.customColumn c, by simp [clause?, hold], _, hid,
        by simp [identifierAt?, hget]⟩
    refine .unresolvedColumn hreads ?_ ?_
    · refine Nat.le_of_not_lt fun hlt => hunseen (.inr (.inl ⟨_, ?_, rfl⟩))
      refine List.mem_of_getElem? (i := indexAfterMove start stop k) ?_
      rw [visibleColumns, if_pos rfl, List.getElem?_take_of_lt hlt, hmoved]
    · simp [identifierAt?, hmoved]
  · cases hk

/-- The first fault of a stage with a clause moved is that of a clause of its
list. -/
theorem Consistent.fault_of_check_withMoved (h : s.Consistent source)
    (hsource : ∀ e ∈ source, e.IsSource) {kind : ClauseKind}
    (hstart : start < s.count kind) (hstop : stop < s.count kind)
    {e : ConsistencyError}
    (herror : (s.withMoved ⟨kind, start⟩ stop).check (.ok source) = .error e) :
    s.MoveFault kind start stop e := by
  have hrefuted (hmoved : (s.withMoved ⟨kind, start⟩ stop).Consistent source) :
      s.MoveFault kind start stop e := by
    rw [check_eq_ok_iff.mpr (valid_ok_iff.mpr hmoved)] at herror
    cases herror
  cases kind with
  | filter => exact hrefuted (h.move_filter hstart hstop)
  | breakout => exact hrefuted (h.move_breakout hstart hstop)
  | orderBy => exact hrefuted (h.move_orderBy hstart hstop)
  | aggregation =>
      have hnames : ((s.withMoved ⟨.aggregation, start⟩ stop).customColumns.map
          CustomColumn.name).Nodup := by
        rw [withMoved_aggregation hstart]
        exact h.names_nodup
      obtain ⟨⟨kind, i⟩, clause, hclause, hfault, hbefore⟩ :=
        check_eq_error hnames herror
      have hlater (hrank : ClauseKind.aggregation.rank < kind.rank) :
          s.MoveFault .aggregation start stop e := by
        refine hrefuted (h.move_aggregation hstart hstop fun j a ha => ?_)
        exact Expression.check_eq_ok_iff_fits.mp
          (hbefore ⟨.aggregation, j⟩ (.aggregation a)
            (by simp [clause?, ha]) hrank)
      cases kind with
      | customColumn =>
          rw [withMoved_aggregation hstart] at hclause hfault
          obtain ⟨c, hc, rfl⟩ := Option.map_eq_some_iff.mp hclause
          have hok : c.expression.check (s.contextAt source ⟨.customColumn, i⟩)
              ⟨.customColumn, i⟩ = .ok () :=
            Expression.check_eq_ok_iff_fits.mpr (h.customColumn i c hc)
          cases hok.symm.trans hfault
      | filter =>
          rw [withMoved_aggregation hstart] at hclause hfault
          obtain ⟨predicate, hpredicate, rfl⟩ :=
            Option.map_eq_some_iff.mp hclause
          have hok : predicate.check (s.context source) ⟨.filter, i⟩ = .ok () :=
            Expression.check_eq_ok_iff_fits.mpr
              (h.filter predicate (List.mem_of_getElem? hpredicate))
          cases hok.symm.trans hfault
      | aggregation =>
          obtain ⟨a, ha, rfl⟩ := Option.map_eq_some_iff.mp hclause
          exact h.fault_of_moved_aggregation hstart hstop ha hfault
      | breakout => exact hlater (by decide)
      | orderBy => exact hlater (by decide)
  | customColumn =>
      have hnames : ((s.withMoved ⟨.customColumn, start⟩ stop).customColumns.map
          CustomColumn.name).Nodup := by
        rw [withMoved_customColumn hstart]
        exact ((moveItem_perm hstart hstop).map _).nodup_iff.mpr h.names_nodup
      obtain ⟨⟨kind, i⟩, clause, hclause, hfault, hbefore⟩ :=
        check_eq_error hnames herror
      have hlater (hrank : ClauseKind.customColumn.rank < kind.rank) :
          s.MoveFault .customColumn start stop e := by
        refine hrefuted (h.move_customColumn hsource hstart hstop
          fun j c hc => ?_)
        exact Expression.check_eq_ok_iff_fits.mp
          (hbefore ⟨.customColumn, j⟩ (.customColumn c)
            (by simp [clause?, hc]) hrank)
      cases kind with
      | customColumn =>
          obtain ⟨c, hc, rfl⟩ := Option.map_eq_some_iff.mp hclause
          exact h.fault_of_moved_customColumn hstart hstop hc hfault
      | filter => exact hlater (by decide)
      | aggregation => exact hlater (by decide)
      | breakout => exact hlater (by decide)
      | orderBy => exact hlater (by decide)

end Stage

namespace Draft

variable {c : Catalog} {d : Draft} {position : ClausePosition} {stop : Nat}

theorem fault_of_move (hvalid : d.query.Valid c)
    (hindex : position.index < d.query.stage.count position.kind)
    (hstop : stop < d.query.stage.count position.kind) {e : ConsistencyError}
    (h : d.move c position stop = .error e) :
    d.query.stage.MoveFault position.kind position.index stop e := by
  obtain ⟨source, hsource, hconsistent⟩ := hvalid.exists_consistent hindex
  have hmove : d.move c position stop =
      d.commit c (d.query.stage.withMoved position stop) := by
    simp only [Draft.move, checkRange, if_pos hindex, if_pos hstop,
      Query.validate_eq_ok_iff.mpr hvalid]
    rfl
  have hcheck : (d.query.stage.withMoved position stop).check (.ok source) =
      .error e := by
    rw [← hsource, ← Query.validate_withStage hvalid]
    rw [hmove, commit] at h
    cases hnext : (d.query.withStage
      (d.query.stage.withMoved position stop)).validate c with
    | error fault =>
        rw [hnext] at h
        cases h
        rfl
    | ok _ =>
        rw [hnext] at h
        cases h
  exact hconsistent.fault_of_check_withMoved
    (fun e he => Query.isSource_of_mem_sourceColumns hsource he)
    hindex hstop hcheck

/-- A move fails if and only if a clause of the list would read one that no
longer precedes it. -/
theorem move_eq_error_iff (hvalid : d.query.Valid c)
    (hindex : position.index < d.query.stage.count position.kind)
    (hstop : stop < d.query.stage.count position.kind) :
    (∃ e, d.move c position stop = .error e) ↔
      ∃ i j, d.query.stage.Reads ⟨position.kind, i⟩ ⟨position.kind, j⟩ ∧
        indexAfterMove position.index stop i ≤
          indexAfterMove position.index stop j := by
  constructor
  · rintro ⟨e, h⟩
    cases fault_of_move hvalid hindex hstop h with
    | unresolvedColumn hreads hle hid => exact ⟨_, _, hreads, hle⟩
  · rintro ⟨i, j, hreads, hle⟩
    cases h : d.move c position stop with
    | error e => exact ⟨e, rfl⟩
    | ok d' =>
        obtain ⟨-, -, -, hcommit⟩ := move_eq_ok_iff.mp h
        obtain ⟨hvalid', -⟩ := commit_eq_ok_iff.mp hcommit
        obtain ⟨source, hsource, -⟩ := hvalid.exists_consistent hindex
        have hmoved := hvalid'.stage
        rw [Query.stage_withStage, Query.sourceColumns_withStage, hsource,
          Stage.valid_ok_iff] at hmoved
        -- After the move the reader would have to stand behind what it reads.
        have hread := Stage.reads_withMoved hindex hstop hreads
        have hlt := hmoved.lt_of_reads
          (fun e he => Query.isSource_of_mem_sourceColumns hsource he) hread
        omega

/-- Removing and moving clauses of a valid query fail only for what clauses read
of one another.  A clause cannot be removed if and only if it is an aggregation
that another aggregation reads, or a custom column that another clause reads,
and the error names a reader.  It cannot be moved if and only if an aggregation
or a custom column would read one that no longer precedes it, and the error is
that this one is not visible there. -/
theorem remove_and_move_fail_iff (hvalid : d.query.validate c = .ok ())
    (hindex : position.index < d.query.stage.count position.kind) :
    (∀ policy,
      ((∃ e, d.remove c policy position = .error e) ↔
        (position.kind = .aggregation ∧ ∃ user, user ≠ position.index ∧
          d.query.stage.Reads ⟨.aggregation, user⟩ position) ∨
        (position.kind = .customColumn ∧ ∃ user, user ≠ position ∧
          d.query.stage.Reads user position)) ∧
      ∀ e, d.remove c policy position = .error e →
        d.query.stage.RemovalFault position e) ∧
    ∀ stop, stop < d.query.stage.count position.kind →
      ((∃ e, d.move c position stop = .error e) ↔
        ∃ i j, d.query.stage.Reads ⟨position.kind, i⟩ ⟨position.kind, j⟩ ∧
          indexAfterMove position.index stop i ≤
            indexAfterMove position.index stop j) ∧
      (∀ e, d.move c position stop = .error e →
        d.query.stage.MoveFault position.kind position.index stop e) ∧
      (position.kind ≠ .aggregation → position.kind ≠ .customColumn →
        ∃ d', d.move c position stop = .ok d') := by
  have hvalid := Query.validate_eq_ok_iff.mp hvalid
  refine ⟨fun policy => ⟨?_, fun e => fault_of_remove hvalid hindex⟩,
    fun stop hstop =>
    ⟨move_eq_error_iff hvalid hindex hstop,
      fun e => fault_of_move hvalid hindex hstop, ?_⟩⟩
  · constructor
    · rintro ⟨e, h⟩
      cases fault_of_remove hvalid hindex h with
      | aggregation hne hreads => exact .inl ⟨rfl, _, hne, hreads⟩
      | customColumn hcolumn hne hreads => exact .inr ⟨rfl, _, hne, hreads⟩
    · intro hread
      refine (remove_eq_error_iff hvalid hindex).mpr ?_
      rcases hread with ⟨-, user, hne, hreads⟩ | ⟨-, user, hne, hreads⟩
      · exact ⟨⟨.aggregation, user⟩,
          fun heq => hne (congrArg ClausePosition.index heq), hreads⟩
      · exact ⟨user, hne, hreads⟩
  · intro haggregation hcolumn
    cases h : d.move c position stop with
    | ok d' => exact ⟨d', rfl⟩
    | error e =>
        obtain ⟨i, j, ⟨clause, hclause, id, hid, hat⟩, -⟩ :=
          (move_eq_error_iff hvalid hindex hstop).mp ⟨e, h⟩
        obtain ⟨kind, index⟩ := position
        cases kind with
        | aggregation => exact absurd rfl haggregation
        | customColumn => exact absurd rfl hcolumn
        | filter => cases hat
        | breakout => cases hat
        | orderBy => cases hat

theorem remove_and_move_fail_iff_linkedCounts :
    ListEdit.linkedCounts.query.validate Sample.catalog = .ok () ∧
      1 < ListEdit.linkedCounts.query.stage.count .aggregation ∧
      (∃ e, ListEdit.linkedCounts.remove Sample.catalog .drop
        ⟨.aggregation, 1⟩ = .error e) ∧
      ∃ e, ListEdit.linkedCounts.move Sample.catalog ⟨.aggregation, 1⟩ 2 =
        .error e := by
  have hvalid : ListEdit.linkedCounts.query.validate Sample.catalog =
      .ok () := rfl
  have hindex : 1 < ListEdit.linkedCounts.query.stage.count .aggregation := by
    decide
  have hreads : ListEdit.linkedCounts.query.stage.Reads ⟨.aggregation, 2⟩
    ⟨.aggregation, 1⟩ := ⟨_, rfl, _, List.mem_singleton.mpr rfl, rfl⟩
  obtain ⟨hremove, hmove⟩ :=
    @remove_and_move_fail_iff Sample.catalog ListEdit.linkedCounts
      ⟨.aggregation, 1⟩ hvalid hindex
  refine ⟨hvalid, hindex,
    (hremove .drop).1.mpr (.inl ⟨rfl, 2, by decide, hreads⟩), ?_⟩
  exact (hmove 2 (by decide)).1.mpr ⟨2, 1, hreads, by decide⟩

end Draft

end TableQuery
