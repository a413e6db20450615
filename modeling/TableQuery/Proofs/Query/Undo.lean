import TableQuery.Proofs.Query.Moves

/-!
# Undoing edits

Removing the clause that was inserted, or moving a clause back to where it
stood, gives the query back.  Only the sorts on columns are lost for good, when
the inserted clause was the first one that groups or aggregates.
-/

namespace TableQuery

theorem map_moveItem {α β : Type} (f : α → β) (start stop : Nat)
    (items : List α) :
    (moveItem start stop items).map f = moveItem start stop (items.map f) := by
  unfold moveItem
  rw [List.getElem?_map]
  cases items[start]? with
  | none => rfl
  | some item => simp [List.map_insertIdx, List.eraseIdx_map]

theorem moveItem_moveItem {α : Type} {items : List α} {start stop : Nat}
    (hstart : start < items.length) (hstop : stop < items.length) :
    moveItem stop start (moveItem start stop items) = items := by
  have hlength : (moveItem start stop items).length = items.length :=
    length_moveItem _ hstop
  apply List.ext_getElem?
  intro i
  rw [getElem?_moveItem (by omega) (by omega),
    getElem?_moveItem_indexAfterMove hstart hstop]

namespace Stage

variable {s : Stage} {index : Nat}

/-! ## Moving back -/

theorem withMoved_withMoved {kind : ClauseKind} {start stop : Nat}
    (hstart : start < s.count kind) (hstop : stop < s.count kind) :
    (s.withMoved ⟨kind, start⟩ stop).withMoved ⟨kind, stop⟩ start = s := by
  have hback : stop < (s.withMoved ⟨kind, start⟩ stop).count kind := by
    rwa [count_withMoved hstart hstop]
  cases kind with
  | customColumn =>
      rw [withMoved_customColumn hback, withMoved_customColumn hstart]
      simp [moveItem_moveItem hstart hstop]
  | filter =>
      rw [withMoved_filter hback, withMoved_filter hstart]
      simp [moveItem_moveItem hstart hstop]
  | aggregation =>
      have hinverse := indexAfterMove_indexAfterMove start stop
      have hsorts :=
        OrderBy.mapTarget_leftInverse
          (OrderTarget.mapAggregation_leftInverse hinverse)
      rw [withMoved_aggregation hback, withMoved_aggregation hstart]
      simp [map_moveItem, moveItem_moveItem hstart hstop, Function.comp_def,
        hsorts _, Aggregation.renumber_leftInverse hinverse _]
  | breakout =>
      have hsorts := OrderBy.mapTarget_leftInverse
        (OrderTarget.mapBreakout_leftInverse
          (indexAfterMove_indexAfterMove start stop))
      rw [withMoved_breakout hback, withMoved_breakout hstart]
      simp [moveItem_moveItem hstart hstop, Function.comp_def, hsorts _]
  | orderBy =>
      rw [withMoved_orderBy hback, withMoved_orderBy hstart]
      simp [moveItem_moveItem hstart hstop]

/-! ## Removing what was inserted -/

theorem target_mapTarget_ne_aggregation (o : OrderBy) :
    (o.mapTarget (OrderTarget.mapAggregation (indexAfterInsert index))).target ≠
      .aggregation index := by
  cases h : o.target <;>
    simp [OrderBy.mapTarget, OrderTarget.mapAggregation, h, indexAfterInsert_ne]

theorem target_mapTarget_ne_breakout (o : OrderBy) :
    (o.mapTarget (OrderTarget.mapBreakout (indexAfterInsert index))).target ≠
      .breakout index := by
  cases h : o.target <;>
    simp [OrderBy.mapTarget, OrderTarget.mapBreakout, h, indexAfterInsert_ne]

theorem withErased_withInserted_aggregation (policy : OrderByPolicy)
    (index : Nat) (a : Aggregation) :
    (s.withInserted index (.aggregation a)).withErased policy
      ⟨.aggregation, index⟩ = { s with orderBy := s.keptSorts } := by
  have hinverse := indexAfterErase_indexAfterInsert index
  have hsorts :=
    OrderBy.mapTarget_leftInverse
      (OrderTarget.mapAggregation_leftInverse hinverse)
  rw [withInserted_aggregation, withErased_aggregation,
    reconcileSorts_of_follows policy
      (g := OrderBy.mapTarget
        (OrderTarget.mapAggregation (indexAfterErase index)))]
  · simp [List.eraseIdx_insertIdx_self, Function.comp_def, hsorts _,
      Aggregation.renumber_leftInverse hinverse _]
  · intro o ho
    obtain ⟨old, -, rfl⟩ := List.mem_map.mp ho
    exact OrderBy.follow?_remove_aggregation
      (target_mapTarget_ne_aggregation old)

theorem withErased_withInserted_breakout (policy : OrderByPolicy) (index : Nat)
    (b : Breakout) :
    (s.withInserted index (.breakout b)).withErased policy ⟨.breakout, index⟩ =
      { s with orderBy := s.keptSorts } := by
  have hsorts := OrderBy.mapTarget_leftInverse
    (OrderTarget.mapBreakout_leftInverse
      (indexAfterErase_indexAfterInsert index))
  rw [withInserted_breakout, withErased_breakout,
    reconcileSorts_of_follows policy
    (g := OrderBy.mapTarget (OrderTarget.mapBreakout (indexAfterErase index)))]
  · simp [List.eraseIdx_insertIdx_self, Function.comp_def, hsorts _]
  · intro o ho
    obtain ⟨old, -, rfl⟩ := List.mem_map.mp ho
    exact OrderBy.follow?_remove_breakout (target_mapTarget_ne_breakout old)

theorem withErased_withInserted (policy : OrderByPolicy) {clause : Clause}
    (hindex : index ≤ s.count clause.kind) :
    (s.withInserted index clause).withErased policy ⟨clause.kind, index⟩ =
      if !s.isSummarized && (s.withInserted index clause).isSummarized then
        s.dropColumnSorts
      else s := by
  rw [isSummarized_withInserted hindex]
  cases clause with
  | aggregation a =>
      rw [Clause.kind, withErased_withInserted_aggregation, keptSorts]
      cases hs : s.isSummarized <;> simp [dropColumnSorts]
  | breakout b =>
      rw [Clause.kind, withErased_withInserted_breakout, keptSorts]
      cases hs : s.isSummarized <;> simp [dropColumnSorts]
  | _ =>
      cases hs : s.isSummarized <;>
        simp [Clause.kind, withInserted, renumber, Stage.insert,
          withErased, erase, List.eraseIdx_insertIdx_self]

/-! ## No clause reads the inserted one -/

variable {source : List Entry} {reader : ClausePosition}

theorem Consistent.not_reads_inserted_aggregation {a : Aggregation}
    (h : (s.withInserted index (.aggregation a)).Consistent source)
    (hsource : ∀ e ∈ source, e.IsSource)
    (hne : reader ≠ ⟨.aggregation, index⟩) :
    ¬ (s.withInserted index (.aggregation a)).Reads reader
      ⟨.aggregation, index⟩ := by
  intro hreads
  obtain ⟨hkind, -⟩ :=
    h.lt_of_reads_aggregation
      (fun e he => (hsource e he).aggregationIndex?) hreads
  obtain ⟨kind, i⟩ := reader
  subst hkind
  obtain ⟨clause, hclause, id, hid, hat⟩ := hreads
  cases hat
  obtain ⟨b, hb, rfl⟩ := Option.map_eq_some_iff.mp hclause
  rw [withInserted_aggregation] at hb
  rcases getElem?_insertIdx_eq_some hb with ⟨rfl, -⟩ | ⟨j, -, hj⟩
  · exact hne rfl
  · -- The references of an older aggregation are renumbered past the new one.
    rw [List.getElem?_map, Option.map_eq_some_iff] at hj
    obtain ⟨old, -, rfl⟩ := hj
    have hmem := Expression.mem_aggregationRefs.mpr hid
    rw [Aggregation.renumber, Expression.aggregationRefs_renumber] at hmem
    obtain ⟨k, -, hk⟩ := List.mem_map.mp hmem
    exact indexAfterInsert_ne index k hk

theorem exists_clause?_of_inserted_customColumn {c : CustomColumn}
    {clause : Clause} (hne : reader ≠ ⟨.customColumn, index⟩)
    (h : (s.withInserted index (.customColumn c)).clause? reader =
      some clause) :
    ∃ position, s.clause? position = some clause := by
  obtain ⟨kind, i⟩ := reader
  cases kind with
  | customColumn =>
      obtain ⟨c', hc', rfl⟩ := Option.map_eq_some_iff.mp h
      rcases getElem?_insertIdx_eq_some hc' with ⟨rfl, -⟩ | ⟨j, -, hj⟩
      · exact absurd rfl hne
      · exact ⟨⟨.customColumn, j⟩, congrArg (Option.map Clause.customColumn) hj⟩
  | filter => exact ⟨⟨.filter, i⟩, h⟩
  | aggregation => exact ⟨⟨.aggregation, i⟩, h⟩
  | breakout => exact ⟨⟨.breakout, i⟩, h⟩
  | orderBy => exact ⟨⟨.orderBy, i⟩, h⟩

theorem Consistent.not_reads_inserted_customColumn {c : CustomColumn}
    (h : s.Consistent source)
    (h' : (s.withInserted index (.customColumn c)).Consistent source)
    (hsource : ∀ e ∈ source, e.IsSource)
    (hindex : index ≤ s.customColumns.length)
    (hne : reader ≠ ⟨.customColumn, index⟩) :
    ¬ (s.withInserted index (.customColumn c)).Reads reader
      ⟨.customColumn, index⟩ := by
  rintro ⟨clause, hclause, id, hid, hat⟩
  have hnew : c.name ∉ s.customColumns.map CustomColumn.name := by
    have hperm :=
      (List.perm_insertIdx c s.customColumns hindex).map CustomColumn.name
    exact (List.nodup_cons.mp (hperm.nodup_iff.mp h'.names_nodup)).1
  have hname : id = .customColumn c.name := by
    have hself : (s.customColumns.insertIdx index c)[index]? = some c := by
      rw [List.getElem?_insertIdx_self, if_pos hindex]
    have hat : (s.customColumns.insertIdx index c)[index]?.map
        (fun c => Identifier.customColumn c.name) = some id := hat
    rw [hself] at hat
    exact (Option.some.inj hat).symm
  obtain ⟨position, hposition⟩ :=
    exists_clause?_of_inserted_customColumn hne hclause
  exact hnew (mem_names_of_lookup hsource
    (hname ▸ h.isSome_lookup hposition hid))

theorem Consistent.not_reads_inserted {clause : Clause}
    (h : s.Consistent source)
    (h' : (s.withInserted index clause).Consistent source)
    (hsource : ∀ e ∈ source, e.IsSource) (hindex : index ≤ s.count clause.kind)
    (hne : reader ≠ ⟨clause.kind, index⟩) :
    ¬ (s.withInserted index clause).Reads reader ⟨clause.kind, index⟩ := by
  cases clause with
  | customColumn c =>
      exact h.not_reads_inserted_customColumn h' hsource hindex hne
  | aggregation a => exact h'.not_reads_inserted_aggregation hsource hne
  | _ =>
      rintro ⟨_, _, _, _, hat⟩
      cases hat

end Stage

/-! ## Drafts -/

namespace Draft

variable {c : Catalog} {d d' : Draft} {position : ClausePosition}

theorem exists_remove_of_insert {clause : Clause} (policy : OrderByPolicy)
    (h : d.insert c position clause = .ok d') :
    ∃ d'', d'.remove c policy position = .ok d'' := by
  obtain ⟨hkind, hindex, hvalid, hcommit⟩ := insert_eq_ok_iff.mp h
  obtain ⟨hvalid', hd'⟩ := commit_eq_ok_iff.mp hcommit
  obtain ⟨kind, index⟩ := position
  subst hkind
  have hquery : d'.query =
      d.query.withStage (d.query.stage.withInserted index clause) := by
    rw [hd']
  have hstage : d'.query.stage = d.query.stage.withInserted index clause := by
    rw [hquery, Query.stage_withStage]
  rw [← hquery] at hvalid'
  have hlt : index < d'.query.stage.count clause.kind := by
    rw [hstage]
    exact Stage.index_lt_count (Stage.clause?_withInserted_kind hindex)
  cases hremove : d'.remove c policy ⟨clause.kind, index⟩ with
  | ok d'' => exact ⟨d'', rfl⟩
  | error e =>
      obtain ⟨reader, hne, hreads⟩ :=
        (remove_eq_error_iff hvalid' hlt).mp ⟨e, hremove⟩
      obtain ⟨source, hsource, hconsistent'⟩ :=
        @Query.Valid.exists_consistent _ _ hvalid' ⟨clause.kind, index⟩ hlt
      rw [hquery, Query.sourceColumns_withStage] at hsource
      rw [hstage] at hreads hconsistent'
      have hconsistent := Stage.valid_ok_iff.mp (hsource ▸ hvalid.stage)
      have hentries : ∀ e ∈ source, e.IsSource :=
        fun e he => Query.isSource_of_mem_sourceColumns hsource he
      exact absurd hreads
        (hconsistent.not_reads_inserted hconsistent' hentries hindex hne)

/-- Edits can be undone.  A clause that was inserted can be removed again, which
gives the query back but for the sorts on columns, if the clause was the first
one to group or aggregate.  A clause that was moved can be moved back, which
gives the query back. -/
theorem undo_insert_and_move (c : Catalog) (policy : OrderByPolicy)
    (d : Draft) :
    (∀ position clause d', d.insert c position clause = .ok d' →
      ∃ d'', d'.remove c policy position = .ok d'' ∧
        d''.query =
          if !d.query.stage.isSummarized && d'.query.stage.isSummarized then
            d.query.withStage d.query.stage.dropColumnSorts
          else d.query) ∧
    (∀ position stop d', d.move c position stop = .ok d' →
      ∃ d'', d'.move c ⟨position.kind, stop⟩ position.index = .ok d'' ∧
        d''.query = d.query) := by
  constructor
  · intro position clause d' h
    obtain ⟨d'', hremove⟩ := exists_remove_of_insert policy h
    obtain ⟨hkind, hindex, -, hcommit⟩ := insert_eq_ok_iff.mp h
    obtain ⟨-, rfl⟩ := commit_eq_ok_iff.mp hcommit
    obtain ⟨-, -, -, hcommit'⟩ := remove_eq_ok_iff.mp hremove
    obtain ⟨-, hd''⟩ := commit_eq_ok_iff.mp hcommit'
    refine ⟨d'', hremove, ?_⟩
    obtain ⟨kind, index⟩ := position
    subst hkind hd''
    simp only [Query.stage_withStage, Query.withStage_withStage,
      Stage.withErased_withInserted policy hindex]
    split
    · rfl
    · exact Query.withStage_stage _
  · intro position stop d' h
    obtain ⟨hstart, hstop, hvalid, hcommit⟩ := move_eq_ok_iff.mp h
    obtain ⟨hvalid', rfl⟩ := commit_eq_ok_iff.mp hcommit
    have hcount := Stage.count_withMoved hstart hstop
    refine ⟨⟨d.query, d.revision + 2⟩, ?_, rfl⟩
    apply move_eq_ok_iff.mpr
    rw [Query.stage_withStage]
    refine ⟨hcount ▸ hstop, hcount ▸ hstart, hvalid', commit_eq_ok_iff.mpr ?_⟩
    rw [Query.withStage_withStage, Stage.withMoved_withMoved hstart hstop,
      Query.withStage_stage]
    exact ⟨hvalid, rfl⟩

def sortedTotals : Draft where
  query := .ofTable Sample.orders {
    filters :=
      [.binary .gt (.column (.field Sample.Order.total)) (.number (.ofNat 10))]
    orderBy := [⟨.desc, .column (.field Sample.Order.total)⟩] }
  revision := 0

theorem undo_insert_and_move_sortedTotals :
    (∃ d' d'', sortedTotals.insert Sample.catalog ⟨.aggregation, 0⟩
        (.aggregation ⟨.call .count [], none, []⟩) = .ok d' ∧
      d'.remove Sample.catalog .drop ⟨.aggregation, 0⟩ = .ok d'' ∧
      d''.query = sortedTotals.query.withStage
        sortedTotals.query.stage.dropColumnSorts) ∧
    ∃ d' d'',
      ListEdit.linkedCounts.move Sample.catalog ⟨.aggregation, 0⟩ 1 = .ok d' ∧
      d'.move Sample.catalog ⟨.aggregation, 1⟩ 0 = .ok d'' ∧
      d''.query = ListEdit.linkedCounts.query := by
  constructor
  · obtain ⟨d', hinsert⟩ : ∃ d',
      sortedTotals.insert Sample.catalog ⟨.aggregation, 0⟩
        (.aggregation ⟨.call .count [], none, []⟩) = .ok d' := ⟨_, rfl⟩
    obtain ⟨d'', hremove, hquery⟩ :=
      (undo_insert_and_move Sample.catalog .drop sortedTotals).1 _ _ d' hinsert
    have hs : d'.query.stage.isSummarized = true := by
      cases hinsert
      rfl
    exact ⟨d', d'', hinsert, hremove, by rw [hquery, hs]; rfl⟩
  · obtain ⟨d', hmove⟩ : ∃ d',
      ListEdit.linkedCounts.move Sample.catalog ⟨.aggregation, 0⟩ 1 =
        .ok d' := ⟨_, rfl⟩
    obtain ⟨d'', hback, hquery⟩ :=
      (undo_insert_and_move Sample.catalog .drop ListEdit.linkedCounts).2 _ _
        d' hmove
    exact ⟨d', d'', hmove, hback, hquery⟩

end Draft

end TableQuery
