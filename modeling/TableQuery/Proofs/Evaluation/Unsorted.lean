import TableQuery.Proofs.Evaluation.Groups

/-!
# Results before they are sorted

Sorting and the limit come last in a stage.  Without them a stage that groups or
aggregates gives one row for each group, in the order of the groups, and any
other one gives a row for each row that passes its filters.
-/

namespace TableQuery

/-! ## Stages without sorts -/

def Stage.unsorted (s : Stage) : Stage :=
  { s with orderBy := [], limit := none }

def Query.unsorted (q : Query) : Query := q.withStage q.stage.unsorted

@[simp] theorem Query.stage_unsorted (q : Query) :
    q.unsorted.stage = q.stage.unsorted :=
  q.stage_withStage _

theorem Query.outputColumns_unsorted (c : Catalog) (q : Query) :
    q.unsorted.outputColumns c = q.outputColumns c := by
  simp only [outputColumns, unsorted, sourceColumns_withStage, stage_withStage]
  rfl

namespace Database

variable {db : Database} {q : Query} {r : ResultSet}

theorem prepare_unsorted (s : Stage) (rows : List Row) :
    db.prepare s.unsorted rows = db.prepare s rows := by
  apply prepare_congr <;> rfl

/-! ## Rows that pass -/

def holdsOf (db : Database) (row : Row) (predicate : Expression) : Bool :=
  (db.evalRow row predicate).toOption = some (.boolean true)

def Passing (db : Database) (q : Query) (passing : List Row) : Prop :=
  ∃ source extended, db.sourceRows q = .ok source ∧
    source.mapM (db.pushColumns q.stage.customColumns) = .ok extended ∧
    passing = extended.filter fun row => q.stage.filters.all (db.holdsOf row)

theorem accepts_eq_ok {predicate : Expression} {row : Row} {accepted : Bool}
    (h : db.accepts predicate row = .ok accepted) :
    db.holdsOf row predicate = accepted := by
  obtain ⟨cell, hcell, hsame⟩ := bind_eq_ok_iff.mp h
  rw [pure_eq_ok_iff] at hsame
  rw [holdsOf, hcell, ← hsame]
  rcases cell with _ | (_ | _) | _ | _ | _ <;> rfl

/-- A filter that is not true of a row decides, whatever becomes of those after
it. -/
theorem passes_eq_ok {filters : List Expression} {row : Row} {passed : Bool}
    (h : db.passes filters row = .ok passed) :
    filters.all (db.holdsOf row) = passed := by
  induction filters with
  | nil =>
      cases h
      rfl
  | cons f filters ih =>
      obtain ⟨accepted, haccepted, hrest⟩ := bind_eq_ok_iff.mp h
      rw [List.all_cons, accepts_eq_ok haccepted]
      cases accepted with
      | true => exact ih hrest
      | false =>
          cases hrest
          rfl

theorem exists_extended_of_prepare {s : Stage} {rows prepared : List Row}
    (h : db.prepare s rows = .ok prepared) :
    ∃ extended, rows.mapM (db.pushColumns s.customColumns) = .ok extended ∧
      prepared = extended.filter fun row => s.filters.all (db.holdsOf row) := by
  induction rows generalizing prepared with
  | nil =>
      cases h
      exact ⟨[], rfl, rfl⟩
  | cons row rows ih =>
      obtain ⟨row', hrow, h⟩ := bind_eq_ok_iff.mp h
      obtain ⟨kept, hkept, h⟩ := bind_eq_ok_iff.mp h
      obtain ⟨rest, hrest, h⟩ := bind_eq_ok_iff.mp h
      obtain ⟨extended, hextended, rfl⟩ := ih hrest
      rw [pure_eq_ok_iff] at h
      refine ⟨row' :: extended, ?_, ?_⟩
      · rw [List.mapM_cons, hrow, hextended]
        rfl
      · rw [List.filter_cons, passes_eq_ok hkept, ← h]

theorem passing_of_prepare {source prepared : List Row}
    (hsource : db.sourceRows q = .ok source)
    (hprepared : db.prepare q.stage source = .ok prepared) :
    db.Passing q prepared := by
  obtain ⟨extended, hextended, hfilter⟩ := exists_extended_of_prepare hprepared
  exact ⟨source, extended, hsource, hextended, hfilter⟩

/-! ## Grouped results -/

/-- The steps of a run that groups or aggregates, up to its sorts: the rows that
pass, their groups, the row of each group, and these rows with their cumulative
columns added up. -/
structure Summary (db : Database) (q : Query) (passing : List Row)
    (found : List Group) (computed totalled : List (List Cell)) : Prop where
  prepare_eq : ∃ source, db.sourceRows q = .ok source ∧
    db.prepare q.stage source = .ok passing
  groups_eq : db.groups q.stage.breakouts passing = .ok found
  groupRows : List.Forall₂ (GroupRow db q.stage.aggregations) found computed
  accumulate_eq : accumulateAll q.stage.breakouts.length q.stage.aggregations
    computed = .ok totalled

theorem sortGroups_nil (breakouts : List Breakout) (rows : List (List Cell)) :
    sortGroups breakouts [] rows = .ok rows :=
  sortGroups_eq_ok_iff.mpr ⟨[], rfl, sortByKey_nil _ _, by simp [leavesRow]⟩

theorem sortGroups_eq (breakouts : List Breakout) (orders : List OrderBy)
    (rows : List (List Cell)) :
    (if orders.isEmpty then pure rows else sortGroups breakouts orders rows) =
      sortGroups breakouts orders rows := by
  cases orders with
  | nil => exact (sortGroups_nil breakouts rows).symm
  | cons o orders => rfl

def limited (limit : Option Nat) (rows : List (List Cell)) : List (List Cell) :=
  (limit.map rows.take).getD rows

theorem Summary.run_unsorted {passing : List Row} {found : List Group}
    {computed totalled : List (List Cell)}
    (h : Summary db q passing found computed totalled)
    (hs : q.stage.isSummarized) {entries : List Entry}
    (hentries : q.outputColumns db.catalog = .ok entries) :
    db.run q.unsorted = .ok (.ofEntries entries totalled) := by
  obtain ⟨source, hsource, hprepared⟩ := h.prepare_eq
  refine run_eq_ok_iff.mpr ⟨source,
    by rwa [Query.unsorted, sourceRows_withStage], ?_⟩
  rw [Query.stage_unsorted, Query.outputColumns_unsorted]
  have hsummary : db.summarize (q.outputColumns db.catalog) q.stage.unsorted
      passing = .ok (.ofEntries entries totalled) :=
    summarize_eq_ok_iff.mpr ⟨found, h.groups_eq, computed, h.groupRows,
      totalled, h.accumulate_eq, totalled, rfl, entries, hentries, rfl⟩
  exact (runStage_eq_ok_iff (s := q.stage.unsorted) hs).mpr
    ⟨passing, (prepare_unsorted _ _).trans hprepared, _, hsummary, rfl⟩

theorem exists_summary_of_run (hs : q.stage.isSummarized)
    (hr : db.run q = .ok r) :
    ∃ passing found computed totalled sorted,
      Summary db q passing found computed totalled ∧
      db.run q.unsorted = .ok ⟨r.columns, totalled⟩ ∧
      sortGroups q.stage.breakouts q.stage.orderBy totalled = .ok sorted ∧
      r.rows = limited q.stage.limit sorted := by
  obtain ⟨source, hsource, hstage⟩ := run_eq_ok_iff.mp hr
  obtain ⟨passing, hprepared, result, hresult, rfl⟩ :=
    (runStage_eq_ok_iff hs).mp hstage
  obtain ⟨found, hfound, computed, hcomputed, totalled, htotalled, sorted,
    hsorted, entries, hentries, rfl⟩ := summarize_eq_ok_iff.mp hresult
  have hsummary : Summary db q passing found computed totalled :=
    ⟨⟨source, hsource, hprepared⟩, hfound, hcomputed, htotalled⟩
  rw [sortGroups_eq] at hsorted
  exact ⟨passing, found, computed, totalled, sorted, hsummary,
    hsummary.run_unsorted hs hentries, hsorted, rfl⟩

theorem Summary.passing {passing : List Row} {found : List Group}
    {computed totalled : List (List Cell)}
    (h : Summary db q passing found computed totalled) :
    db.Passing q passing := by
  obtain ⟨source, hsource, hprepared⟩ := h.prepare_eq
  exact passing_of_prepare hsource hprepared

theorem Summary.length_of_mem {passing : List Row} {found : List Group}
    {computed totalled : List (List Cell)}
    (h : Summary db q passing found computed totalled) :
    ∀ row ∈ totalled,
      row.length = q.stage.breakouts.length + q.stage.aggregations.length :=
  length_of_mem_accumulateAll h.accumulate_eq
    (length_groupRow (fun _ hg => length_key h.groups_eq hg) h.groupRows)

/-! ### Columns -/

theorem GroupRow.key_eq {aggs : List Aggregation} {g : Group} {row : List Cell}
    {width : Nat} (h : GroupRow db aggs g row) (hkey : g.key.length = width) :
    row.take width = g.key := by
  obtain ⟨values, -, rfl⟩ := h
  rw [← hkey, List.take_left]

theorem GroupRow.exists_cell {aggs : List Aggregation} {g : Group}
    {row : List Cell} {width i : Nat} {a : Aggregation}
    (h : GroupRow db aggs g row) (hkey : g.key.length = width)
    (ha : aggs[i]? = some a) :
    ∃ cell, row[width + i]? = some cell ∧
      db.evalGroup g.rows ((row.drop width).take i) a.expression =
        .ok cell := by
  obtain ⟨values, hvalues, rfl⟩ := h
  obtain ⟨cells, hcells, -, hvalue⟩ := aggregations_eq_ok_iff.mp hvalues
  rw [List.nil_append] at hcells
  subst hcells
  obtain ⟨cell, hcell, heval⟩ := hvalue i a ha
  refine ⟨cell, ?_, ?_⟩
  · rw [List.getElem?_append_right (by omega), hkey,
      Nat.add_sub_cancel_left, hcell]
  · rwa [← hkey, List.drop_left]

theorem column_accumulateAll {first c : Nat} {aggs : List Aggregation}
    {rows out : List (List Cell)} (h : accumulateAll first aggs rows = .ok out)
    (hc : cumulativeAt first aggs c = false) :
    column c out = column c rows := by
  have hcolumn := (accumulateAll_eq_ok_iff.mp h).2 c
  rwa [hc, Accumulates, if_neg Bool.false_ne_true] at hcolumn

theorem cumulativeAt_add {first i : Nat} {aggs : List Aggregation}
    {a : Aggregation} (ha : aggs[i]? = some a) :
    cumulativeAt first aggs (first + i) = isCumulative a.expression := by
  simp [cumulativeAt, ha]

theorem map_take_eq_of_columns {width : Nat} {rows out : List (List Cell)}
    (hlength : out.length = rows.length)
    (h : ∀ c < width, column c out = column c rows) :
    out.map (·.take width) = rows.map (·.take width) := by
  apply eq_of_column_eq
  · rw [List.length_map, List.length_map, hlength]
  · intro c
    have hcolumn : ∀ table : List (List Cell),
        column c (table.map (·.take width)) =
          if c < width then column c table else table.map fun _ => none := by
      intro table
      rw [column, List.map_map]
      split
      case isTrue hc =>
          exact List.map_congr_left fun row _ => List.getElem?_take_of_lt hc
      case isFalse hc =>
          exact List.map_congr_left fun row _ =>
            List.getElem?_take_eq_none (Nat.le_of_not_lt hc)
    rw [hcolumn, hcolumn]
    split
    case isTrue hc => exact h c hc
    case isFalse => rw [List.map_const', List.map_const', hlength]

namespace Summary

variable {passing : List Row} {found : List Group}
  {computed totalled : List (List Cell)}

theorem map_take (h : Summary db q passing found computed totalled) :
    totalled.map (·.take q.stage.breakouts.length) = found.map Group.key := by
  have hcomputed : computed.map (·.take q.stage.breakouts.length) =
      found.map Group.key := by
    rw [eq_comm, ← List.forall₂_eq_eq_eq, List.forall₂_map_left_iff,
      List.forall₂_map_right_iff]
    exact forall₂_imp_of_mem h.groupRows fun _ hg _ _ hrow =>
      (hrow.key_eq (length_key h.groups_eq hg)).symm
  rw [← hcomputed]
  apply map_take_eq_of_columns (accumulateAll_eq_ok_iff.mp h.accumulate_eq).1
  exact fun c hc =>
    column_accumulateAll h.accumulate_eq (cumulativeAt_of_lt hc _)

theorem forall₂_cells (h : Summary db q passing found computed totalled)
    {i : Nat} {a : Aggregation} (ha : q.stage.aggregations[i]? = some a) :
    List.Forall₂ (fun g row => ∃ cell,
        row[q.stage.breakouts.length + i]? = some cell ∧
        db.evalGroup g.rows ((row.drop q.stage.breakouts.length).take i)
            a.expression = .ok cell)
      found computed :=
  forall₂_imp_of_mem h.groupRows fun _ hg _ _ hrow =>
    hrow.exists_cell (length_key h.groups_eq hg) ha

end Summary

end Database

end TableQuery
