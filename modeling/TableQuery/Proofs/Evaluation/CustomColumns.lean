import TableQuery.Proofs.Compilation.Columns
import TableQuery.Proofs.Evaluation.ChangedRows
import TableQuery.Proofs.Query.Moves
import TableQuery.Proofs.Query.Reads

/-!
# What a new custom column changes

A custom column behind the others is computed from a row that is otherwise
complete, and adds its own cell to it.  A row holds that cell by the name of the
column, where it hides the cell of a column of an earlier stage with the same
name.  Where no later clause reads that one and the stage does not pass it on,
the result is the old one with one more column at most.
-/

namespace TableQuery

/-! ## Results without a column -/

namespace ResultSet

def eraseColumn (r : ResultSet) (i : Nat) : ResultSet :=
  ⟨r.columns.eraseIdx i, r.rows.map (·.eraseIdx i)⟩

def eraseColumn? (r : ResultSet) (i : Option Nat) : ResultSet :=
  i.elim r r.eraseColumn

end ResultSet

theorem eraseIdx_length_append {α : Type} (as : List α) (a : α) :
    (as ++ [a]).eraseIdx as.length = as := by
  rw [List.eraseIdx_append_of_length_le (Nat.le_refl _)]
  simp

/-! ## Contexts -/

namespace Stage

def appendColumn (s : Stage) (c : CustomColumn) : Stage :=
  { s with customColumns := s.customColumns ++ [c] }

def columnEntry (source : List Entry) (s : Stage) (c : CustomColumn) : Entry :=
  ⟨c.name, [], .customColumn c.name, c.expression.kindIn (s.context source)⟩

variable {source : List Entry} {s : Stage} {c : CustomColumn}

theorem withInserted_customColumn (s : Stage) (c : CustomColumn) :
    s.withInserted s.customColumns.length (.customColumn c) =
      s.appendColumn c := by
  simp [withInserted, Clause.kind, renumber, Stage.insert, appendColumn]

theorem context_appendColumn :
    (s.appendColumn c).context source =
      (s.context source).push (s.columnEntry source c) :=
  pushColumns_append ..

theorem lookup_context_appendColumn {id : Identifier}
    (h : id.rowName? ≠ some c.name) :
    ((s.appendColumn c).context source).lookup id =
      (s.context source).lookup id := by
  have hentry : Context.isEntryOf id (s.columnEntry source c) = false := by
    rw [Bool.eq_false_iff, ne_eq, Context.isEntryOf_iff (by simp [columnEntry])]
    rintro rfl
    exact h rfl
  rw [context_appendColumn, Context.lookup_push, hentry]
  simp

/-! ## Columns -/

theorem aggregationColumns_congr {ctx ctx' : Context} {aggs : List Aggregation}
    (h : ∀ a ∈ aggs, ∀ id ∈ a.expression.identifiers, ctx.lookup id =
      ctx'.lookup id)
    (index : Nat) : aggregationColumns ctx index aggs =
      aggregationColumns ctx' index aggs := by
  induction aggs generalizing index with
  | nil => rfl
  | cons a aggs ih =>
      obtain ⟨ha, hrest⟩ := List.forall_mem_cons.mp h
      rw [aggregationColumns, aggregationColumns, ih hrest,
        Expression.kindIn_congr ha, Aggregation.nameIn, Aggregation.nameIn,
        Expression.labelIn_congr ha]

theorem Spares.outputColumns_appendColumn (h : s.Spares c.name)
    (hs : s.isSummarized) :
    (s.appendColumn c).outputColumns source = s.outputColumns source := by
  have hbreakouts : s.breakouts.filterMap
      (breakoutColumn? ((s.appendColumn c).context source)) =
        s.breakouts.filterMap (breakoutColumn? (s.context source)) :=
    List.filterMap_congr fun b hb => by
      rw [breakoutColumn?, breakoutColumn?,
        lookup_context_appendColumn (h.breakout b hb)]
  have haggregations : ∀ a ∈ s.aggregations, ∀ id ∈ a.expression.identifiers,
      ((s.appendColumn c).context source).lookup id =
        (s.context source).lookup id :=
    fun a ha id hid => lookup_context_appendColumn (h.aggregation a ha id hid)
  have hs' : (s.appendColumn c).isSummarized := hs
  rw [outputColumns, outputColumns, if_pos hs, if_pos hs']
  exact congrArg₂ (· ++ ·) hbreakouts (aggregationColumns_congr haggregations 0)

theorem outputColumns_appendColumn (hs : s.isSummarized = false) :
    (s.appendColumn c).outputColumns source =
      s.outputColumns source ++ [s.columnEntry source c] := by
  have hplain : ¬s.isSummarized = true := by simp [hs]
  have hplain' : ¬(s.appendColumn c).isSummarized = true := hplain
  rw [outputColumns, outputColumns, if_neg hplain, if_neg hplain',
    context_appendColumn, Context.push, List.filter_append]
  rfl

theorem lookup_of_mem_outputColumns {e : Entry}
    (he : e ∈ s.outputColumns source) :
    ((s.context source).lookup e.identifier).isSome ∨ ∃ i, e.identifier =
      .aggregation i := by
  rw [outputColumns] at he
  split at he
  case isTrue =>
      rcases List.mem_append.mp he with hbreakout | haggregation
      · obtain ⟨b, -, hb⟩ := List.mem_filterMap.mp hbreakout
        obtain ⟨seen, hseen, hb⟩ := Option.map_eq_some_iff.mp hb
        have hid : e.identifier = b.column := by
          rw [← hb]
          split <;> rfl
        exact .inl (by rw [hid, hseen]; rfl)
      · obtain ⟨i, hi⟩ := List.mem_iff_getElem?.mp haggregation
        rw [getElem?_aggregationColumns] at hi
        obtain ⟨a, -, rfl⟩ := Option.map_eq_some_iff.mp hi
        exact .inr ⟨_, rfl⟩
  case isFalse =>
      exact .inl (Context.isSome_lookup_of_mem (List.mem_of_mem_filter he))

/-! ## Columns of an earlier stage -/

/-- Whether a stage uses a column of the stage before it with a name, other than
in its custom columns: one of its clauses reads it, or the stage passes it
on. -/
def UsesEarlier (source : List Entry) (name : String) (s : Stage) : Prop :=
  ∃ kind, (∃ e ∈ s.outputColumns source, e.identifier =
    .stageColumn name kind) ∨
    ∃ position clause, s.clause? position = some clause ∧
      position.kind ≠ .customColumn ∧
      .stageColumn name kind ∈ clause.identifiers

section Unused

variable {name : String} (h : s.Consistent source)
  (hsource : ∀ e ∈ source, e.IsSource)
  (hnew : name ∉ s.customColumns.map CustomColumn.name)
  (hearlier : ¬s.UsesEarlier source name)
include h hsource hnew hearlier

theorem Consistent.rowName?_ne {position : ClausePosition} {clause : Clause}
    (hclause : s.clause? position = some clause)
    (hkind : position.kind ≠ .customColumn) {id : Identifier}
    (hid : id ∈ clause.identifiers) : id.rowName? ≠ some name := by
  intro hname
  cases id with
  | customColumn name' =>
      cases hname
      exact hnew (mem_names_of_lookup hsource (h.isSome_lookup hclause hid))
  | stageColumn name' kind =>
      cases hname
      exact hearlier ⟨kind, .inr ⟨position, clause, hclause, hkind, hid⟩⟩
  | _ => cases hname

theorem Consistent.spares : s.Spares name where
  filter := fun predicate hmem id hid => by
    obtain ⟨i, hi⟩ := List.mem_iff_getElem?.mp hmem
    have hclause : s.clause? ⟨.filter, i⟩ = some (.filter predicate) :=
      congrArg (Option.map _) hi
    exact h.rowName?_ne hsource hnew hearlier hclause (by simp) hid
  aggregation := fun a ha id hid => by
    obtain ⟨i, hi⟩ := List.mem_iff_getElem?.mp ha
    have hclause : s.clause? ⟨.aggregation, i⟩ = some (.aggregation a) :=
      congrArg (Option.map _) hi
    exact h.rowName?_ne hsource hnew hearlier hclause (by simp) hid
  breakout := fun b hb => by
    obtain ⟨i, hi⟩ := List.mem_iff_getElem?.mp hb
    have hclause : s.clause? ⟨.breakout, i⟩ = some (.breakout b) :=
      congrArg (Option.map _) hi
    exact h.rowName?_ne hsource hnew hearlier hclause
      (by simp) List.mem_cons_self
  sort := fun o ho id htarget => by
    obtain ⟨i, hi⟩ := List.mem_iff_getElem?.mp ho
    have hclause : s.clause? ⟨.orderBy, i⟩ = some (.orderBy o) :=
      congrArg (Option.map _) hi
    have hid : id ∈ (Clause.orderBy o).identifiers := by
      simp [Clause.identifiers, htarget]
    exact h.rowName?_ne hsource hnew hearlier hclause (by simp) hid

omit h in
theorem rowName?_ne_of_mem_outputColumns {e : Entry}
    (he : e ∈ s.outputColumns source) : e.identifier.rowName? ≠ some name := by
  intro hname
  cases hid : e.identifier with
  | customColumn name' =>
      rw [hid] at hname
      cases hname
      rcases lookup_of_mem_outputColumns he with hlookup | ⟨i, hi⟩
      · rw [hid] at hlookup
        have hvisible :
            ((s.contextAt source ⟨.filter, 0⟩).lookup
              (.customColumn name)).isSome :=
          hlookup
        exact hnew (mem_names_of_lookup hsource hvisible)
      · cases hid.symm.trans hi
  | stageColumn name' kind =>
      rw [hid] at hname
      cases hname
      exact hearlier ⟨kind, .inl ⟨e, he, hid⟩⟩
  | _ => simp [hid, Identifier.rowName?] at hname

omit h in
theorem findIdx?_outputColumns :
    (s.outputColumns source).findIdx? (·.identifier == .customColumn name) =
      none := by
  refine List.findIdx?_eq_none_iff.mpr fun e he => beq_false_of_ne fun hid => ?_
  exact rowName?_ne_of_mem_outputColumns hsource hnew hearlier he
    (by rw [hid]; rfl)

end Unused

theorem Consistent.not_usesEarlier (h : s.Consistent source) {catalog : Catalog}
    {table : TableId} (hsource : catalog.tableEntries table = .ok source)
    (name : String) : ¬s.UsesEarlier source name := by
  have htable : ∀ e ∈ source, ∀ name kind,
      e.identifier ≠ .stageColumn name kind := by
    intro e he name kind
    obtain ⟨-, ⟨f, hid⟩ | ⟨key, f, hid⟩⟩ :=
      Catalog.identifier_of_mem_tableEntries hsource he
    · simp [hid]
    · simp [hid]
  have hlookup : ∀ kind position,
      ((s.contextAt source position).lookup (.stageColumn name kind)).isSome →
      False := by
    intro kind position hsome
    rw [isSome_lookup_contextAt] at hsome
    rcases hsome with hold | ⟨c, -, hid⟩ | ⟨i, -, hid⟩
    · obtain ⟨e, he, hentry⟩ := List.find?_isSome.mp hold
      rw [Context.isEntryOf_iff (htable e he)] at hentry
      exact htable e he name kind hentry.symm
    · cases hid
    · cases hid
  rintro ⟨kind, ⟨e, he, hid⟩ | ⟨position, clause, hclause, -, hid⟩⟩
  · rcases lookup_of_mem_outputColumns he with hsome | ⟨i, hi⟩
    · rw [hid] at hsome
      exact hlookup kind ⟨.filter, 0⟩ hsome
    · cases hid.symm.trans hi
  · exact hlookup kind position (h.isSome_lookup hclause hid)

end Stage

/-! ## Adding a column -/

namespace Draft

theorem add_customColumn_eq_ok {catalog : Catalog} {d d' : Draft}
    {c : CustomColumn} (h : d.add catalog (.customColumn c) = .ok d') :
    ∃ source, d.query.sourceColumns catalog = .ok source ∧
      d.query.stage.Consistent source ∧
      c.name ∉ d.query.stage.customColumns.map CustomColumn.name ∧
      d'.query = d.query.withStage (d.query.stage.appendColumn c) := by
  obtain ⟨-, -, hvalid, hcommit⟩ := insert_eq_ok_iff.mp h
  rw [Clause.kind, Stage.count, Stage.withInserted_customColumn] at hcommit
  obtain ⟨hvalid', rfl⟩ := commit_eq_ok_iff.mp hcommit
  let position : ClausePosition :=
    ⟨.customColumn, d.query.stage.customColumns.length⟩
  have hposition : position.index < (d.query.withStage
      (d.query.stage.appendColumn c)).stage.count position.kind := by
    simp [position, Stage.count, Stage.appendColumn]
  obtain ⟨source, hsource, hconsistent⟩ := hvalid'.exists_consistent hposition
  rw [Query.sourceColumns_withStage] at hsource
  rw [Query.stage_withStage] at hconsistent
  refine ⟨source, hsource, Stage.valid_ok_iff.mp (hsource ▸ hvalid.stage),
    ?_, rfl⟩
  have hnodup := hconsistent.names_nodup
  rw [Stage.appendColumn, List.map_append, List.nodup_append] at hnodup
  exact fun hmem => hnodup.2.2 _ hmem _ List.mem_cons_self rfl

end Draft

def Query.customColumnIndex? (catalog : Catalog) (q : Query) (name : String) :
    Option Nat :=
  (q.outputColumns catalog).toOption.bind fun entries =>
    entries.findIdx? (·.identifier == .customColumn name)

namespace Database

variable {db : Database} {c : CustomColumn} {s : Stage} {rows : List Row}
  {r' : ResultSet}

/-! ## One more cell in each row -/

def withColumn (db : Database) (c : CustomColumn) (row : Row) : Row :=
  row.insert c.name ((db.evalRow row c.expression).toOption.getD .null)

theorem changesOnly_withColumn (db : Database) (c : CustomColumn) :
    db.ChangesOnly c.name (db.withColumn c) :=
  fun row _ hid => value_insert row _ hid

theorem pushColumns_append_eq_ok {columns : List CustomColumn} {row row' : Row}
    (h : db.pushColumns (columns ++ [c]) row = .ok row') :
    ∃ row₀, db.pushColumns columns row = .ok row₀ ∧
      row' = db.withColumn c row₀ := by
  induction columns generalizing row with
  | nil =>
      obtain ⟨cell, hcell, hrow⟩ := bind_eq_ok_iff.mp h
      cases hrow
      exact ⟨row, rfl, by rw [withColumn, hcell]; rfl⟩
  | cons first columns ih =>
      obtain ⟨cell, hcell, hrest⟩ := bind_eq_ok_iff.mp h
      obtain ⟨row₀, hrow₀, rfl⟩ := ih hrest
      exact ⟨row₀, bind_eq_ok_iff.mpr ⟨cell, hcell, hrow₀⟩, rfl⟩

theorem prepare_appendColumn_eq_ok (hs : s.Spares c.name) {prepared : List Row}
    (h : db.prepare (s.appendColumn c) rows = .ok prepared) :
    ∃ prepared₀, db.prepare s rows = .ok prepared₀ ∧
      prepared = prepared₀.map (db.withColumn c) := by
  induction rows generalizing prepared with
  | nil =>
      cases h
      exact ⟨[], rfl, rfl⟩
  | cons row rows ih =>
      obtain ⟨row', hrow, h⟩ := bind_eq_ok_iff.mp h
      obtain ⟨kept, hkept, h⟩ := bind_eq_ok_iff.mp h
      obtain ⟨rest, hrest, h⟩ := bind_eq_ok_iff.mp h
      obtain ⟨row₀, hrow₀, rfl⟩ := pushColumns_append_eq_ok hrow
      obtain ⟨rest₀, hrest₀, rfl⟩ := ih hrest
      have hkept₀ : db.passes s.filters row₀ = .ok kept :=
        (passes_change (changesOnly_withColumn db c) hs.filter
          row₀).symm.trans hkept
      rw [pure_eq_ok_iff] at h
      refine ⟨if kept then row₀ :: rest₀ else rest₀, ?_, ?_⟩
      · exact bind_eq_ok_iff.mpr ⟨row₀, hrow₀, bind_eq_ok_iff.mpr
          ⟨kept, hkept₀, bind_eq_ok_iff.mpr ⟨rest₀, hrest₀, rfl⟩⟩⟩
      · rw [← h]
        split <;> rfl

/-! ## Results -/

section Project

variable {entries : List Entry} {new : Entry}
  (hentries : ∀ e ∈ entries, e.identifier.rowName? ≠ some c.name)
include hentries

theorem cells_withColumn {row : Row} {cells : List Cell}
    (h : (entries ++ [new]).mapM
      (fun e => db.value (db.withColumn c row) e.identifier) = .ok cells) :
    entries.mapM (fun e => db.value row e.identifier) =
      .ok (cells.eraseIdx entries.length) := by
  rw [List.mapM_append] at h
  obtain ⟨old, hold, h⟩ := bind_eq_ok_iff.mp h
  obtain ⟨last, hlast, h⟩ := bind_eq_ok_iff.mp h
  cases h
  obtain ⟨cell, _, -, hnil, rfl⟩ :=
    List.forall₂_cons_left_iff.mp (mapM_eq_ok_iff.mp hlast)
  cases hnil
  have hlength := (mapM_eq_ok_iff.mp hold).length_eq
  have hcells := mapM_congr_of_mem fun e he =>
    changesOnly_withColumn db c row e.identifier (hentries e he)
  rw [← hcells, hold, hlength, eraseIdx_length_append]

theorem project_appendColumn_eq_ok (hs : s.Spares c.name)
    (h : db.project (.ok (entries ++ [new])) (s.appendColumn c)
      (rows.map (db.withColumn c)) = .ok r') :
    db.project (.ok entries) s rows = .ok (r'.eraseColumn entries.length) := by
  obtain ⟨_, hsorted, _, hcolumns, cells, hcells, rfl⟩ := project_eq_ok_iff.mp h
  cases hcolumns
  have hchange := sortRows_change (changesOnly_withColumn db c) hs.sort rows
  obtain ⟨sorted, hsorted₀, rfl⟩ :=
    map_eq_ok_iff.mp (hchange.symm.trans hsorted)
  refine project_eq_ok_iff.mpr ⟨sorted, hsorted₀, entries, rfl,
    cells.map (·.eraseIdx entries.length), ?_, ?_⟩
  · rw [List.mapM_map, mapM_eq_ok_iff] at hcells
    rw [mapM_eq_ok_iff, List.forall₂_map_right_iff]
    exact hcells.imp fun row cells => cells_withColumn hentries
  · have hcolumns :=
      eraseIdx_length_append (entries.map fun e => (e.name, e.kind))
        (new.name, new.kind)
    rw [List.length_map] at hcolumns
    simp only [ResultSet.ofEntries, ResultSet.eraseColumn, List.map_append,
      List.map_cons, List.map_nil, hcolumns]

theorem runStage_appendColumn_eq_ok (hs : s.Spares c.name)
    (hsummarized : s.isSummarized = false)
    (h : db.runStage (.ok (entries ++ [new])) (s.appendColumn c) rows =
      .ok r') :
    db.runStage (.ok entries) s rows = .ok (r'.eraseColumn entries.length) := by
  have hsummarized' : (s.appendColumn c).isSummarized = false := hsummarized
  obtain ⟨_, hprepared, result, hresult, rfl⟩ :=
    (runStage_eq_ok_iff_project hsummarized').mp h
  obtain ⟨prepared, hprepared₀, rfl⟩ := prepare_appendColumn_eq_ok hs hprepared
  refine (runStage_eq_ok_iff_project hsummarized).mpr
    ⟨prepared, hprepared₀, _,
      project_appendColumn_eq_ok hentries hs hresult, ?_⟩
  simp only [Stage.appendColumn, ResultSet.eraseColumn]
  cases s.limit <;> simp [List.map_take]

end Project

theorem runStage_appendColumn_of_isSummarized
    {columns : Except CatalogError (List Entry)} (hs : s.Spares c.name)
    (hsummarized : s.isSummarized)
    (h : db.runStage columns (s.appendColumn c) rows = .ok r') :
    db.runStage columns s rows = .ok r' := by
  have hsummarized' : (s.appendColumn c).isSummarized := hsummarized
  obtain ⟨_, hprepared, result, hresult, rfl⟩ :=
    (runStage_eq_ok_iff hsummarized').mp h
  obtain ⟨prepared, hprepared₀, rfl⟩ := prepare_appendColumn_eq_ok hs hprepared
  have hchange :=
    summarize_change (changesOnly_withColumn db c) hs columns prepared
  exact (runStage_eq_ok_iff hsummarized).mpr
    ⟨prepared, hprepared₀, result, hchange.symm.trans hresult, rfl⟩

/-- A new custom column changes nothing but its own column, unless the last
stage reads, or passes on, a column of an earlier stage that has its name. -/
theorem run_add_customColumn {d d' : Draft}
    (hadd : d.add db.catalog (.customColumn c) = .ok d')
    (hearlier : ∀ inner stage source, d.query = .ofQuery inner stage →
      d.query.sourceColumns db.catalog = .ok source →
      ¬stage.UsesEarlier source c.name)
    (hrun : db.run d'.query = .ok r') :
    db.run d.query =
    .ok (r'.eraseColumn? (d'.query.customColumnIndex? db.catalog c.name)) := by
  obtain ⟨source, hsource, hs, hnew, hquery⟩ :=
    Draft.add_customColumn_eq_ok hadd
  have hentry : ∀ e ∈ source, e.IsSource :=
    fun _ => Query.isSource_of_mem_sourceColumns hsource
  have hunused : ¬d.query.stage.UsesEarlier source c.name := by
    cases hq : d.query with
    | ofTable table stage =>
        rw [hq] at hsource hs
        exact hs.not_usesEarlier hsource c.name
    | ofQuery inner stage => exact hearlier inner stage source hq hsource
  have hspares := hs.spares hentry hnew hunused
  have houtput : d.query.outputColumns db.catalog =
      .ok (d.query.stage.outputColumns source) := by
    simp [Query.outputColumns, hsource]
  have houtput' : d'.query.outputColumns db.catalog =
      .ok ((d.query.stage.appendColumn c).outputColumns source) := by
    simp [Query.outputColumns, hquery, hsource]
  have hnames :=
    fun e => Stage.rowName?_ne_of_mem_outputColumns (e := e) hentry hnew hunused
  have hothers := Stage.findIdx?_outputColumns hentry hnew hunused
  obtain ⟨rows, hrows, hstage⟩ := run_eq_ok_iff.mp hrun
  rw [houtput', hquery, Query.stage_withStage] at hstage
  rw [hquery, sourceRows_withStage] at hrows
  refine run_eq_ok_iff.mpr ⟨rows, hrows, ?_⟩
  rw [houtput, Query.customColumnIndex?, houtput', Except.toOption,
    Option.bind_some]
  cases hsummarized : d.query.stage.isSummarized with
  | true =>
      rw [hspares.outputColumns_appendColumn hsummarized] at hstage ⊢
      rw [hothers]
      exact runStage_appendColumn_of_isSummarized hspares hsummarized hstage
  | false =>
      rw [Stage.outputColumns_appendColumn hsummarized] at hstage ⊢
      rw [List.findIdx?_append, hothers]
      have hindex : [d.query.stage.columnEntry source c].findIdx?
          (·.identifier == .customColumn c.name) = some 0 := by
          simp [Stage.columnEntry]
      rw [hindex]
      simpa [ResultSet.eraseColumn?] using
        runStage_appendColumn_eq_ok hnames hspares hsummarized hstage

def orderCount : Expression := .column (.stageColumn "Count" .numeric)

def manyOrders : Draft :=
  .ofQuery (.ofQuery
    (.ofTable 1 { aggregations := [⟨.call .count [], none, []⟩] })
    { filters := [.binary .gt orderCount (.number (Decimal.ofNat 1))] })

def nextCount (name : String) : CustomColumn :=
  ⟨name, .binary .add orderCount (.number (Decimal.ofNat 1))⟩

theorem identifiers_of_clause?_manyOrders {position : ClausePosition}
    {clause : Clause}
    (h : manyOrders.query.stage.clause? position = some clause) :
    clause.identifiers = [.stageColumn "Count" .numeric] := by
  cases List.mem_singleton.mp (Stage.mem_clauses_iff.mpr h)
  rfl

def withNextCount (name : String) : Draft :=
  ⟨manyOrders.query.withStage
    (manyOrders.query.stage.appendColumn (nextCount name)), 1⟩

theorem run_withNextCount :
    quantities.run (withNextCount "Next").query =
      .ok ⟨[("Count", .numeric), ("Next", .numeric)],
        [[.ofCount 2, .ofCount 3]]⟩ :=
  toOption_eq_some_iff.mp (by decide +kernel)

theorem run_add_customColumn_nextCount :
    quantities.run manyOrders.query =
      .ok ⟨[("Count", .numeric)], [[.ofCount 2]]⟩ := by
  have hadd : manyOrders.add quantities.catalog
      (.customColumn (nextCount "Next")) = .ok (withNextCount "Next") := rfl
  have hearlier : ∀ inner stage source,
      manyOrders.query = .ofQuery inner stage →
      manyOrders.query.sourceColumns quantities.catalog = .ok source →
      ¬stage.UsesEarlier source "Next" := by
    intro inner stage source hquery hsource
    cases hquery
    cases hsource
    rintro ⟨kind, ⟨e, he, hid⟩ | ⟨position, clause, hclause, -, hid⟩⟩
    · have hshown : e =
        ⟨"Count", [], .stageColumn "Count" .numeric, .numeric⟩ :=
        List.mem_singleton.mp he
      simp [hshown] at hid
    · rw [identifiers_of_clause?_manyOrders hclause] at hid
      simp at hid
  exact run_add_customColumn hadd hearlier run_withNextCount

/-- The name of the new column is that of a column passed on, which then shows
the new cells. -/
theorem not_forall_run_add_customColumn :
    ¬∀ (db : Database) (d d' : Draft) (c : CustomColumn) (r r' : ResultSet),
      d.query.validate db.catalog = .ok () →
      d.add db.catalog (.customColumn c) = .ok d' →
      (∀ position clause, d.query.stage.clause? position = some clause →
        .customColumn c.name ∉ clause.identifiers) →
      db.run d.query = .ok r → db.run d'.query = .ok r' →
        r'.eraseColumn? (d'.query.customColumnIndex? db.catalog c.name) =
          r := by
  intro h
  have hunread : ∀ position clause,
      manyOrders.query.stage.clause? position = some clause →
      .customColumn "Count" ∉ clause.identifiers := by
    intro position clause hclause
    rw [identifiers_of_clause?_manyOrders hclause]
    simp
  have hrun : quantities.run manyOrders.query =
      .ok ⟨[("Count", .numeric)], [[.ofCount 2]]⟩ :=
    toOption_eq_some_iff.mp (by decide +kernel)
  have hrun' : quantities.run (withNextCount "Count").query =
      .ok ⟨[("Count", .numeric), ("Count", .numeric)],
        [[.ofCount 3, .ofCount 3]]⟩ :=
    toOption_eq_some_iff.mp (by decide +kernel)
  have hrows := congrArg ResultSet.rows
    (h quantities manyOrders (withNextCount "Count") (nextCount "Count") _ _
      rfl rfl hunread hrun hrun')
  exact absurd hrows (by decide)

end Database

end TableQuery
