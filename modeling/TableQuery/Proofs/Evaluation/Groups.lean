import TableQuery.Proofs.Context
import TableQuery.Proofs.Evaluation.Accumulation
import TableQuery.Query.Renumbering

/-!
# Groups and their cells

What a stage that groups or aggregates computes: a key for each group, the
aggregations in their order, each from those before it, and the order of the
result.
-/

namespace TableQuery

/-! ## Sorting -/

theorem sortByKey_map {α β : Type} {F : α → β} {key : α → List Cell}
    {key' : β → List Cell} (directions : List Direction) {items : List α}
    (h : ∀ a ∈ items, key' (F a) = key a) :
    sortByKey directions key' (items.map F) =
      (sortByKey directions key items).map F := by
  refine (List.map_mergeSort fun a ha b hb => ?_).symm
  rw [h a ha, h b hb]

theorem perm_sortByKey {α : Type} (directions : List Direction)
    (key : α → List Cell) (items : List α) :
    (sortByKey directions key items).Perm items :=
  List.mergeSort_perm _ _

theorem mem_sortByKey {α : Type} {directions : List Direction}
    {key : α → List Cell} {items : List α} {a : α} :
    a ∈ sortByKey directions key items ↔ a ∈ items :=
  (perm_sortByKey directions key items).mem_iff

theorem sortByKey_nil {α : Type} (key : α → List Cell) (items : List α) :
    sortByKey [] key items = items :=
  List.mergeSort_of_pairwise (List.pairwise_of_forall fun _ _ => rfl)

namespace Database

variable {db : Database}

/-! ## Keys -/

theorem mem_insertRow {key : List Cell} {row : Row} {found : List Group}
    {g : Group} (h : g ∈ insertRow key row found) : g.key = key ∨ ∃ g' ∈ found,
    g.key = g'.key := by
  induction found with
  | nil => simp_all [insertRow]
  | cons first rest ih =>
      simp only [insertRow] at h
      split at h
      case isTrue =>
          obtain rfl | hrest := List.mem_cons.mp h
          · exact .inr ⟨first, List.mem_cons_self, rfl⟩
          · exact .inr ⟨g, List.mem_cons_of_mem first hrest, rfl⟩
      case isFalse =>
          obtain rfl | hrest := List.mem_cons.mp h
          · exact .inr ⟨g, List.mem_cons_self, rfl⟩
          · obtain hkey | ⟨g', hg', hkey⟩ := ih hrest
            · exact .inl hkey
            · exact .inr ⟨g', List.mem_cons_of_mem first hg', hkey⟩

private theorem length_key_of_foldlM {breakouts : List Breakout}
    {rows : List Row} {start found : List Group}
    (h : rows.foldlM
      (fun groups row => do
        return insertRow (← db.groupKey breakouts row) row groups) start =
        .ok found)
    (hstart : ∀ g ∈ start, g.key.length = breakouts.length) :
    ∀ g ∈ found, g.key.length = breakouts.length := by
  induction rows generalizing start with
  | nil =>
      cases h
      exact hstart
  | cons row rows ih =>
      rw [List.foldlM_cons, bind_eq_ok_iff] at h
      obtain ⟨next, hnext, hrest⟩ := h
      obtain ⟨key, hkey, hinsert⟩ := bind_eq_ok_iff.mp hnext
      cases hinsert
      have hlength := (mapM_eq_ok_iff.mp hkey).length_eq
      refine ih hrest fun g hg => ?_
      obtain hg | ⟨g', hg', hg⟩ := mem_insertRow hg
      · rw [hg, ← hlength]
      · rw [hg, hstart g' hg']

theorem length_key_groupRows {breakouts : List Breakout} {rows : List Row}
    {found : List Group} (h : db.groupRows breakouts rows = .ok found)
    {g : Group} (hg : g ∈ found) : g.key.length = breakouts.length :=
  length_key_of_foldlM h (fun _ h => absurd h List.not_mem_nil) g hg

theorem groups_eq_ok_iff {breakouts : List Breakout} {rows : List Row}
    {found : List Group} :
    db.groups breakouts rows = .ok found ↔
      ∃ grouped, db.groupRows breakouts rows = .ok grouped ∧
        sortByKey (breakouts.map fun _ => .asc) Group.key
          (if breakouts.isEmpty && grouped.isEmpty then [⟨[], []⟩] else
            grouped) = found := by
  simp only [groups, bind_eq_ok_iff, pure_eq_ok_iff]

theorem length_key {breakouts : List Breakout} {rows : List Row}
    {found : List Group} (h : db.groups breakouts rows = .ok found) {g : Group}
    (hg : g ∈ found) : g.key.length = breakouts.length := by
  obtain ⟨grouped, hgrouped, rfl⟩ := groups_eq_ok_iff.mp h
  rw [mem_sortByKey] at hg
  split at hg
  case isTrue hempty =>
      simp only [Bool.and_eq_true, List.isEmpty_iff] at hempty
      rw [List.mem_singleton.mp hg, hempty.1]
      rfl
  case isFalse => exact length_key_groupRows hgrouped hg

/-! ## Aggregations -/

theorem aggregations_eq_ok_iff {rows : List Row} {done values : List Cell}
    {aggs : List Aggregation} :
    db.aggregations rows done aggs = .ok values ↔
      ∃ new, values = done ++ new ∧ new.length = aggs.length ∧
        ∀ k a, aggs[k]? = some a →
          ∃ cell, new[k]? = some cell ∧
            db.evalGroup rows (done ++ new.take k) a.expression = .ok cell := by
  induction aggs generalizing done with
  | nil =>
      simp only [aggregations, Except.ok.injEq, List.length_nil,
        List.length_eq_zero_iff]
      constructor
      · rintro rfl
        exact ⟨[], by simp, rfl, by simp⟩
      · rintro ⟨_, rfl, rfl, -⟩
        simp
  | cons a rest ih =>
      simp only [aggregations, bind_eq_ok_iff, ih]
      constructor
      · rintro ⟨cell, hcell, new, rfl, hlength, hnew⟩
        refine ⟨cell :: new, by simp, by simp [hlength], fun k b hb => ?_⟩
        cases k with
        | zero =>
            cases hb
            exact ⟨cell, rfl, by simpa using hcell⟩
        | succ k => simpa using hnew k b (by simpa using hb)
      · rintro ⟨new, rfl, hlength, hnew⟩
        obtain ⟨cell, new, rfl⟩ := List.exists_cons_of_length_eq_add_one hlength
        obtain ⟨cell', hcell', hvalue⟩ := hnew 0 a rfl
        cases hcell'
        refine ⟨cell, by simpa using hvalue, new, by simp,
          by simpa using hlength, fun k b hb => ?_⟩
        simpa using hnew (k + 1) b (by simpa using hb)

theorem length_aggregations {rows : List Row} {aggs : List Aggregation}
    {values : List Cell} (h : db.aggregations rows [] aggs = .ok values) :
    values.length = aggs.length := by
  obtain ⟨cells, rfl, hlength, -⟩ := aggregations_eq_ok_iff.mp h
  exact hlength

def GroupRow (db : Database) (aggs : List Aggregation) (g : Group)
    (row : List Cell) : Prop :=
  ∃ values, db.aggregations g.rows [] aggs = .ok values ∧ g.key ++ values = row

theorem length_groupRow {width : Nat} {aggs : List Aggregation}
    {found : List Group} {computed : List (List Cell)}
    (hkeys : ∀ g ∈ found, g.key.length = width)
    (h : List.Forall₂ (GroupRow db aggs) found computed) :
    ∀ row ∈ computed, row.length = width + aggs.length := by
  induction h with
  | nil => simp
  | cons hrow _ ih =>
      obtain ⟨values, hvalues, rfl⟩ := hrow
      obtain ⟨hkey, hkeys⟩ := List.forall_mem_cons.mp hkeys
      refine List.forall_mem_cons.mpr ⟨?_, ih hkeys⟩
      rw [List.length_append, hkey, length_aggregations hvalues]

/-! ## Sorted groups -/

theorem cellsAt_map {F : List Cell → List Cell} {τ : Nat → Nat}
    {row : List Cell} (h : ∀ c, (F row)[c]? = row[τ c]?) (columns : List Nat) :
    cellsAt columns (F row) = cellsAt (columns.map τ) row := by
  simp only [cellsAt, List.map_map]
  congr 2
  exact List.map_congr_left fun c _ => h c

private theorem any_leavesRow_map {directions : List Direction}
    {columns columns' : List Nat} {F : List Cell → List Cell}
    (hlength : columns'.length = columns.length) {rows : List (List Cell)}
    (h : ∀ row ∈ rows, cellsAt columns' (F row) = cellsAt columns row) :
    (((rows.map F).zip ((rows.map F).drop 1)).any fun (a, b) =>
        leavesRow directions columns' a b) =
      ((rows.zip (rows.drop 1)).any fun (a, b) =>
        leavesRow directions columns a b) := by
  rw [← List.map_drop, List.zip_map, List.any_map, Bool.eq_iff_iff,
    List.any_eq_true, List.any_eq_true]
  refine exists_congr fun ⟨a, b⟩ => and_congr_right fun hab => ?_
  obtain ⟨ha, hb⟩ := List.of_mem_zip hab
  simp [leavesRow, h a ha, h b (List.mem_of_mem_drop hb), hlength]

theorem sortGroups_eq_ok_iff {breakouts : List Breakout} {orders : List OrderBy}
    {rows out : List (List Cell)} :
    sortGroups breakouts orders rows = .ok out ↔
      ∃ columns, orders.mapM (orderColumn breakouts) = .ok columns ∧
        sortByKey (orders.map (·.direction)) (cellsAt columns) rows = out ∧
        ((out.zip (out.drop 1)).any fun (a, b) =>
          leavesRow (orders.map (·.direction)) columns a b) = false := by
  simp only [sortGroups, bind_eq_ok_iff]
  refine exists_congr fun columns => and_congr_right fun _ => ?_
  split
  case isTrue h =>
      simp only [throw, throwThe, MonadExceptOf.throw, reduceCtorEq, false_iff]
      rintro ⟨rfl, hleaves⟩
      rw [hleaves] at h
      cases h
  case isFalse h =>
      rw [pure_eq_ok_iff]
      constructor
      · rintro rfl
        exact ⟨rfl, by simpa using h⟩
      · exact And.left

theorem orderColumns_map {breakouts breakouts' : List Breakout}
    {orders : List OrderBy} {g : OrderTarget → OrderTarget} {τ : Nat → Nat}
    {columns : List Nat}
    (h : ∀ o ∈ orders, ∀ c, orderColumn breakouts o = .ok c →
      ∃ c', orderColumn breakouts' (o.mapTarget g) = .ok c' ∧ τ c' = c)
    (hcolumns : orders.mapM (orderColumn breakouts) = .ok columns) :
    ∃ columns', (orders.map (OrderBy.mapTarget g)).mapM
      (orderColumn breakouts') = .ok columns' ∧ columns'.map τ = columns := by
  simp only [mapM_eq_ok_iff, List.forall₂_map_left_iff] at hcolumns ⊢
  induction hcolumns with
  | nil => exact ⟨[], .nil, rfl⟩
  | cons hc _ ih =>
      obtain ⟨c', hc', hτ⟩ := h _ List.mem_cons_self _ hc
      obtain ⟨columns', hcolumns', rfl⟩ :=
        ih fun o ho => h o (List.mem_cons_of_mem _ ho)
      exact ⟨c' :: columns', .cons hc' hcolumns', by rw [List.map_cons, hτ]⟩

theorem sortGroups_map {breakouts breakouts' : List Breakout}
    {orders : List OrderBy} {g : OrderTarget → OrderTarget}
    {F : List Cell → List Cell} {τ : Nat → Nat} {rows out : List (List Cell)}
    (hcolumn : ∀ o ∈ orders, ∀ c, orderColumn breakouts o = .ok c →
      ∃ c', orderColumn breakouts' (o.mapTarget g) = .ok c' ∧ τ c' = c)
    (hrows : ∀ row ∈ rows, ∀ c, (F row)[c]? = row[τ c]?)
    (h : sortGroups breakouts orders rows = .ok out) :
    sortGroups breakouts' (orders.map (OrderBy.mapTarget g)) (rows.map F) =
      .ok (out.map F) := by
  obtain ⟨columns, hcolumns, rfl, hleaves⟩ := sortGroups_eq_ok_iff.mp h
  obtain ⟨columns', hcolumns', hτ⟩ := orderColumns_map hcolumn hcolumns
  have hlength : columns'.length = columns.length := by
    rw [← hτ, List.length_map]
  have hcells : ∀ row ∈ rows, cellsAt columns' (F row) =
      cellsAt columns row := by
    intro row hrow
    rw [cellsAt_map (hrows row hrow), hτ]
  have hdirections : (orders.map (OrderBy.mapTarget g)).map (·.direction) =
      orders.map (·.direction) := List.map_map
  refine sortGroups_eq_ok_iff.mpr ⟨columns', hcolumns', ?_, ?_⟩
  · rw [hdirections, sortByKey_map _ hcells]
  · rw [hdirections, any_leavesRow_map hlength fun row hrow =>
      hcells row (mem_sortByKey.mp hrow),
      hleaves]

/-! ## Results -/

theorem prepare_congr {s s' : Stage}
    (hcolumns : s'.customColumns = s.customColumns)
    (hfilters : s'.filters = s.filters) (rows : List Row) :
    db.prepare s' rows = db.prepare s rows := by
  induction rows with
  | nil => rfl
  | cons row rows ih => simp only [prepare, hcolumns, hfilters, ih]

@[simp] theorem rows_ofEntries (entries : List Entry)
    (rows : List (List Cell)) :
    (ResultSet.ofEntries entries rows).rows = rows := rfl

theorem summarize_eq_ok_iff {columns : Except CatalogError (List Entry)}
    {s : Stage} {rows : List Row} {r : ResultSet} :
    db.summarize columns s rows = .ok r ↔
      ∃ found, db.groups s.breakouts rows = .ok found ∧
      ∃ computed, List.Forall₂ (GroupRow db s.aggregations) found computed ∧
      ∃ totalled, accumulateAll s.breakouts.length s.aggregations computed =
        .ok totalled ∧
      ∃ sorted, (if s.orderBy.isEmpty then pure totalled
          else sortGroups s.breakouts s.orderBy totalled) = .ok sorted ∧
      ∃ entries, columns = .ok entries ∧ .ofEntries entries sorted = r := by
  simp only [summarize, ite_bind, bind_eq_ok_iff, mapM_eq_ok_iff,
    pure_eq_ok_iff, mapError_eq_ok_iff]
  rfl

theorem project_eq_ok_iff {columns : Except CatalogError (List Entry)}
    {s : Stage} {rows : List Row} {r : ResultSet} :
    db.project columns s rows = .ok r ↔
      ∃ sorted, db.sortRows s.orderBy rows = .ok sorted ∧
      ∃ entries, columns = .ok entries ∧
      ∃ cells, sorted.mapM
          (fun row => entries.mapM fun e => db.value row e.identifier) =
            .ok cells ∧
        .ofEntries entries cells = r := by
  simp only [project, bind_eq_ok_iff, pure_eq_ok_iff, mapError_eq_ok_iff]

theorem mem_of_mem_limit {α : Type} {limit : Option Nat} {as : List α} {a : α}
    (h : a ∈ (limit.map as.take).getD as) : a ∈ as := by
  cases limit with
  | none => exact h
  | some n => exact List.mem_of_mem_take h

theorem runStage_eq_ok_iff {columns : Except CatalogError (List Entry)}
    {s : Stage} {rows : List Row} {r : ResultSet} (hs : s.isSummarized) :
    db.runStage columns s rows = .ok r ↔
      ∃ prepared, db.prepare s rows = .ok prepared ∧
      ∃ result, db.summarize columns s prepared = .ok result ∧
        { result with
          rows := (s.limit.map result.rows.take).getD result.rows } = r := by
  simp only [runStage, bind_eq_ok_iff, if_pos hs]
  cases s.limit <;> simp [pure_eq_ok_iff]

theorem runStage_eq_ok_iff_project {columns : Except CatalogError (List Entry)}
    {s : Stage} {rows : List Row} {r : ResultSet}
    (hs : s.isSummarized = false) :
    db.runStage columns s rows = .ok r ↔
      ∃ prepared, db.prepare s rows = .ok prepared ∧
      ∃ result, db.project columns s prepared = .ok result ∧
        { result with
          rows := (s.limit.map result.rows.take).getD result.rows } = r := by
  simp only [runStage, bind_eq_ok_iff, hs, Bool.false_eq_true, if_false]
  cases s.limit <;> simp [pure_eq_ok_iff]

theorem exists_columns_of_runStage {columns : Except CatalogError (List Entry)}
    {s : Stage} {rows : List Row} {r : ResultSet}
    (h : db.runStage columns s rows = .ok r) :
    ∃ entries, columns = .ok entries ∧ r.columns = entries.map fun e =>
      (e.name, e.kind) := by
  cases hs : s.isSummarized with
  | true =>
      obtain ⟨_, -, result, hresult, rfl⟩ := (runStage_eq_ok_iff hs).mp h
      obtain ⟨_, -, _, -, _, -, _, -, entries, hentries, rfl⟩ :=
        summarize_eq_ok_iff.mp hresult
      exact ⟨entries, hentries, rfl⟩
  | false =>
      obtain ⟨_, -, result, hresult, rfl⟩ :=
        (runStage_eq_ok_iff_project hs).mp h
      obtain ⟨_, -, entries, hentries, _, -, rfl⟩ :=
        project_eq_ok_iff.mp hresult
      exact ⟨entries, hentries, rfl⟩

theorem length_of_mem_runStage {columns : Except CatalogError (List Entry)}
    {s : Stage} {rows : List Row} {r : ResultSet} (hs : s.isSummarized)
    (h : db.runStage columns s rows = .ok r) :
    ∀ row ∈ r.rows, row.length =
      s.breakouts.length + s.aggregations.length := by
  obtain ⟨_, -, result, hresult, rfl⟩ := (runStage_eq_ok_iff hs).mp h
  obtain ⟨found, hfound, computed, hcomputed, totalled, htotalled, sorted,
      hsorted, _, -, rfl⟩ :=
    summarize_eq_ok_iff.mp hresult
  have htotals := length_of_mem_accumulateAll htotalled
    (length_groupRow (fun g hg => length_key hfound hg) hcomputed)
  intro row hrow
  have hmem : row ∈ sorted := mem_of_mem_limit hrow
  split at hsorted
  case isTrue =>
      cases hsorted
      exact htotals row hmem
  case isFalse =>
      obtain ⟨_, -, rfl, -⟩ := sortGroups_eq_ok_iff.mp hsorted
      exact htotals row (mem_sortByKey.mp hmem)

/-! ## Runs -/

def sourceRows (db : Database) : Query → Except EvaluationError (List Row)
  | .ofTable table _ =>
    match db.table? table with
    | none => .error (.missingTable table)
    | some data => .ok (data.rows.map Row.ofRecord)
  | .ofQuery source _ => do
    let result ← db.run source
    return result.rows.map (Row.ofCells (result.columns.map Prod.fst))

@[simp] theorem sourceRows_withStage (q : Query) (stage : Stage) :
    db.sourceRows (q.withStage stage) = db.sourceRows q := by
  cases q <;> rfl

theorem run_eq_ok_iff {q : Query} {r : ResultSet} :
    db.run q = .ok r ↔
      ∃ rows, db.sourceRows q = .ok rows ∧
        db.runStage (q.outputColumns db.catalog) q.stage rows = .ok r := by
  cases q with
  | ofTable table stage =>
      rw [run, sourceRows]
      cases db.table? table <;> simp [Query.stage]
  | ofQuery source stage =>
      rw [run, sourceRows]
      simp only [bind_eq_ok_iff, pure_eq_ok_iff, Query.stage]
      constructor
      · rintro ⟨result, hresult, h⟩
        exact ⟨_, ⟨result, hresult, rfl⟩, h⟩
      · rintro ⟨_, ⟨result, hresult, rfl⟩, h⟩
        exact ⟨result, hresult, h⟩

/-- The source of a query that runs has columns, so any other stage over it has
columns too. -/
theorem exists_outputColumns_withStage {q : Query} {r : ResultSet}
    (h : db.run q = .ok r) (s : Stage) :
    ∃ entries, (q.withStage s).outputColumns db.catalog = .ok entries := by
  obtain ⟨_, -, hstage⟩ := run_eq_ok_iff.mp h
  obtain ⟨_, hcolumns, -⟩ := exists_columns_of_runStage hstage
  obtain ⟨entries, hentries, -⟩ := bind_eq_ok_iff.mp hcolumns
  refine ⟨s.outputColumns entries, ?_⟩
  simp only [Query.outputColumns, Query.sourceColumns_withStage,
    Query.stage_withStage, hentries]
  rfl

end Database

end TableQuery
