import TableQuery.Proofs.Evaluation.Safety

/-!
# An empty query over another

Between two stages the cells of a row travel by the names of their columns.  A
name that occurs more than once carries the last of its cells, and a cell
without a column is lost.  So an empty query over another one always has a
result, with the same columns and as many rows, but the rows are the same only
if every name stands for one cell.
-/

namespace TableQuery

/-! ## Rows between stages -/

namespace Row

def reread (names : List String) (cells : List Cell) : List Cell :=
  names.map (ofCells names cells).column

@[simp] theorem length_reread (names : List String) (cells : List Cell) :
    (reread names cells).length = names.length :=
  List.length_map _

theorem exists_column_ofCells {names : List String} {cells : List Cell}
    (hlength : cells.length = names.length) {name : String} (h : name ∈ names) :
    ∃ i : Nat, names[i]? = some name ∧
      cells[i]? = some ((ofCells names cells).column name) := by
  obtain ⟨i, hi, rfl⟩ := List.getElem_of_mem h
  have hcell : i < cells.length := by omega
  have hzip : (names[i], cells[i]) ∈ names.zip cells :=
    List.mem_iff_getElem.mpr ⟨i, by simp; omega, List.getElem_zip⟩
  -- The name is found, but at the last place that has it, which may not be `i`.
  have hsome : ((names.zip cells).reverse.lookup names[i]).isSome := by
    refine List.lookup_isSome_iff.mpr ⟨_, List.mem_reverse.mpr hzip,
      beq_self_eq_true _⟩
  obtain ⟨cell, hlookup⟩ := Option.isSome_iff_exists.mp hsome
  obtain ⟨before, after, hsplit, -⟩ := List.lookup_eq_some_iff.mp hlookup
  have hmem : (names[i], cell) ∈ names.zip cells := by
    rw [← List.mem_reverse, hsplit]
    simp
  obtain ⟨j, hj⟩ := List.mem_iff_getElem?.mp hmem
  obtain ⟨hname, hcell⟩ := List.getElem?_zip_eq_some.mp hj
  refine ⟨j, hname, ?_⟩
  simp [column, ofCells, hlookup, hcell]

/-- A row comes back as it was if it has a cell for each column, the same one
for columns of the same name. -/
theorem reread_eq_self_iff {names : List String} {cells : List Cell} :
    reread names cells = cells ↔
      cells.length = names.length ∧ ∀ i j : Nat, names[i]? = names[j]? →
      cells[i]? = cells[j]? := by
  constructor
  · intro h
    have hcell : ∀ i : Nat, cells[i]? =
        names[i]?.map (ofCells names cells).column := by
      intro i
      rw [← List.getElem?_map]
      exact congrArg (·[i]?) h.symm
    refine ⟨by rw [← h, length_reread], fun i j hij => ?_⟩
    -- A cell is what its name leads to, and equal names lead to equal cells.
    rw [hcell, hcell, hij]
  · rintro ⟨hlength, hsame⟩
    refine List.ext_getElem? fun i => ?_
    rw [reread, List.getElem?_map]
    cases hname : names[i]? with
    | none =>
        have hi := List.getElem?_eq_none_iff.mp hname
        rw [Option.map_none, eq_comm, List.getElem?_eq_none_iff]
        omega
    | some name =>
        obtain ⟨j, hj, hcell⟩ :=
          exists_column_ofCells hlength (List.mem_of_getElem? hname)
        rw [Option.map_some, ← hcell]
        exact hsame j i (hj.trans hname.symm)

end Row

namespace ResultSet

def names (r : ResultSet) : List String := r.columns.map Prod.fst

def reread (r : ResultSet) : ResultSet :=
  ⟨r.columns, r.rows.map (Row.reread r.names)⟩

/-- Whether each row has one cell for each column, and no two for columns of the
same name. -/
def KeyedByName (r : ResultSet) : Prop :=
  ∀ row ∈ r.rows, row.length = r.columns.length ∧
    ∀ i j : Nat, r.names[i]? = r.names[j]? → row[i]? = row[j]?

theorem reread_eq_self_iff {r : ResultSet} : r.reread = r ↔ r.KeyedByName := by
  have hrows : r.reread = r ↔
      r.rows.map (Row.reread r.names) = r.rows.map id := by
    cases r
    simp [reread]
  rw [hrows, List.map_inj_left]
  refine forall₂_congr fun row _ => ?_
  rw [id, Row.reread_eq_self_iff, names, List.length_map]

theorem keyedByName_of_nodup {r : ResultSet}
    (hrows : ∀ row ∈ r.rows, row.length = r.columns.length)
    (hnodup : r.names.Nodup) :
    r.KeyedByName := by
  intro row hrow
  refine ⟨hrows row hrow, fun i j hij => ?_⟩
  have hlength : r.names.length = row.length := by
    rw [hrows row hrow, names, List.length_map]
  by_cases hi : i < r.names.length
  · rw [(List.getElem?_inj hi hnodup).mp hij]
  · have hj : ¬ j < r.names.length := by
      rw [List.getElem?_eq_none (Nat.not_lt.mp hi)] at hij
      exact Nat.not_lt.mpr (List.getElem?_eq_none_iff.mp hij.symm)
    rw [List.getElem?_eq_none (by omega), List.getElem?_eq_none (by omega)]

end ResultSet

/-! ## Empty stages -/

namespace Stage

theorem outputColumns_empty (entries : List Entry) :
    outputColumns (entries.map Entry.asStageColumn) {} =
      entries.map Entry.asStageColumn := by
  refine List.filter_eq_self.mpr fun e he => ?_
  obtain ⟨_, -, rfl⟩ := List.mem_map.mp he
  rfl

end Stage

theorem Query.outputColumns_nest {c : Catalog} {q : Query}
    {entries : List Entry} (h : q.outputColumns c = .ok entries) :
    q.nest.outputColumns c = .ok (entries.map Entry.asStageColumn) := by
  obtain ⟨source, hsource, hentries⟩ := bind_eq_ok_iff.mp h
  cases hentries
  refine bind_eq_ok_iff.mpr ⟨_, bind_eq_ok_iff.mpr ⟨source, hsource, rfl⟩, ?_⟩
  exact congrArg _ (Stage.outputColumns_empty _)

namespace Database

variable {db : Database}

theorem prepare_empty (rows : List Row) : db.prepare {} rows = .ok rows := by
  induction rows with
  | nil => rfl
  | cons row rows ih =>
      rw [prepare, ih]
      rfl

theorem mapM_value_asStageColumn (row : Row) (entries : List Entry) :
    (entries.map Entry.asStageColumn).mapM
        (fun e => db.value row e.identifier) =
      .ok (entries.map fun e => row.column e.name) := by
  rw [mapM_eq_ok_iff, List.forall₂_map_left_iff, List.forall₂_map_right_iff,
    List.forall₂_same]
  exact fun _ _ => rfl

theorem run_nest {q : Query} {r : ResultSet} (h : db.run q = .ok r) :
    db.run q.nest = .ok r.reread := by
  obtain ⟨rows, -, hstage⟩ := run_eq_ok_iff.mp h
  obtain ⟨entries, hentries, hcolumns⟩ := exists_columns_of_runStage hstage
  have hnames : r.names = entries.map Entry.name := by
    rw [ResultSet.names, hcolumns, List.map_map]
    rfl
  have hcells : (r.rows.map (Row.ofCells r.names)).mapM (fun row =>
      (entries.map Entry.asStageColumn).mapM fun e =>
        db.value row e.identifier) =
        .ok (r.rows.map (Row.reread r.names)) := by
    rw [mapM_eq_ok_iff, List.forall₂_map_left_iff, List.forall₂_map_right_iff,
      List.forall₂_same]
    intro row _
    rw [mapM_value_asStageColumn, Row.reread, hnames, List.map_map]
    rfl
  have hresult : ResultSet.ofEntries (entries.map Entry.asStageColumn)
      (r.rows.map (Row.reread r.names)) = r.reread := by
    rw [ResultSet.ofEntries, ResultSet.reread, hcolumns, List.map_map]
    rfl
  refine run_eq_ok_iff.mpr ⟨_, bind_eq_ok_iff.mpr ⟨r, h, rfl⟩, ?_⟩
  refine (runStage_eq_ok_iff_project rfl).mpr ⟨_, prepare_empty _, r.reread,
    ?_, rfl⟩
  exact project_eq_ok_iff.mpr ⟨_, rfl, _, Query.outputColumns_nest hentries, _,
    hcells, hresult⟩

/-- An empty query over another one has a result whenever that one has.  The
columns are the same, and each row is read again by their names: all of it comes
back if and only if every name stands for one cell in each row.  So it does for
a valid query if no two of its columns share a name. -/
theorem run_nest_eq_iff {q : Query} {r : ResultSet} (h : db.run q = .ok r) :
    ∃ r', db.run q.nest = .ok r' ∧ r'.columns = r.columns ∧
      r'.rows = r.rows.map (Row.reread r.names) ∧ (r' = r ↔ r.KeyedByName) ∧
      (q.validate db.catalog = .ok () → r.names.Nodup → r' = r) := by
  refine ⟨r.reread, run_nest h, rfl, rfl, ResultSet.reread_eq_self_iff,
    fun hvalid hnodup => ?_⟩
  have hrows := length_of_mem_run (Query.validate_eq_ok_iff.mp hvalid) h
  exact ResultSet.reread_eq_self_iff.mpr
    (ResultSet.keyedByName_of_nodup hrows hnodup)

def prices : Database where
  catalog := ⟨[⟨1, "Articles", [⟨10, "Price", none, .numeric, none⟩]⟩]⟩
  tables := [(1, ⟨none, [[(10, .ofCount 5)]]⟩)]

def doubled (name : String) : Query :=
  .ofTable 1 {
    customColumns :=
      [⟨name, .binary .mul (.number (Decimal.ofNat 2)) (.column (.field 10))⟩] }

def doubledPrices (name : String) : ResultSet :=
  ⟨[("Price", .numeric), (name, .numeric)], [[.ofCount 5, .ofCount 10]]⟩

/-- A custom column may have the name of a field.  Then the next stage reads it
in both places. -/
theorem not_forall_run_nest_eq :
    ¬ ∀ (db : Database) (q : Query) (r : ResultSet), db.run q = .ok r →
      db.run q.nest = .ok r := by
  intro h
  have hrun : prices.run (doubled "Price") = .ok (doubledPrices "Price") := rfl
  have hnest := (run_nest hrun).symm.trans (h _ _ _ hrun)
  have hrows := congrArg ResultSet.rows (Except.ok.inj hnest)
  exact absurd hrows (by decide)

theorem run_nest_eq_iff_doubled :
    prices.run (doubled "Double") = .ok (doubledPrices "Double") ∧
      prices.run (doubled "Double").nest = .ok (doubledPrices "Double") := by
  have hrun : prices.run (doubled "Double") =
      .ok (doubledPrices "Double") := rfl
  obtain ⟨r', hnest, -, -, -, heq⟩ := run_nest_eq_iff hrun
  exact ⟨hrun, heq rfl (by decide) ▸ hnest⟩

end Database

end TableQuery
