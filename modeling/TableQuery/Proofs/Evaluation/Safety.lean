import TableQuery.Proofs.Evaluation.Failure

/-!
# Valid queries find what they point at

Aggregations refer to earlier ones by number, sorts to columns of the result,
and cumulative aggregations are added up in a column that is counted from the
left.  A run of a valid query never looks in a place that is not there, and
gives each row one cell for each column.
-/

namespace TableQuery

/-! ## Safe computations -/

@[simp] def EvaluationError.isDangling : EvaluationError → Bool
  | .aborted .missingColumn | .fault (.notComputedYet _)
  | .unsupported (.orderOfRows _) | .unsupported (.orderOfGroups _) => true
  | _ => false

/-- A computation that may fail, but not with a dangling reference. -/
def Safe {α : Type} (x : Except EvaluationError α) : Prop :=
  ∀ e, x = .error e → e.isDangling = false

def dangling : Set EvaluationError := {e | e.isDangling}

@[simp] theorem mem_dangling {e : EvaluationError} :
    e ∈ dangling ↔ e.isDangling := Iff.rfl

instance : SparesValues dangling where
  fault := by
    intro f hf
    cases f with
    | notComputedYet index => exact absurd rfl (hf index)
    | _ => simp
  interpolation := by simp
  dayCount := by simp
  catalog := by simp

theorem safe_iff {α : Type} {x : Except EvaluationError α} :
    Safe x ↔ Avoids dangling x := by
  simp [Safe, Avoids]

namespace Database

variable (db : Database)

/-! ## Rows -/

theorem follow_avoids_dangling (key : FieldId) (value : Cell) (id : FieldId) :
    Avoids dangling (db.follow key value id) := by
  unfold follow
  repeat' split
  all_goals simp

@[simp] theorem value_avoids_dangling (row : Row) (id : Identifier) :
    Avoids dangling (db.value row id) := by
  cases id <;> simp [value, follow_avoids_dangling]

@[simp] theorem evalRow_avoids_dangling (row : Row) (e : Expression) :
    Avoids dangling (db.evalRow row e) := by
  induction e using Expression.induct with
  | number value => simp [evalRow]
  | string value => simp [evalRow]
  | column id => simp [evalRow]
  | call function args ih =>
      simp only [evalRow, evalArgs_eq_mapM, Avoids.ite_iff, Avoids.bind_iff,
        Avoids.mapM ih, true_and]
      exact ⟨fun _ => by simp,
        fun hf cells _ => Scalar.avoids_applyFunction (by simpa using hf) cells⟩
  | binary op left right ihLeft ihRight =>
      simp [evalRow, ihLeft, ihRight, Scalar.avoids_applyBinary]
  | unary op operand ih => simp [evalRow, ih, Scalar.avoids_applyUnary]
  | unrecognized stored => simp [evalRow]

/-! ## Groups -/

theorem evalGroup_avoids {bad : Set EvaluationError} [SparesValues bad]
    (hbad : bad ⊆ dangling) (rows : List Row) {done : List Cell}
    {e : Expression}
    (h : ∀ i ∈ e.aggregationRefs, i < done.length ∨
      .fault (.notComputedYet i) ∉ bad) :
    Avoids bad (db.evalGroup rows done e) := by
  have hspared : ∀ e : EvaluationError, e.isDangling = false → e ∉ bad := by
    intro e he hmem
    have hdangling := hbad hmem
    rw [mem_dangling, he] at hdangling
    cases hdangling
  induction e using Expression.induct with
  | number value => simp [evalGroup]
  | string value => simp [evalGroup]
  | column id =>
      cases id with
      | aggregation index =>
          have hindex :=
            h index (Expression.mem_aggregationRefs.mpr List.mem_cons_self)
          rw [evalGroup]
          split
          case h_1 => simp
          case h_2 hnone =>
              simpa using hindex.resolve_left
                (not_lt.mpr (List.getElem?_eq_none_iff.mp hnone))
      | _ => exact Avoids.error_iff.mpr (hspared _ rfl)
  | call function args ih =>
      simp only [Expression.aggregationRefs_call, List.mem_flatMap] at h
      have hargs : ∀ arg ∈ args, Avoids bad (db.evalGroup rows done arg) :=
        fun arg harg => ih arg harg fun i hi => h i ⟨arg, harg, hi⟩
      rw [evalGroup]
      split
      case isTrue =>
          -- Of the arguments of an aggregate only a rank is read from the
          -- group, not from its rows.
          refine avoids_aggregate
            (fun arg _ row => (db.evalRow_avoids_dangling row arg).mono hbad)
            rows fun _ => ?_
          cases args with
          | nil => simp [evalGroupRank]
          | cons first rest =>
              cases rest with
              | nil => simp [evalGroupRank]
              | cons e _ => exact hargs e (by simp)
      case isFalse hf =>
          rw [evalGroupArgs_eq_mapM, Avoids.bind_iff]
          exact ⟨Avoids.mapM hargs, fun cells _ =>
            Scalar.avoids_applyFunction (by simpa using hf) cells⟩
  | binary op left right ihLeft ihRight =>
      simp only [Expression.aggregationRefs_binary, List.mem_append] at h
      simp [evalGroup, ihLeft fun i hi => h i (.inl hi),
        ihRight fun i hi => h i (.inr hi), Scalar.avoids_applyBinary]
  | unary op operand ih => simp [evalGroup, ih h, Scalar.avoids_applyUnary]
  | unrecognized stored => exact Avoids.error_iff.mpr (hspared _ rfl)

end Database

/-! ## Stages -/

/-- The clauses of a valid stage read only what is there. -/
theorem Stage.Valid.clausesAvoid_dangling
    {source : Except CatalogError (List Entry)} {s : Stage} (h : s.Valid source)
    (hsource : ∀ entries, source = .ok entries → SourceEntries entries)
    (db : Database) (columns : Except CatalogError (List Entry)) :
    s.ClausesAvoid db dangling columns where
  customColumn := fun c _ row => db.evalRow_avoids_dangling row c.expression
  filter := fun predicate _ row => db.evalRow_avoids_dangling row predicate
  aggregation := by
    rintro i a ha rows done rfl
    exact db.evalGroup_avoids subset_rfl rows fun j hj =>
      .inl (h.aggregationRefs_lt hsource ha hj)
  breakout := fun b _ row => db.value_avoids_dangling row b.column
  sort := fun _ _ id _ row => db.value_avoids_dangling row id
  output := fun _ _ _ e _ row => db.value_avoids_dangling row e.identifier

namespace Stage

theorem length_aggregationColumns (ctx : Context) (index : Nat)
    (aggs : List Aggregation) :
    (aggregationColumns ctx index aggs).length = aggs.length := by
  induction aggs generalizing index with
  | nil => rfl
  | cons a rest ih => simp [aggregationColumns, ih]

theorem Consistent.length_breakoutColumns {entries : List Entry} {s : Stage}
    (h : s.Consistent entries) :
    (s.breakouts.filterMap (breakoutColumn? (s.context entries))).length =
      s.breakouts.length := by
  refine List.filterMap_length_eq_length.mpr fun b hb => ?_
  obtain ⟨e, he, -⟩ := h.breakout b hb
  simp [breakoutColumn?, he]

theorem Consistent.length_outputColumns {entries : List Entry} {s : Stage}
    (h : s.Consistent entries) (hs : s.isSummarized) :
    (s.outputColumns entries).length =
      s.breakouts.length + s.aggregations.length := by
  simp only [outputColumns, hs, if_true, List.length_append,
    length_aggregationColumns, h.length_breakoutColumns]

end Stage

/-! ## Queries -/

namespace Database

variable {db : Database}

/-- A run of a valid query may fail, but never looks for a row, a group or a
column that is not there. -/
theorem safe_run {q : Query} (h : q.Valid db.catalog) : Safe (db.run q) := by
  rw [safe_iff]
  induction q with
  | ofTable table stage =>
      rw [run]
      split
      case h_1 => simp
      case h_2 data _ =>
          exact avoids_runStage h
            (h.clausesAvoid_dangling
              (fun _ => Catalog.sourceEntries_tableEntries) db _) _
  | ofQuery source stage ih =>
      rw [run, Avoids.bind_iff]
      exact ⟨ih h.1, fun result _ => avoids_runStage h.2
        (h.2.clausesAvoid_dangling (fun _ => Query.sourceEntries_sourceColumns)
          db _) _⟩

theorem length_of_mem_run {q : Query} (h : q.Valid db.catalog) {r : ResultSet}
    (hr : db.run q = .ok r) :
    ∀ row ∈ r.rows, row.length = r.columns.length := by
  obtain ⟨rows, -, hstage⟩ := run_eq_ok_iff.mp hr
  obtain ⟨output, houtput, hcolumns⟩ := exists_columns_of_runStage hstage
  cases hs : q.stage.isSummarized with
  | true =>
      -- The rows are as wide as the clauses are many, and so are the columns if
      -- all are found.
      obtain ⟨entries, hentries, hentry⟩ := bind_eq_ok_iff.mp houtput
      cases hentry
      have hconsistent := Stage.valid_ok_iff.mp (hentries ▸ h.stage)
      rw [hcolumns, List.length_map, hconsistent.length_outputColumns hs]
      exact length_of_mem_runStage hs hstage
  | false =>
      -- Each row reads the columns one by one.
      obtain ⟨prepared, -, result, hresult, rfl⟩ :=
        (runStage_eq_ok_iff_project hs).mp hstage
      obtain ⟨_, -, entries, hentries, cells, hcells, rfl⟩ :=
        project_eq_ok_iff.mp hresult
      intro row hrow
      obtain ⟨_, -, hcells⟩ := exists_of_mem_mapM hcells (mem_of_mem_limit hrow)
      have hlength := (mapM_eq_ok_iff.mp hcells).length_eq
      rw [← hlength]
      exact (List.length_map _).symm

/-- A valid query finds what it points at, whatever the tables hold.  No row
lacks a cell that it is sorted by or accumulated in, every aggregation that is
read is computed by then, every sort leads to a column, and every row of the
result has one cell for each column. -/
theorem run_finds_references {q : Query} (h : q.validate db.catalog = .ok ()) :
    db.run q ≠ .error (.aborted .missingColumn) ∧
      (∀ index, db.run q ≠ .error (.fault (.notComputedYet index))) ∧
      (∀ target, db.run q ≠ .error (.unsupported (.orderOfRows target))) ∧
      (∀ id, db.run q ≠ .error (.unsupported (.orderOfGroups id))) ∧
      ∀ r, db.run q = .ok r → ∀ row ∈ r.rows,
        row.length = r.columns.length := by
  have hvalid := Query.validate_eq_ok_iff.mp h
  have hsafe : ∀ e, e.isDangling = true → db.run q ≠ .error e := by
    intro e he hrun
    rw [safe_run hvalid e hrun] at he
    cases he
  exact ⟨hsafe _ rfl, fun _ => hsafe _ rfl, fun _ => hsafe _ rfl,
    fun _ => hsafe _ rfl, fun _ => length_of_mem_run hvalid⟩

def quantities : Database where
  catalog := ⟨[⟨1, "Orders", [⟨10, "Quantity", none, .numeric, none⟩]⟩]⟩
  tables := [(1, ⟨none, [[(10, .ofCount 5)], [(10, .ofCount 5)]]⟩)]

def quantityTotals : Query :=
  .ofQuery
    (.ofTable 1 {
      aggregations := [⟨.call .cumulativeCount [], some "Total", []⟩,
        ⟨.column (.aggregation 0), some "Number", []⟩]
      breakouts := [⟨.field 10, none⟩]
      orderBy := [⟨.desc, .aggregation 1⟩, ⟨.asc, .breakout 0⟩] })
    { orderBy := [⟨.desc, .column (.stageColumn "Total" .numeric)⟩] }

theorem run_finds_references_quantityTotals :
    ∃ r, quantities.run quantityTotals = .ok r ∧
      r.rows = [[.ofCount 5, .ofCount 2, .ofCount 2]] ∧
      ∀ row ∈ r.rows, row.length = r.columns.length := by
  have hrun : (quantities.run quantityTotals).toOption.map ResultSet.rows =
      some [[.ofCount 5, .ofCount 2, .ofCount 2]] := by decide +kernel
  have hvalid : quantityTotals.validate quantities.catalog = .ok () := by rfl
  obtain ⟨-, -, -, -, hlength⟩ := run_finds_references hvalid
  cases h : quantities.run quantityTotals with
  | error e => simp [h, Except.toOption] at hrun
  | ok r =>
      exact ⟨r, rfl, by simpa [h, Except.toOption] using hrun, hlength r h⟩

end Database

end TableQuery
