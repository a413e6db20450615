import TableQuery.Proofs.Compilation.Drafts
import TableQuery.Proofs.Evaluation.Failure

/-!
# Drafts built from formulas can be run

A run is refused when a query asks a row or a group for what it does not have,
or a table for which there are no data.  No draft built from formulas is refused
by a database with the tables that it reads, as long as the ranks of its
percentiles read no columns: a rank is typed like any other argument, but a
group has no value for a column.
-/

namespace TableQuery

/-! ## Refusals -/

def refusals : Set EvaluationError :=
  {e | (∃ what, e = .unsupported what) ∨ ∃ table, e = .missingTable table}

@[simp] theorem unsupported_mem_refusals (what : Unsupported) :
    .unsupported what ∈ refusals :=
  .inl ⟨what, rfl⟩

@[simp] theorem missingTable_mem_refusals (table : TableId) :
    .missingTable table ∈ refusals :=
  .inr ⟨table, rfl⟩

@[simp] theorem fault_notMem_refusals (f : Fault) : .fault f ∉ refusals := by
  simp [refusals]

instance : SparesValues refusals where
  fault := fun _ => by simp
  interpolation := by simp [refusals]
  dayCount := by simp [refusals]
  catalog := by simp [refusals]

/-! ## Foreign keys -/

/-- Whether the foreign keys of the catalog are found by their ids.  A field
that shares the id of one and comes before it hides it. -/
def Catalog.FindsKeys (c : Catalog) : Prop :=
  ∀ t ∈ c.tables, ∀ f ∈ t.fields, f.target ≠ none →
  (c.field? f.id).bind (·.target) ≠ none

/-- Data for a table, and data with a primary key for the targets of all foreign
keys. -/
structure Database.HasData (db : Database) (table : TableId) : Prop where
  source : db.table? table ≠ none
  target : ∀ t ∈ db.catalog.tables, ∀ f ∈ t.fields, ∀ id, f.target = some id →
    ∃ data, db.table? id = some data ∧ data.primaryKey ≠ none

namespace Catalog

variable {c : Catalog}

theorem mem_fields_of_field? {id : FieldId} {f : FieldInfo}
    (h : c.field? id = some f) : ∃ t ∈ c.tables, f ∈ t.fields := by
  have hmem := List.mem_of_find?_eq_some h
  simp only [List.mem_flatten, List.mem_filterMap, fields?,
    Option.map_eq_some_iff] at hmem
  obtain ⟨fields, ⟨t, -, t', ht', rfl⟩, hf⟩ := hmem
  exact ⟨t', List.mem_of_find?_eq_some ht', hf⟩

theorem exists_key_of_mem_tableEntries {id : TableId} {entries : List Entry}
    (h : c.tableEntries id = .ok entries) {e : Entry} (he : e ∈ entries)
    {key field : FieldId} (hid : e.identifier = .foreign key field) :
    ∃ t ∈ c.tables, ∃ f ∈ t.fields, f.id = key ∧ f.target ≠ none := by
  unfold tableEntries at h
  split at h
  case h_1 => cases h
  case h_2 t ht =>
      cases h
      simp only [List.mem_append, List.mem_map, List.mem_flatMap] at he
      rcases he with ⟨f, -, rfl⟩ | ⟨f, hf, hhop⟩
      · cases hid
      · unfold hopEntries at hhop
        split at hhop
        case h_1 => cases hhop
        case h_2 fields hfields =>
            obtain ⟨g, -, rfl⟩ := List.mem_map.mp hhop
            cases hid
            obtain ⟨target, htarget, -⟩ := Option.bind_eq_some_iff.mp hfields
            exact ⟨t, List.mem_of_find?_eq_some ht, f, hf, rfl,
              by simp [htarget]⟩

end Catalog

namespace Database

variable {db : Database} {table : TableId}

/-! ## Columns -/

def Reads (db : Database) (id : Identifier) : Prop :=
  ∀ row, Avoids refusals (db.value row id)

theorem HasData.follow (hdata : db.HasData table) {key : FieldId}
    (hkey : (db.catalog.field? key).bind (·.target) ≠ none) (value : Cell)
    (id : FieldId) : Avoids refusals (db.follow key value id) := by
  obtain ⟨target, htarget⟩ := Option.ne_none_iff_exists'.mp hkey
  obtain ⟨f, hf, hft⟩ := Option.bind_eq_some_iff.mp htarget
  obtain ⟨t, ht, hmem⟩ := Catalog.mem_fields_of_field? hf
  obtain ⟨data, hfound, hprimary⟩ := hdata.target t ht f hmem target hft
  obtain ⟨primary, hprimary⟩ := Option.ne_none_iff_exists'.mp hprimary
  simp only [Database.follow, htarget, hfound, hprimary, Avoids.ite_iff,
    Avoids.ok, true_and, implies_true]
  intro _
  split <;> simp

theorem HasData.reads (hdata : db.HasData table) (hkeys : db.catalog.FindsKeys)
    {entries : List Entry}
    (hentries : db.catalog.tableEntries table = .ok entries) {s : Stage}
    {position : ClausePosition} {id : Identifier}
    (hvisible : ((s.contextAt entries position).lookup id).isSome)
    (hid : id.aggregationIndex? = none) : db.Reads id := by
  intro row
  cases id with
  | foreign key field =>
      rw [Stage.isSome_lookup_contextAt] at hvisible
      rcases hvisible with hsource | ⟨_, -, hcolumn⟩ | ⟨_, -, haggregation⟩
      · obtain ⟨e, he, hentry⟩ := List.find?_isSome.mp hsource
        have hforeign := Context.identifier_eq_of_isEntryOf (by simp) hentry
        obtain ⟨t, ht, f, hf, rfl, htarget⟩ :=
          Catalog.exists_key_of_mem_tableEntries hentries he hforeign
        exact hdata.follow (hkeys t ht f hf htarget) _ _
      · cases hcolumn
      · cases haggregation
  | aggregation index => cases hid
  | _ => simp [value]

/-! ## Expressions -/

variable {e : Expression}

theorem evalRow_avoids_refusals (h : e.OfRow)
    (hreads : ∀ id ∈ e.identifiers, db.Reads id) (row : Row) :
    Avoids refusals (db.evalRow row e) := by
  induction h with
  | number value => simp [evalRow]
  | string value => simp [evalRow]
  | column => exact hreads _ List.mem_cons_self row
  | call hscalar _ ih =>
      simp only [Expression.identifiers, Expression.argIdentifiers_eq_flatMap,
        List.mem_flatMap] at hreads
      rw [evalRow, hscalar, if_neg Bool.false_ne_true, evalArgs_eq_mapM,
        Avoids.bind_iff]
      exact ⟨Avoids.mapM fun arg harg => ih arg harg fun id hid =>
        hreads id ⟨arg, harg, hid⟩,
        fun cells _ => Scalar.avoids_applyFunction hscalar cells⟩
  | binary op _ _ ihLeft ihRight =>
      simp only [Expression.identifiers, List.mem_append] at hreads
      simp [evalRow, ihLeft fun id hid => hreads id (.inl hid),
        ihRight fun id hid => hreads id (.inr hid), Scalar.avoids_applyBinary]
  | unary op _ ih => simp [evalRow, ih hreads, Scalar.avoids_applyUnary]

/-- An expression of a row that reads no column has a value for a group as
well. -/
theorem evalGroup_avoids_refusals_of_constant (h : e.OfRow)
    (hconstant : e.identifiers = []) (rows : List Row) (done : List Cell) :
    Avoids refusals (db.evalGroup rows done e) := by
  induction h with
  | number value => simp [evalGroup]
  | string value => simp [evalGroup]
  | column => cases hconstant
  | call hscalar _ ih =>
      rw [Expression.identifiers, Expression.argIdentifiers_eq_flatMap,
        List.flatMap_eq_nil_iff] at hconstant
      rw [evalGroup, hscalar, if_neg Bool.false_ne_true, evalGroupArgs_eq_mapM,
        Avoids.bind_iff]
      exact ⟨Avoids.mapM fun arg harg => ih arg harg (hconstant arg harg),
        fun cells _ => Scalar.avoids_applyFunction hscalar cells⟩
  | binary op _ _ ihLeft ihRight =>
      rw [Expression.identifiers, List.append_eq_nil_iff] at hconstant
      simp [evalGroup, ihLeft hconstant.1, ihRight hconstant.2,
        Scalar.avoids_applyBinary]
  | unary op _ ih => simp [evalGroup, ih hconstant, Scalar.avoids_applyUnary]

end Database

namespace Expression

mutual

def ranks : Expression → List Expression
  | call function args =>
    (if function = .percentile then args[1]?.toList else []) ++ argRanks args
  | binary _ left right => ranks left ++ ranks right
  | unary _ operand => ranks operand
  | number _ | string _ | column _ | unrecognized _ => []

def argRanks : List Expression → List Expression
  | [] => []
  | arg :: args => ranks arg ++ argRanks args

end

theorem argRanks_eq_flatMap (args : List Expression) :
    argRanks args = args.flatMap ranks := by
  induction args with
  | nil => rfl
  | cons arg args ih => rw [argRanks, ih, List.flatMap_cons]

end Expression

namespace Database

variable {db : Database} {table : TableId}

theorem evalGroup_avoids_refusals {e : Expression} (h : e.OfGroup)
    (hreads : ∀ id ∈ e.identifiers, id.aggregationIndex? = none → db.Reads id)
    (hranks : ∀ rank ∈ e.ranks, rank.identifiers = []) (rows : List Row)
    (done : List Cell) : Avoids refusals (db.evalGroup rows done e) := by
  induction h with
  | number value => simp [evalGroup]
  | string value => simp [evalGroup]
  | aggregation index =>
      rw [evalGroup]
      split <;> simp
  | @aggregate function args haggregate hargs =>
      simp only [Expression.identifiers, Expression.argIdentifiers_eq_flatMap,
        List.mem_flatMap] at hreads
      have hrow : ∀ arg ∈ args, ∀ row,
          Avoids refusals (db.evalRow row arg) := by
        refine fun arg harg row =>
          evalRow_avoids_refusals (hargs arg harg) (fun id hid => ?_) row
        exact hreads id ⟨arg, harg, hid⟩ <|
          Expression.aggregationRefs_eq_nil_iff.mp
            (hargs arg harg).aggregationRefs_eq_nil id hid
      rw [evalGroup, if_pos haggregate]
      refine avoids_aggregate hrow rows fun hpercentile => ?_
      rcases args with _ | ⟨_, _ | ⟨rank, _⟩⟩
      · simp [evalGroupRank]
      · simp [evalGroupRank]
      · refine evalGroup_avoids_refusals_of_constant (hargs rank (by simp))
          (hranks rank ?_) rows done
        simp [Expression.ranks, hpercentile]
  | call hscalar _ ih =>
      simp only [Expression.identifiers, Expression.argIdentifiers_eq_flatMap,
        List.mem_flatMap] at hreads
      simp only [Expression.ranks, Expression.argRanks_eq_flatMap,
        List.mem_append, List.mem_flatMap] at hranks
      rw [evalGroup, hscalar, if_neg Bool.false_ne_true, evalGroupArgs_eq_mapM,
        Avoids.bind_iff]
      exact ⟨Avoids.mapM fun arg harg =>
          ih arg harg (fun id hid => hreads id ⟨arg, harg, hid⟩)
            fun rank hrank => hranks rank (.inr ⟨arg, harg, hrank⟩),
        fun cells _ => Scalar.avoids_applyFunction hscalar cells⟩
  | binary op _ _ ihLeft ihRight =>
      simp only [Expression.identifiers, List.mem_append] at hreads
      simp only [Expression.ranks, List.mem_append] at hranks
      simp [evalGroup,
        ihLeft (fun id hid => hreads id (.inl hid)) fun rank hrank =>
        hranks rank (.inl hrank),
        ihRight (fun id hid => hreads id (.inr hid)) fun rank hrank =>
        hranks rank (.inr hrank),
        Scalar.avoids_applyBinary]
  | unary op _ ih =>
      simp [evalGroup, ih hreads hranks, Scalar.avoids_applyUnary]

/-! ## Stages over a table -/

theorem reads_of_mem_outputColumns {entries : List Entry}
    (hentries : Stage.SourceEntries entries) {s : Stage}
    (hs : s.isSummarized = false) {e : Entry}
    (he : e ∈ s.outputColumns entries) : db.Reads e.identifier := by
  rw [Stage.outputColumns, hs, if_neg Bool.false_ne_true, List.mem_filter] at he
  obtain ⟨hmem, hforeign⟩ := he
  intro row
  rcases Stage.mem_pushColumns hmem with hsource | ⟨c, -, hid⟩
  · have hsource := hentries e hsource
    cases hid : e.identifier with
    | foreign key field => simp [Stage.isForeign, hid] at hforeign
    | aggregation index => simp [hid, Identifier.aggregationIndex?] at hsource
    | _ => simp [value]
  · simp [hid, value]

section

variable (hdata : db.HasData table) (hkeys : db.catalog.FindsKeys) {s : Stage}
include hdata hkeys

theorem HasData.reads_of_check {position : ClausePosition} {e : Expression}
    (hcheck : ∃ entries, db.catalog.tableEntries table = .ok entries ∧
      e.check (s.contextAt entries position) position = .ok ()) :
    ∀ id ∈ e.identifiers, id.aggregationIndex? = none → db.Reads id := by
  obtain ⟨entries, hentries, hcheck⟩ := hcheck
  intro id hid hindex
  exact hdata.reads hkeys hentries
    ((Expression.check_eq_ok_iff.mp hcheck).1 id hid) hindex

theorem HasData.evalRow_avoids_refusals {position : ClausePosition}
    {e : Expression}
    (hcheck : ∃ entries, db.catalog.tableEntries table = .ok entries ∧
      e.check (s.contextAt entries position) position = .ok ())
    (he : e.OfRow) (row : Row) : Avoids refusals (db.evalRow row e) := by
  refine Database.evalRow_avoids_refusals he (fun id hid => ?_) row
  exact hdata.reads_of_check hkeys hcheck id hid
    (Expression.aggregationRefs_eq_nil_iff.mp he.aggregationRefs_eq_nil id hid)

theorem HasData.clausesAvoid_refusals
    (hvalid : s.Valid (db.catalog.tableEntries table)) (hs : s.Evaluable)
    (hranks : ∀ a ∈ s.aggregations, ∀ rank ∈ a.expression.ranks,
      rank.identifiers = []) :
    s.ClausesAvoid db refusals
      ((Query.ofTable table s).outputColumns db.catalog) := by
  have hsource :=
    fun entries => @Catalog.sourceEntries_tableEntries db.catalog table entries
  refine ⟨fun c hc => ?_, fun predicate hf => ?_, fun i a ha rows done _ => ?_,
    fun b hb => ?_, fun o ho id hid => ?_,
    fun hproject columns hcolumns e he => ?_⟩
  · obtain ⟨i, hi⟩ := List.mem_iff_getElem?.mp hc
    have hcheck := hvalid.clause_ok ⟨.customColumn, i⟩ (.customColumn c)
      (by simp [Stage.clause?, hi])
    exact hdata.evalRow_avoids_refusals hkeys hcheck (hs.customColumn c hc)
  · obtain ⟨i, hi⟩ := List.mem_iff_getElem?.mp hf
    have hcheck :=
      hvalid.clause_ok ⟨.filter, i⟩ (.filter predicate)
        (by simp [Stage.clause?, hi])
    exact hdata.evalRow_avoids_refusals hkeys hcheck (hs.filter predicate hf)
  · have hmem := List.mem_of_getElem? ha
    have hcheck :=
      hvalid.clause_ok ⟨.aggregation, i⟩ (.aggregation a)
        (by simp [Stage.clause?, ha])
    exact evalGroup_avoids_refusals (hs.aggregation a hmem)
      (hdata.reads_of_check hkeys hcheck) (hranks a hmem) rows done
  · obtain ⟨i, hi⟩ := List.mem_iff_getElem?.mp hb
    obtain ⟨entries, hentries, hcheck⟩ :=
      hvalid.clause_ok ⟨.breakout, i⟩ (.breakout b)
        (by simp [Stage.clause?, hi])
    obtain ⟨⟨e, he, -⟩, -⟩ := Stage.checkBreakout_eq_ok_iff.mp hcheck
    exact hdata.reads hkeys hentries (by rw [he]; rfl)
      (hvalid.breakout_not_aggregation hsource hb)
  · obtain ⟨entries, hentries, htarget⟩ := hvalid.sortTarget_valid ho
    rw [hid] at htarget
    have hvisible : ((s.contextAt entries ⟨.orderBy, 0⟩).lookup id).isSome :=
      htarget.2
    exact hdata.reads hkeys hentries hvisible
      (hvalid.sortColumn_not_aggregation hsource ho hid).2
  · obtain ⟨entries, hentries, hcolumns⟩ := bind_eq_ok_iff.mp hcolumns
    rw [← pure_eq_ok_iff.mp hcolumns] at he
    exact reads_of_mem_outputColumns (hsource entries hentries) hproject he

end

/-! ## Runs -/

/-- A draft built from formulas is not refused, whatever the rows hold. -/
theorem run_of_built {d : Draft} (hbuilt : d.Built db.catalog table)
    (hdata : db.HasData table) (hkeys : db.catalog.FindsKeys)
    (hranks : ∀ a ∈ d.query.stage.aggregations, ∀ rank ∈ a.expression.ranks,
      rank.identifiers = []) :
    (∀ what, db.run d.query ≠ .error (.unsupported what)) ∧
      ∀ id, db.run d.query ≠ .error (.missingTable id) := by
  obtain ⟨stage, hquery, hstage, hvalid⟩ := hbuilt.evaluable
  rw [hquery] at hranks ⊢
  have havoids : Avoids refusals (db.run (.ofTable table stage)) := by
    obtain ⟨data, hfound⟩ := Option.ne_none_iff_exists'.mp hdata.source
    simp only [run, hfound]
    exact avoids_runStage hvalid
      (hdata.clausesAvoid_refusals hkeys hvalid hstage hranks) _
  exact ⟨fun what hrun => havoids _ hrun (by simp),
    fun id hrun => havoids _ hrun (by simp)⟩

def ranked : Database where
  catalog :=
    ⟨[⟨1, "T", [⟨1, "A", none, .numeric, none⟩,
      ⟨2, "B", none, .numeric, none⟩]⟩]⟩
  tables := [(1, ⟨none, [[(1, .ofCount 1), (2, .ofCount 1)]]⟩)]

def rankedPercentile : Draft where
  query := .ofTable 1 {
    aggregations :=
      [⟨.call .percentile [.column (.field 1), .column (.field 2)], none, []⟩] }
  revision := 1

theorem built_rankedPercentile : rankedPercentile.Built ranked.catalog 1 := by
  have hscan : Token.scan "Percentile([A], [B])" =
      .ok [⟨.word "Percentile", ⟨0, 10⟩⟩,
      ⟨.leftParen, ⟨10, 11⟩⟩, ⟨.field "A", ⟨11, 14⟩⟩, ⟨.comma, ⟨14, 15⟩⟩,
      ⟨.field "B", ⟨16, 19⟩⟩, ⟨.rightParen, ⟨19, 20⟩⟩] := by decide +kernel
  have hedit : Draft.addFormula ranked.catalog {}
      ⟨.table 1, 0⟩ "Percentile([A], [B])" .aggregation
      none none = .ok rankedPercentile := by
    rw [Draft.addFormula, Query.compileAt, Tree.parseWithin, hscan]
    rfl
  exact .addFormula (.empty 0) hedit

theorem run_rankedPercentile : ranked.run rankedPercentile.query =
    .error (.unsupported (.columnOfGroup (.field 2))) := by
  have hrun : (match ranked.run rankedPercentile.query with
      | .error (.unsupported (.columnOfGroup (.field 2))) => true
      | _ => false) = true := by decide +kernel
  split at hrun
  case h_1 h => exact h
  case h_2 => cases hrun

/-- A rank that reads a column compiles, but a group has no value for the
column. -/
theorem not_forall_run_of_built :
    ¬ ∀ (db : Database) (table : TableId) (d : Draft),
      d.Built db.catalog table → db.HasData table →
      (∀ what, db.run d.query ≠ .error (.unsupported what)) ∧
        ∀ id, db.run d.query ≠ .error (.missingTable id) := by
  intro h
  have hdata : ranked.HasData 1 :=
    ⟨by decide, by simp [ranked]⟩
  exact (h ranked 1 rankedPercentile built_rankedPercentile hdata).1 _
    run_rankedPercentile

def shop : Database where
  catalog := ⟨[⟨1, "Sales", [⟨10, "Price", none, .numeric, none⟩,
      ⟨11, "Product ID", none, .numeric, some 2⟩]⟩,
    ⟨2, "Products",
      [⟨20, "ID", none, .numeric, none⟩, ⟨21, "Category", none, .text, none⟩]⟩]⟩
  tables := [(1, ⟨none, [[(10, .ofCount 5), (11, .ofCount 7)]]⟩),
    (2, ⟨some 20, [[(20, .ofCount 7), (21, .string "Tools")]]⟩)]

def categoryTotals : Draft where
  query := .ofTable 1 {
    aggregations := [⟨.call .sum [.column (.field 10)], none, []⟩]
    breakouts := [⟨.foreign 11 21, none⟩] }
  revision := 2

theorem built_categoryTotals : categoryTotals.Built shop.catalog 1 := by
  have hadd : Draft.addFormula shop.catalog {} ⟨.table 1, 0⟩ "Sum([Price])"
      .aggregation none none =
        .ok ⟨.ofTable 1
          { aggregations := [⟨.call .sum [.column (.field 10)], none, []⟩] },
          1⟩ := by
    rw [Draft.addFormula, Query.compileAt, Draft.parseWithin_salesTotal]
    rfl
  have hinsert : Draft.insert shop.catalog
      ⟨.ofTable 1 { aggregations := [⟨.call .sum [.column (.field 10)],
        none, []⟩] }, 1⟩
      ⟨.breakout, 0⟩ (.breakout ⟨.foreign 11 21, none⟩) =
        .ok categoryTotals := rfl
  exact .insert (.addFormula (.empty 0) hadd) (.inl rfl) hinsert

theorem run_of_built_categoryTotals :
    categoryTotals.Built shop.catalog 1 ∧ shop.HasData 1 ∧
      shop.catalog.FindsKeys ∧
      (∀ what, shop.run categoryTotals.query ≠ .error (.unsupported what)) ∧
      ∀ id, shop.run categoryTotals.query ≠ .error (.missingTable id) := by
  have hdata : shop.HasData 1 :=
    ⟨by decide, by simp [shop, table?, List.lookup_cons]⟩
  have hkeys : shop.catalog.FindsKeys := by
    simp [Catalog.FindsKeys, shop, Catalog.field?, Catalog.fields?,
      Catalog.table?]
  refine ⟨built_categoryTotals, hdata, hkeys,
    run_of_built built_categoryTotals hdata hkeys ?_⟩
  simp [categoryTotals, Query.stage, Expression.ranks, Expression.argRanks]

example : (shop.run categoryTotals.query).toOption.map ResultSet.rows =
    some [[.string "Tools", .ofCount 5]] := by decide +kernel

def hiddenKey : Database where
  catalog :=
    ⟨⟨3, "Notes", [⟨11, "Text", none, .text, none⟩]⟩ :: shop.catalog.tables⟩
  tables := shop.tables

example : (match hiddenKey.run categoryTotals.query with
    | .error (.unsupported (.notForeignKey 11)) => true
    | _ => false) = true := by decide +kernel

end Database

end TableQuery
