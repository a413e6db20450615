import TableQuery.Proofs.Evaluation.Conjuncts
import TableQuery.Proofs.Evaluation.Partition

/-!
# Conditional aggregates

An aggregation with a condition is one of the rows that the condition is true
of.  So a query whose aggregations all have one condition can filter by it
instead, and loses only the groups in which the condition holds nowhere.
-/

namespace TableQuery

def Stage.filtered (s : Stage) (p : Expression) (aggs : List Aggregation) :
    Stage :=
  { s with filters := s.filters ++ [p], aggregations := aggs }

def Query.filtered (q : Query) (p : Expression) (aggs : List Aggregation) :
    Query :=
  q.withStage (q.stage.filtered p aggs)

/-- An aggregation under a condition and the same aggregation without it. -/
inductive Expression.Conditional (p : Expression) :
    Expression → Expression → Prop
  | sum (x : Expression) : Conditional p (.call .sumIf [x, p]) (.call .sum [x])
  | count : Conditional p (.call .countIf [p]) (.call .count [])

def Aggregation.Conditional (p : Expression) (a a' : Aggregation) : Prop :=
  Expression.Conditional p a.expression a'.expression

namespace Database

variable {db : Database} {p : Expression}

/-! ## Rows that a predicate is true of -/

theorem matching_eq_ok_iff {rows hits : List Row} :
    db.matching p rows = .ok hits ↔
      (∀ row ∈ rows, db.Evaluates row p) ∧
      hits = rows.filter (db.holdsOf · p) := by
  have haccepts : ∀ row, (∃ b, db.accepts p row = .ok b) ↔
      db.Evaluates row p := by
    intro row
    constructor
    · rintro ⟨_, h⟩
      obtain ⟨cell, hcell, -⟩ := bind_eq_ok_iff.mp h
      exact ⟨cell, hcell⟩
    · exact fun h => ⟨_, h.accepts_eq⟩
  rw [matching, filterM_eq_ok_iff]
  simp only [haccepts]
  refine and_congr_right fun h => ?_
  have hfilter : rows.filter (fun row => (db.accepts p row).toOption =
      some true) =
      rows.filter (db.holdsOf · p) :=
    List.filter_congr fun row hrow =>
      by simp [(h row hrow).accepts_eq, Except.toOption]
  rw [hfilter]

theorem passes_append {filters : List Expression} {row : Row} {passed : Bool}
    (h : db.passes filters row = .ok passed)
    (hp : passed = true → db.Evaluates row p) :
    db.passes (filters ++ [p]) row = .ok (passed && db.holdsOf row p) := by
  induction filters with
  | nil =>
      cases h
      rw [List.nil_append,
        passes_eq_all (List.forall_mem_singleton.mpr (hp rfl)), List.all_cons,
        List.all_nil, Bool.and_true, Bool.true_and]
  | cons f filters ih =>
      obtain ⟨accepted, haccepted, hrest⟩ := bind_eq_ok_iff.mp h
      rw [List.cons_append, passes, haccepted]
      cases accepted with
      | true => exact ih hrest
      | false =>
          cases hrest
          rfl

theorem prepare_filtered {s : Stage} {rows prepared : List Row}
    (aggs : List Aggregation) (h : db.prepare s rows = .ok prepared)
    (hp : ∀ row ∈ prepared, db.Evaluates row p) :
    db.prepare (s.filtered p aggs) rows =
      .ok (prepared.filter (db.holdsOf · p)) := by
  induction rows generalizing prepared with
  | nil =>
      cases h
      rfl
  | cons row rows ih =>
      obtain ⟨row', hrow, h⟩ := bind_eq_ok_iff.mp h
      obtain ⟨kept, hkept, h⟩ := bind_eq_ok_iff.mp h
      obtain ⟨rest, hrest, h⟩ := bind_eq_ok_iff.mp h
      rw [pure_eq_ok_iff] at h
      subst h
      have hrow' : kept = true → db.Evaluates row' p := by
        rintro rfl
        exact hp row' List.mem_cons_self
      have hrest' : ∀ row ∈ rest, db.Evaluates row p := by
        intro other hother
        apply hp
        split
        case isTrue => exact List.mem_cons_of_mem row' hother
        case isFalse => exact hother
      have hpasses : db.passes (s.filtered p aggs).filters row' =
          .ok (kept && db.holdsOf row' p) := passes_append hkept hrow'
      have hcolumns : (s.filtered p aggs).customColumns = s.customColumns := rfl
      rw [prepare, hcolumns, hrow]
      simp only [bind, Except.bind, hpasses, ih hrest hrest', pure, Except.pure]
      cases kept with
      | true => simp [List.filter_cons]
      | false => rfl

/-! ## Groups of the rows that are kept -/

theorem mapM_keyRow_filter {breakouts : List Breakout} {rows : List Row}
    {keyed : List (List Cell × Row)}
    (h : rows.mapM (db.keyRow breakouts) = .ok keyed) (keep : Row → Bool) :
    (rows.filter keep).mapM (db.keyRow breakouts) =
      .ok (keyed.filter (keep ·.2)) := by
  rw [mapM_eq_ok_iff] at h ⊢
  induction h with
  | nil => exact .nil
  | cons hkey _ ih =>
      obtain ⟨-, rfl⟩ := keyRow_eq_ok_iff.mp hkey
      rw [List.filter_cons, List.filter_cons]
      split
      case isTrue => exact .cons hkey ih
      case isFalse => exact ih

theorem groups_nil (rows : List Row) :
    db.groups [] rows = .ok [⟨[], rows⟩] := by
  have hgather : ∀ rows : List Row, gather (rows.map fun row => ([], row)) =
      if rows.isEmpty then [] else [⟨[], rows⟩] := by
    intro rows
    induction rows using List.reverseRecOn with
    | nil => rfl
    | append_singleton rows row ih =>
        have hnext : gather ((rows ++ [row]).map fun row => ([], row)) =
            insertRow [] row (gather (rows.map fun row => ([], row))) := by
          simp [gather]
        rw [hnext, ih]
        cases rows <;> simp [insertRow, sameKey]
  have hkeyed : rows.mapM (db.keyRow []) =
      .ok (rows.map fun row => ([], row)) := by
    rw [mapM_eq_ok_iff, List.forall₂_map_right_iff]
    exact List.forall₂_same.mpr fun row _ => rfl
  refine groups_eq_ok_iff.mpr ⟨_, groupRows_eq_ok_iff.mpr ⟨_, hkeyed, rfl⟩, ?_⟩
  rw [List.map_nil, sortByKey_nil, hgather]
  cases rows <;> simp

def Group.KeepsOf (keep : Row → Bool) (g g' : Group) : Prop :=
  sameKey g.key g'.key = true ∧ g'.rows = g.rows.filter keep

theorem Gathered.keepsOf {keyed : List (List Cell × Row)}
    {found kept : List Group} {keep : Row → Bool} (h : Gathered keyed found)
    (h' : Gathered (keyed.filter (keep ·.2)) kept) {g g' : Group}
    (hg : g ∈ found) (hg' : g' ∈ kept) (hcontents : g.contents = g'.contents) :
    g.KeepsOf keep g' := by
  refine ⟨sameKey_iff.mpr hcontents, ?_⟩
  rw [h'.rows_eq g' hg', h.rows_eq g hg, hcontents, List.filter_map,
    List.filter_filter, List.filter_filter]
  simp only [Function.comp_def, Bool.and_comm]

/-- Of the rows that are kept, each group is what is kept of a group of all
rows; a group of which rows are kept stays. -/
theorem groups_filter {breakouts : List Breakout} {rows : List Row}
    {found : List Group} (h : db.groups breakouts rows = .ok found)
    (keep : Row → Bool) :
    ∃ kept, db.groups breakouts (rows.filter keep) = .ok kept ∧
      (∀ g' ∈ kept, ∃ g ∈ found, g.KeepsOf keep g') ∧
      ∀ g ∈ found, g.rows.filter keep ≠ [] → ∃ g' ∈ kept, sameKey g.key g'.key =
        true := by
  by_cases hbreakouts : breakouts = []
  · subst hbreakouts
    cases (groups_nil rows).symm.trans h
    refine ⟨_, groups_nil _, ?_, ?_⟩
    · exact List.forall_mem_singleton.mpr ⟨_, List.mem_cons_self, rfl, rfl⟩
    · exact List.forall_mem_singleton.mpr fun _ => ⟨_, List.mem_cons_self, rfl⟩
  · obtain ⟨keyed, hkeyed, hgathered, -⟩ :=
      exists_gathered_of_groups hbreakouts h
    have hkeyed' := mapM_keyRow_filter hkeyed keep
    obtain ⟨kept, hkept⟩ : ∃ kept, db.groups breakouts (rows.filter keep) =
        .ok kept :=
      ⟨_, groups_eq_ok_iff.mpr ⟨_,
        groupRows_eq_ok_iff.mpr ⟨_, hkeyed', rfl⟩, rfl⟩⟩
    obtain ⟨_, hsame, hgathered', -⟩ :=
      exists_gathered_of_groups hbreakouts hkept
    cases hkeyed'.symm.trans hsame
    refine ⟨kept, hkept, ?_, ?_⟩
    · intro g' hg'
      obtain ⟨key, hkey, hsameKey⟩ := hgathered'.exists_key hg'
      have hmem : key ∈ keyed.map Prod.fst :=
        (List.filter_sublist.map Prod.fst).subset hkey
      obtain ⟨g, hg, hsameKey'⟩ := hgathered.exists_group hmem
      rw [sameKey_iff] at hsameKey hsameKey'
      exact ⟨g, hg,
        hgathered.keepsOf hgathered' hg hg' (hsameKey'.trans hsameKey.symm)⟩
    · intro g hg hne
      obtain ⟨row, hrow⟩ := List.exists_mem_of_ne_nil _ hne
      obtain ⟨hrow, hkeep⟩ := List.mem_filter.mp hrow
      rw [hgathered.rows_eq g hg] at hrow
      obtain ⟨p, hp, rfl⟩ := List.mem_map.mp hrow
      obtain ⟨hp, hcontents⟩ := List.mem_filter.mp hp
      obtain ⟨g', hg', hsameKey⟩ := hgathered'.exists_group
        (List.mem_map_of_mem (List.mem_filter.mpr ⟨hp, hkeep⟩))
      rw [sameKey_iff] at hsameKey
      refine ⟨g', hg', sameKey_iff.mpr ?_⟩
      exact (hsameKey.trans (of_decide_eq_true hcontents)).symm

theorem exists_group_of_mem {breakouts : List Breakout} {rows : List Row}
    {found : List Group} (h : db.groups breakouts rows = .ok found) {row : Row}
    (hrow : row ∈ rows) : ∃ g ∈ found, row ∈ g.rows := by
  by_cases hbreakouts : breakouts = []
  · subst hbreakouts
    cases (groups_nil rows).symm.trans h
    exact ⟨_, List.mem_cons_self, hrow⟩
  · obtain ⟨keyed, hkeyed, hgathered, -⟩ :=
      exists_gathered_of_groups hbreakouts h
    obtain ⟨keyOf, hkeyOf, hkey⟩ :=
      exists_of_mem_forall₂ (mapM_eq_ok_iff.mp hkeyed).flip hrow
    obtain ⟨-, rfl⟩ := keyRow_eq_ok_iff.mp hkey
    obtain ⟨g, hg, hsameKey⟩ :=
      hgathered.exists_group (List.mem_map_of_mem hkeyOf)
    refine ⟨g, hg, ?_⟩
    rw [hgathered.rows_eq g hg]
    refine List.mem_map_of_mem (List.mem_filter.mpr ⟨hkeyOf, decide_eq_true ?_⟩)
    exact (sameKey_iff.mp hsameKey).symm

/-! ## Aggregations under a condition -/

theorem evalGroup_conditional {e e' : Expression}
    (h : Expression.Conditional p e e') {rows hits : List Row}
    (hhits : db.matching p rows = .ok hits) (done : List Cell) :
    db.evalGroup hits done e' = db.evalGroup rows done e := by
  cases h with
  | sum x =>
      have hmatching : db.hits rows .sumIf [x, p] 1 = .ok hits := hhits
      have hsumIf : db.evalGroup rows done (.call .sumIf [x, p]) = do
          let found ← db.hits rows .sumIf [x, p] 1
          return ofNumber?
            (← Statistics.sum (← db.numbersOf found .sumIf [x, p] 0)) := rfl
      rw [hsumIf, hmatching]
      rfl
  | count =>
      have hmatching : db.hits rows .countIf [p] 0 = .ok hits := hhits
      have hcountIf : db.evalGroup rows done (.call .countIf [p]) = do
          return .ofCount (← db.hits rows .countIf [p] 0).length := rfl
      rw [hcountIf, hmatching]
      rfl

theorem exists_hits_of_evalGroup {e e' : Expression}
    (h : Expression.Conditional p e e') {rows : List Row} {done : List Cell}
    {cell : Cell} (heval : db.evalGroup rows done e = .ok cell) :
    ∃ hits, db.matching p rows = .ok hits := by
  cases h with
  | sum x =>
      obtain ⟨hits, hhits, -⟩ := bind_eq_ok_iff.mp heval
      exact ⟨hits, hhits⟩
  | count =>
      obtain ⟨hits, hhits, -⟩ := bind_eq_ok_iff.mp heval
      exact ⟨hits, hhits⟩

theorem aggregations_conditional {aggs aggs' : List Aggregation}
    (h : List.Forall₂ (Aggregation.Conditional p) aggs aggs')
    {rows hits : List Row} (hhits : db.matching p rows = .ok hits)
    (done : List Cell) :
    db.aggregations hits done aggs' = db.aggregations rows done aggs := by
  induction h generalizing done with
  | nil => rfl
  | cons hconditional _ ih =>
      rw [aggregations, aggregations, evalGroup_conditional hconditional hhits]
      simp only [ih]

theorem isCumulative_conditional {e e' : Expression}
    (h : Expression.Conditional p e e') :
    isCumulative e = false ∧ isCumulative e' = false := by
  cases h <;> exact ⟨rfl, rfl⟩

theorem accumulateAll_conditional {aggs aggs' : List Aggregation}
    (h : List.Forall₂ (Aggregation.Conditional p) aggs aggs') (first : Nat)
    (rows : List (List Cell)) :
    accumulateAll first aggs rows = .ok rows ∧
      accumulateAll first aggs' rows = .ok rows := by
  induction h generalizing first with
  | nil => exact ⟨rfl, rfl⟩
  | cons hconditional _ ih =>
      obtain ⟨hplain, hplain'⟩ := isCumulative_conditional hconditional
      rw [accumulateAll, accumulateAll, hplain, hplain']
      exact ih (first + 1)

/-- Over no rows a sum is null and a count is zero. -/
theorem evalGroup_of_no_hits {rows : List Row}
    (hhits : db.matching p rows = .ok []) (done : List Cell) :
    (∀ x, db.evalGroup rows done (.call .sumIf [x, p]) = .ok .null) ∧
      db.evalGroup rows done (.call .countIf [p]) = .ok (.ofCount 0) :=
  ⟨fun x => (evalGroup_conditional (.sum x) hhits done).symm,
    (evalGroup_conditional .count hhits done).symm⟩

theorem GroupRow.cells_of_no_hits {aggs : List Aggregation} {g : Group}
    {row : List Cell} {width i : Nat} {a : Aggregation}
    (h : GroupRow db aggs g row) (hkey : g.key.length = width)
    (hhits : db.matching p g.rows = .ok []) (ha : aggs[i]? = some a) :
    (∀ x, a.expression = .call .sumIf [x, p] → row[width + i]? = some .null) ∧
      (a.expression = .call .countIf [p] →
        row[width + i]? = some (.ofCount 0)) := by
  obtain ⟨cell, hcell, heval⟩ := h.exists_cell hkey ha
  obtain ⟨hsum, hcount⟩ := evalGroup_of_no_hits hhits ((row.drop width).take i)
  rw [hcell]
  constructor
  · intro x hx
    rw [hx, hsum] at heval
    cases heval
    rfl
  · intro hx
    rw [hx, hcount] at heval
    cases heval
    rfl

section

variable {aggs aggs' : List Aggregation}
  (haggs : List.Forall₂ (Aggregation.Conditional p) aggs aggs')
  (hne : aggs ≠ []) {g g' : Group} {row : List Cell} {width : Nat}

include haggs hne

theorem GroupRow.matching_eq (h : GroupRow db aggs g row) :
    db.matching p g.rows = .ok (g.rows.filter (db.holdsOf · p)) := by
  cases haggs with
  | nil => exact absurd rfl hne
  | cons hconditional _ =>
      obtain ⟨values, hvalues, -⟩ := h
      obtain ⟨cell, hcell, -⟩ := bind_eq_ok_iff.mp hvalues
      obtain ⟨hits, hhits⟩ := exists_hits_of_evalGroup hconditional hcell
      rw [hhits, (matching_eq_ok_iff.mp hhits).2]

theorem GroupRow.keepsOf (h : GroupRow db aggs g row)
    (hkeeps : g.KeepsOf (db.holdsOf · p) g') (hkey : g.key.length = width)
    (hkey' : g'.key.length = width) :
    ∃ row', GroupRow db aggs' g' row' ∧
      sameKey (row.take width) (row'.take width) = true ∧
      row.drop width = row'.drop width := by
  have hmatching := GroupRow.matching_eq haggs hne h
  obtain ⟨values, hvalues, rfl⟩ := h
  obtain ⟨hsameKey, hrows⟩ := hkeeps
  have hvalues' : db.aggregations g'.rows [] aggs' = .ok values := by
    rw [hrows, aggregations_conditional haggs hmatching, hvalues]
  refine ⟨_, ⟨values, hvalues', rfl⟩, ?_, ?_⟩
  · rwa [← hkey, List.take_left, hkey, ← hkey', List.take_left]
  · rw [← hkey, List.drop_left, hkey, ← hkey', List.drop_left]

end

/-! ## Runs -/

theorem exists_forall₂ {α β : Type} {R : α → β → Prop} {as : List α}
    (h : ∀ a ∈ as, ∃ b, R a b) : ∃ bs, List.Forall₂ R as bs := by
  induction as with
  | nil => exact ⟨[], .nil⟩
  | cons a as ih =>
      obtain ⟨⟨b, hb⟩, hrest⟩ := List.forall_mem_cons.mp h
      obtain ⟨bs, hbs⟩ := ih hrest
      exact ⟨b :: bs, .cons hb hbs⟩

/-- Whether a row has the key and the values of one of the rows. -/
def SharedBy (width : Nat) (rows : List (List Cell))
    (row' : List Cell) : Prop :=
  ∃ row ∈ rows, sameKey (row.take width) (row'.take width) = true ∧
    row.drop width = row'.drop width

variable {q : Query} {r : ResultSet} {passing : List Row} {found : List Group}
  {computed totalled : List (List Cell)} {aggs : List Aggregation}

theorem Summary.evaluates (h : Summary db q passing found computed totalled)
    (haggs : List.Forall₂ (Aggregation.Conditional p) q.stage.aggregations aggs)
    (hne : q.stage.aggregations ≠ []) :
    ∀ row ∈ passing, db.Evaluates row p := by
  intro row hrow
  obtain ⟨g, hg, hmem⟩ := exists_group_of_mem h.groups_eq hrow
  obtain ⟨_, -, hgroup⟩ := exists_of_mem_forall₂ h.groupRows.flip hg
  exact (matching_eq_ok_iff.mp (GroupRow.matching_eq haggs hne hgroup)).1
    row hmem

theorem Summary.exists_row (h : Summary db q passing found computed totalled)
    (hbreakouts : q.stage.breakouts = []) : ∃ row, computed = [row] := by
  have hfound := h.groups_eq
  rw [hbreakouts, groups_nil, Except.ok.injEq] at hfound
  have hlength := h.groupRows.length_eq
  rw [← hfound, List.length_singleton] at hlength
  exact List.length_eq_one_iff.mp hlength.symm

theorem Summary.filtered (h : Summary db q passing found computed totalled)
    (haggs : List.Forall₂ (Aggregation.Conditional p) q.stage.aggregations aggs)
    (hne : q.stage.aggregations ≠ []) :
    ∃ kept computed',
      Summary db (q.filtered p aggs) (passing.filter (db.holdsOf · p)) kept
        computed' computed' ∧
      (∀ row' ∈ computed', SharedBy q.stage.breakouts.length computed row') ∧
      ∀ g ∈ found, g.rows.filter (db.holdsOf · p) ≠ [] →
        ∃ row' ∈ computed', sameKey g.key (row'.take q.stage.breakouts.length) =
          true := by
  obtain ⟨kept, hkept, hkeeps, hstays⟩ :=
    groups_filter h.groups_eq (db.holdsOf · p)
  have hlink : ∀ g' ∈ kept, ∃ row', GroupRow db aggs g' row' ∧
      SharedBy q.stage.breakouts.length computed row' := by
    intro g' hg'
    obtain ⟨g, hg, hkeepsOf⟩ := hkeeps g' hg'
    obtain ⟨row, hrow, hgroup⟩ := exists_of_mem_forall₂ h.groupRows.flip hg
    obtain ⟨row', hgroup', hsame⟩ := GroupRow.keepsOf haggs hne hgroup hkeepsOf
      (length_key h.groups_eq hg) (length_key hkept hg')
    exact ⟨row', hgroup', row, hrow, hsame⟩
  obtain ⟨computed', hcomputed'⟩ := exists_forall₂ hlink
  have hstage : (q.filtered p aggs).stage = q.stage.filtered p aggs :=
    q.stage_withStage _
  refine ⟨kept, computed', ?_, ?_, ?_⟩
  · obtain ⟨source, hsource, hprepared⟩ := h.prepare_eq
    constructor
    case prepare_eq =>
        rw [hstage, Query.filtered, sourceRows_withStage]
        exact ⟨source, hsource,
          prepare_filtered aggs hprepared (h.evaluates haggs hne)⟩
    case groups_eq => rwa [hstage]
    case groupRows =>
        rw [hstage]
        exact hcomputed'.imp fun _ _ hrow => hrow.1
    case accumulate_eq =>
        rw [hstage]
        exact (accumulateAll_conditional haggs _ _).2
  · intro row' hrow'
    obtain ⟨_, -, -, hshared⟩ := exists_of_mem_forall₂ hcomputed' hrow'
    exact hshared
  · intro g hg hrows
    obtain ⟨g', hg', hsameKey⟩ := hstays g hg hrows
    obtain ⟨row', hrow', hgroup', -⟩ :=
      exists_of_mem_forall₂ hcomputed'.flip hg'
    exact ⟨row', hrow', by rwa [hgroup'.key_eq (length_key hkept hg')]⟩

theorem unsorted_eq (horder : q.stage.orderBy = [])
    (hlimit : q.stage.limit = none) : q.unsorted = q := by
  have hstage : q.stage.unsorted = q.stage := by
    rw [Stage.unsorted, ← horder, ← hlimit]
  rw [Query.unsorted, hstage, Query.withStage_stage]

/-- A query without sorts and limit whose aggregations all have one condition,
and the query that filters by the condition instead.  The second one runs if the
first one does.  Each of its rows has the key and the values of a row of the
first; the rows of the first that are missing are those of groups in which the
condition holds nowhere; and without breakouts both have the same row. -/
theorem run_filtered
    (haggs : List.Forall₂ (Aggregation.Conditional p) q.stage.aggregations aggs)
    (hne : q.stage.aggregations ≠ []) (horder : q.stage.orderBy = [])
    (hlimit : q.stage.limit = none) (hr : db.run q = .ok r) :
    ∃ r', db.run (q.filtered p aggs) = .ok r' ∧
      (∀ row' ∈ r'.rows, ∃ row ∈ r.rows,
        sameKey (row.take q.stage.breakouts.length)
          (row'.take q.stage.breakouts.length) = true ∧
        row.drop q.stage.breakouts.length =
          row'.drop q.stage.breakouts.length) ∧
      (∀ row ∈ r.rows,
        (∀ row' ∈ r'.rows, sameKey (row.take q.stage.breakouts.length)
          (row'.take q.stage.breakouts.length) = false) →
        ∀ i a, q.stage.aggregations[i]? = some a →
          (∀ x, a.expression = .call .sumIf [x, p] →
            row[q.stage.breakouts.length + i]? = some .null) ∧
          (a.expression = .call .countIf [p] →
            row[q.stage.breakouts.length + i]? = some (.ofCount 0))) ∧
      (q.stage.breakouts = [] → ∃ row, r.rows = [row] ∧ r'.rows = [row]) := by
  have hs : q.stage.isSummarized := by simp [Stage.isSummarized, hne]
  obtain ⟨passing, found, computed, totalled, sorted, hsummary, -,
      hsorted, hrows⟩ :=
    exists_summary_of_run hs hr
  rw [horder, sortGroups_nil, Except.ok.injEq] at hsorted
  have htotalled : computed = totalled :=
    Except.ok.inj
      ((accumulateAll_conditional haggs _ _).1.symm.trans
        hsummary.accumulate_eq)
  rw [hlimit, ← hsorted, ← htotalled] at hrows
  obtain ⟨kept, computed', hsummary', hshared, hstays⟩ :=
    hsummary.filtered haggs hne
  have hstage : (q.filtered p aggs).stage = q.stage.filtered p aggs :=
    q.stage_withStage _
  have hs' : (q.filtered p aggs).stage.isSummarized := by
    rw [hstage]
    have hne' : aggs ≠ [] := by
      rintro rfl
      exact hne (List.forall₂_nil_right_iff.mp haggs)
    simp [Stage.isSummarized, Stage.filtered, hne']
  obtain ⟨entries, hentries⟩ :=
    exists_outputColumns_withStage hr (q.stage.filtered p aggs)
  have hrun := hsummary'.run_unsorted hs' hentries
  rw [unsorted_eq (by rw [hstage]; exact horder) (by rw [hstage]; exact hlimit)]
    at hrun
  refine ⟨_, hrun, ?_, ?_, ?_⟩
  · rw [hrows]
    exact hshared
  · rw [hrows]
    intro row hrow hmissing i a ha
    obtain ⟨g, hg, hgroup⟩ := exists_of_mem_forall₂ hsummary.groupRows hrow
    have hkey := length_key hsummary.groups_eq hg
    have hnone : g.rows.filter (db.holdsOf · p) = [] := by
      by_contra hsome
      obtain ⟨row', hrow', hsameKey⟩ := hstays g hg hsome
      rw [← hgroup.key_eq hkey, hmissing row' hrow'] at hsameKey
      cases hsameKey
    have hhits := GroupRow.matching_eq haggs hne hgroup
    rw [hnone] at hhits
    exact hgroup.cells_of_no_hits hkey hhits ha
  · intro hbreakouts
    obtain ⟨row, hrow⟩ := hsummary.exists_row hbreakouts
    obtain ⟨row', hrow'⟩ :=
      hsummary'.exists_row (by rw [hstage]; exact hbreakouts)
    obtain ⟨_, hmem, -, hvalues⟩ :=
      hshared row' (by rw [hrow']; exact List.mem_cons_self)
    rw [hrow, List.mem_singleton] at hmem
    rw [hbreakouts, hmem] at hvalues
    refine ⟨row, hrows.trans hrow, ?_⟩
    rw [rows_ofEntries, hrow', ← show row = row' from hvalues]

/-! ### Fees of two or more, by month -/

def fee : Expression := .column (.field 11)

def twoOrMore : Expression := .binary .ge fee (.number (.ofNat 2))

def feesByMonth : Query :=
  .ofTable 1 {
    aggregations := [⟨.call .sumIf [fee, twoOrMore], none, []⟩,
      ⟨.call .countIf [twoOrMore], none, []⟩]
    breakouts := [⟨.field 10, some .month⟩] }

theorem run_feesByMonth :
    ∃ columns, visits.run feesByMonth = .ok ⟨columns, [
      [.temporal "2024-01-01", .ofCount 2, .ofCount 1],
      [.temporal "2024-02-01", .null, .ofCount 0]]⟩ := by
  have hgroups : visits.groups feesByMonth.stage.breakouts
      (januaryGroup.rows ++ februaryGroup.rows ++
        [.ofRecord (visit "2024-02-29" (.ofCount 0))]) =
      .ok [⟨[.temporal "2024-01-01"], januaryGroup.rows⟩,
        ⟨[.temporal "2024-02-01"],
        februaryGroup.rows ++ [.ofRecord (visit "2024-02-29" (.ofCount 0))]⟩] :=
    groups_eq_ok_iff.mpr ⟨_, rfl, List.mergeSort_of_pairwise (by decide)⟩
  have hsummary :=
    (@summarize_eq_ok_iff visits (feesByMonth.outputColumns visits.catalog)
      feesByMonth.stage _ _).mpr
    ⟨_, hgroups, _, .cons ⟨_, rfl, rfl⟩ (.cons ⟨_, rfl, rfl⟩ .nil), _, rfl, _,
      rfl, _, rfl, rfl⟩
  exact ⟨_, run_eq_ok_iff.mpr ⟨_, rfl,
    (runStage_eq_ok_iff rfl).mpr ⟨_, rfl, _, hsummary, rfl⟩⟩⟩

theorem run_filtered_feesByMonth :
    ∃ r', visits.run
      (feesByMonth.filtered twoOrMore [⟨.call .sum [fee], none, []⟩,
        ⟨.call .count [], none, []⟩]) = .ok r' ∧
      ∀ row' ∈ r'.rows,
        sameKey [.temporal "2024-01-01"] (row'.take 1) = true ∧
          row'.drop 1 = [.ofCount 2, .ofCount 1] ∨
        sameKey [.temporal "2024-02-01"] (row'.take 1) = true ∧
          row'.drop 1 = [.null, .ofCount 0] := by
  obtain ⟨columns, hrun⟩ := run_feesByMonth
  have haggs : List.Forall₂ (Aggregation.Conditional twoOrMore)
      feesByMonth.stage.aggregations [⟨.call .sum [fee], none, []⟩,
        ⟨.call .count [], none, []⟩] :=
    .cons (.sum fee) (.cons .count .nil)
  have hne : feesByMonth.stage.aggregations ≠ [] := List.cons_ne_nil _ _
  obtain ⟨r', hr', hshared, -⟩ := run_filtered haggs hne rfl rfl hrun
  refine ⟨r', hr', fun row' hrow' => ?_⟩
  obtain ⟨row, hrow, hkey, hvalues⟩ := hshared row' hrow'
  rcases List.mem_cons.mp hrow with rfl | hrow
  · exact .inl ⟨hkey, hvalues.symm⟩
  · cases List.mem_singleton.mp hrow
    exact .inr ⟨hkey, hvalues.symm⟩

end Database

end TableQuery
