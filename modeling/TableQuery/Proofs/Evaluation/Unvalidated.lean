import TableQuery.Proofs.Evaluation.Safety
import TableQuery.Proofs.Evaluation.Sorting
import TableQuery.Proofs.Wire.Settled

/-!
# Queries that are run as they are read

A query may be run without being validated.  Of all the places that a run looks
in, only one can then be missing from a row: the column of a sort on an
aggregation that is not there.  It is looked for when two groups are compared
that the sorts before it leave tied, and the run is given up.
-/

namespace TableQuery

/-! ## Ties -/

/-- In a sorted list, two items that are tied have two neighbours between them
that are. -/
theorem pairwise_not_iff_adjacent {α : Type} {le tied : α → α → Prop}
    {l : List α} (hsorted : l.Pairwise le)
    (hsqueeze : ∀ a ∈ l, ∀ b ∈ l, ∀ c ∈ l, le a b → le b c →
      tied a c → tied a b) :
    (l.Pairwise fun a b => ¬tied a b) ↔ ∀ p ∈ l.zip (l.drop 1),
    ¬tied p.1 p.2 := by
  induction l with
  | nil => simp
  | cons a l ih =>
      obtain ⟨ha, hl⟩ := List.pairwise_cons.mp hsorted
      have hrest := ih hl fun a' ha' b' hb' c' hc' =>
        hsqueeze a' (List.mem_cons_of_mem a ha') b'
          (List.mem_cons_of_mem a hb') c' (List.mem_cons_of_mem a hc')
      cases l with
      | nil => simp
      | cons b l =>
          rw [List.pairwise_cons, hrest]
          simp only [List.drop_succ_cons, List.drop_zero, List.zip_cons_cons,
            List.forall_mem_cons]
          refine and_congr_left' ⟨And.left,
            fun hb => ⟨hb, fun c hc htied => hb ?_⟩⟩
          exact hsqueeze a (by simp) b (by simp) c (by simp [hc])
            (ha b List.mem_cons_self) ((List.pairwise_cons.mp hl).1 c hc) htied

theorem compareKeys_take (directions : List Direction) (as bs : List Cell) :
    compareKeys (directions.take as.length) as bs =
      compareKeys directions as bs := by
  induction directions generalizing as bs with
  | nil => simp
  | cons d directions ih =>
      cases as with
      | nil => cases bs <;> rfl
      | cons a as => cases bs <;> simp [compareKeys, ih]

theorem sortByKey_congr {α : Type} {directions directions' : List Direction}
    {key key' : α → List Cell} {items : List α}
    (h : ∀ a ∈ items, ∀ b ∈ items,
      compareKeys directions (key a) (key b) =
        compareKeys directions' (key' a) (key' b)) :
    sortByKey directions key items = sortByKey directions' key' items := by
  have hsorted := List.map_mergeSort (f := id)
    (r := fun a b => (compareKeys directions (key a) (key b)).isLE)
    (s := fun a b => (compareKeys directions' (key' a) (key' b)).isLE)
    (l := items) fun a ha b hb => by rw [h a ha b hb, id, id]
  simpa [sortByKey] using hsorted

theorem compareKeys_isEq_iff {directions : List Direction} {as bs : List Cell}
    (ha : as.length = directions.length) (hb : bs.length = directions.length) :
    (compareKeys directions as bs).isEq = true ↔ KeySame as bs := by
  induction directions generalizing as bs with
  | nil =>
      rw [List.length_eq_zero_iff.mp ha, List.length_eq_zero_iff.mp hb]
      exact iff_of_true rfl rfl
  | cons d directions ih =>
      obtain ⟨a, as, rfl⟩ := List.exists_cons_of_length_eq_add_one ha
      obtain ⟨b, bs, rfl⟩ := List.exists_cons_of_length_eq_add_one hb
      have hrest := @ih as bs (by simpa using ha) (by simpa using hb)
      rw [Ordering.isEq_iff_eq_eq] at hrest ⊢
      rw [compareKeys, Ordering.then_eq_eq, Direction.compare_eq_eq_iff, hrest,
        KeySame, KeySame, List.map_cons, List.map_cons, List.cons.injEq]

namespace Database

def TiedIn (columns : List Nat) (a b : List Cell) : Prop :=
  ∀ c ∈ columns, a[c]?.map Cell.place = b[c]?.map Cell.place

variable {columns before after : List Nat} {directions : List Direction}
  {width c : Nat} {a b : List Cell} {rows : List (List Cell)}

theorem keySame_cellsAt_iff (ha : ∀ c ∈ columns, c < a.length)
    (hb : ∀ c ∈ columns, c < b.length) :
    KeySame (cellsAt columns a) (cellsAt columns b) ↔ TiedIn columns a b := by
  have hcells : ∀ row : List Cell, (∀ c ∈ columns, c < row.length) →
      ((cellsAt columns row).map Cell.place).map some =
        columns.map fun c => row[c]?.map Cell.place := by
    intro row hrow
    calc ((cellsAt columns row).map Cell.place).map some
      _ = ((cellsAt columns row).map some).map (Option.map Cell.place) := by
          rw [List.map_map, List.map_map]
          rfl
      _ = columns.map fun c => row[c]?.map Cell.place := by
          rw [cellsAt_eq hrow, List.map_map]
          rfl
  rw [KeySame, TiedIn, ← List.map_inj_left, ← hcells a ha, ← hcells b hb,
    (List.map_injective_iff.mpr (Option.some_injective _)).eq_iff]

theorem cellsAt_append_cons {row : List Cell}
    (hbefore : ∀ c' ∈ before, c' < row.length) (hc : row.length ≤ c) :
    cellsAt (before ++ c :: after) row = cellsAt before row := by
  induction before with
  | nil => simp [cellsAt, List.getElem?_eq_none hc]
  | cons c' before ih =>
      obtain ⟨hc', hrest⟩ := List.forall_mem_cons.mp hbefore
      have ih := ih hrest
      rw [cellsAt, cellsAt] at ih ⊢
      simpa [List.getElem?_eq_getElem hc'] using ih

/-! ### Columns up to a missing one -/

section Missing

variable (hbefore : ∀ c' ∈ before, c' < width)
include hbefore

theorem length_cellsAt_take (hdirections : before.length ≤ directions.length)
    (ha : a.length = width) :
    (cellsAt before a).length = (directions.take before.length).length := by
  subst ha
  rw [length_cellsAt hbefore, List.length_take, Nat.min_eq_left hdirections]

variable (hc : width ≤ c)
include hc

/-- Up to a missing column, rows are compared as if the sorts ended there. -/
theorem compareKeys_append_cons (ha : a.length = width)
    (hb : b.length = width) :
    compareKeys directions (cellsAt (before ++ c :: after) a)
        (cellsAt (before ++ c :: after) b) =
      compareKeys (directions.take before.length) (cellsAt before a)
        (cellsAt before b) := by
  subst ha
  rw [cellsAt_append_cons hbefore hc,
    cellsAt_append_cons (hb ▸ hbefore) (hb ▸ hc), ← compareKeys_take,
    length_cellsAt hbefore]

variable (hdirections : before.length ≤ directions.length)
include hdirections

theorem leavesRow_iff (ha : a.length = width) (hb : b.length = width) :
    leavesRow directions (before ++ c :: after) a b = true ↔
      TiedIn before a b := by
  have hshort : (cellsAt (before ++ c :: after) a).length <
      (before ++ c :: after).length := by
    rw [cellsAt_append_cons (ha ▸ hbefore) (ha ▸ hc),
      length_cellsAt (ha ▸ hbefore), List.length_append, List.length_cons]
    omega
  rw [leavesRow, decide_eq_true hshort, Bool.true_or, Bool.true_and,
    compareKeys_append_cons hbefore hc ha hb,
    compareKeys_isEq_iff (length_cellsAt_take hbefore hdirections ha)
      (length_cellsAt_take hbefore hdirections hb),
    keySame_cellsAt_iff (ha ▸ hbefore) (hb ▸ hbefore)]

/-- Rows are compared in a missing column if and only if two of them are tied in
those before. -/
theorem any_leavesRow_iff (hrows : ∀ row ∈ rows, row.length = width)
    {sorted : List (List Cell)}
    (hsorted : sortByKey directions (cellsAt (before ++ c :: after)) rows =
      sorted) :
    ((sorted.zip (sorted.drop 1)).any fun (a, b) =>
        leavesRow directions (before ++ c :: after) a b) = true ↔
      ¬rows.Pairwise fun a b => ¬TiedIn before a b := by
  have hperm : sorted.Perm rows := hsorted ▸ perm_sortByKey directions _ rows
  have hwidth : ∀ row ∈ sorted, row.length = width :=
    fun row hrow => hrows row (hperm.mem_iff.mp hrow)
  have hlength : ∀ row ∈ sorted, (cellsAt before row).length =
      (directions.take before.length).length :=
    fun row hrow => length_cellsAt_take hbefore hdirections (hwidth row hrow)
  have hpairwise : sorted.Pairwise fun a b =>
      KeyLE (directions.take before.length) (cellsAt before a)
        (cellsAt before b) := by
    rw [← hsorted, sortByKey_congr fun a ha b hb =>
      compareKeys_append_cons hbefore hc (hrows a ha) (hrows b hb)]
    exact pairwise_sortByKey fun row hrow =>
      hlength row (hperm.mem_iff.mpr hrow)
  have hsymm : ∀ a b : List Cell, ¬TiedIn before a b → ¬TiedIn before b a :=
    fun a b h h' => h fun c hc => (h' c hc).symm
  rw [← hperm.pairwise_iff fun {a b} => hsymm a b,
    pairwise_not_iff_adjacent hpairwise]
  · rw [List.any_eq_true]
    push Not
    refine exists_congr fun p => and_congr_right fun hp => ?_
    obtain ⟨ha, hb⟩ := List.of_mem_zip hp
    exact leavesRow_iff hbefore hc hdirections (hwidth _ ha)
      (hwidth _ (List.mem_of_mem_drop hb))
  · -- A row between two tied ones stands in their place.
    intro a ha b hb c' hc' hab hbc hac
    have htied : ∀ x ∈ sorted, ∀ y ∈ sorted,
        (KeySame (cellsAt before x) (cellsAt before y) ↔ TiedIn before x y) :=
      fun x hx y hy =>
        keySame_cellsAt_iff (hwidth x hx ▸ hbefore) (hwidth y hy ▸ hbefore)
    rw [← htied a ha c' hc'] at hac
    rw [← htied a ha b hb]
    have hba :=
      hbc.trans (.inr hac.symm) (hlength b hb) (hlength c' hc') (hlength a ha)
    exact hab.antisymm hba (hlength a ha) (hlength b hb)

end Missing

/-! ## Missing columns -/

end Database

def missingColumn : Set EvaluationError := {.aborted .missingColumn}

@[simp] theorem mem_missingColumn {e : EvaluationError} :
    e ∈ missingColumn ↔ e = .aborted .missingColumn := Iff.rfl

theorem missingColumn_subset_dangling : missingColumn ⊆ dangling := by
  rintro e rfl
  rfl

instance : SparesValues missingColumn where
  fault := fun _ => by simp
  interpolation := by simp
  dayCount := by simp
  catalog := by simp

theorem Stage.clausesAvoid_missingColumn (db : Database)
    (columns : Except CatalogError (List Entry)) (s : Stage) :
    s.ClausesAvoid db missingColumn columns where
  customColumn := fun c _ row =>
    (db.evalRow_avoids_dangling row c.expression).mono
      missingColumn_subset_dangling
  filter := fun predicate _ row =>
    (db.evalRow_avoids_dangling row predicate).mono
      missingColumn_subset_dangling
  aggregation := fun _ _ _ rows _ _ =>
    db.evalGroup_avoids missingColumn_subset_dangling rows fun _ _ =>
      .inr (by simp)
  breakout := fun b _ row =>
    (db.value_avoids_dangling row b.column).mono missingColumn_subset_dangling
  sort := fun _ _ id _ row =>
    (db.value_avoids_dangling row id).mono missingColumn_subset_dangling
  output := fun _ _ _ e _ row =>
    (db.value_avoids_dangling row e.identifier).mono
      missingColumn_subset_dangling

def Stage.width (s : Stage) : Nat := s.breakouts.length + s.aggregations.length

namespace Database

variable {db : Database} {q : Query} {s : Stage}

theorem orderColumn_avoids_missingColumn (breakouts : List Breakout)
    (o : OrderBy) : Avoids missingColumn (orderColumn breakouts o) := by
  unfold orderColumn
  repeat' split
  all_goals simp

theorem not_pairwise_not_iff {α : Type} {R : α → α → Prop} {l : List α} :
    (¬l.Pairwise fun a b => ¬R a b) ↔
      ∃ (i j : Nat) (a b : α), i < j ∧ l[i]? = some a ∧ l[j]? = some b ∧
      R a b := by
  rw [List.pairwise_iff_getElem]
  push Not
  constructor
  · rintro ⟨i, j, hi, hj, hij, hR⟩
    exact ⟨i, j, l[i], l[j], hij, List.getElem?_eq_getElem hi,
      List.getElem?_eq_getElem hj, hR⟩
  · rintro ⟨i, j, a, b, hij, ha, hb, hR⟩
    obtain ⟨hi, rfl⟩ := List.getElem?_eq_some_iff.mp ha
    obtain ⟨hj, rfl⟩ := List.getElem?_eq_some_iff.mp hb
    exact ⟨i, j, hi, hj, hij, hR⟩

/-- Whether rows are compared in a column that they do not have: two of them are
tied in the columns that they are sorted by before it. -/
def ComparedPastEnd (width : Nat) (columns : List Nat)
    (rows : List (List Cell)) : Prop :=
  (∃ c ∈ columns, width ≤ c) ∧
    ∃ (i j : Nat) (a b : List Cell), i < j ∧ rows[i]? = some a ∧
      rows[j]? = some b ∧ TiedIn (columns.takeWhile (· < width)) a b

theorem any_leavesRow_iff_comparedPastEnd
    (hdirections : columns.length ≤ directions.length)
    (hrows : ∀ row ∈ rows, row.length = width) {sorted : List (List Cell)}
    (hsorted : sortByKey directions (cellsAt columns) rows = sorted) :
    ((sorted.zip (sorted.drop 1)).any fun (a, b) =>
      leavesRow directions columns a b) = true ↔
      ComparedPastEnd width columns rows := by
  cases hfind : columns.find? (width ≤ ·) with
  | none =>
      have hlt : ∀ c ∈ columns, c < width := by
        intro c hc
        simpa using List.find?_eq_none.mp hfind c hc
      have hwidth : ∀ row ∈ sorted, ∀ c ∈ columns, c < row.length := by
        intro row hrow c hc
        rw [← hsorted, mem_sortByKey] at hrow
        rw [hrows row hrow]
        exact hlt c hc
      rw [any_leavesRow_eq_false hwidth]
      refine iff_of_false Bool.false_ne_true ?_
      rintro ⟨⟨c, hc, hle⟩, -⟩
      exact absurd (hlt c hc) (not_lt.mpr hle)
  | some c =>
      obtain ⟨hc, before, after, rfl, hbefore⟩ :=
        List.find?_eq_some_iff_append.mp hfind
      have hc : width ≤ c := of_decide_eq_true hc
      have hbefore : ∀ c' ∈ before, c' < width := by
        intro c' hc'
        simpa using hbefore c' hc'
      have hlength : before.length ≤ directions.length := by
        rw [List.length_append] at hdirections
        omega
      have htakeWhile : (before ++ c :: after).takeWhile (· < width) =
          before := by
        rw [List.takeWhile_append_of_pos fun c' hc' =>
          decide_eq_true (hbefore c' hc')]
        simp [hc]
      rw [any_leavesRow_iff hbefore hc hlength hrows hsorted,
        not_pairwise_not_iff, ComparedPastEnd, htakeWhile]
      exact (and_iff_right ⟨c, by simp, hc⟩).symm

theorem sortGroups_missingColumn_iff {breakouts : List Breakout}
    {orders : List OrderBy} (hrows : ∀ row ∈ rows, row.length = width) :
    sortGroups breakouts orders rows = .error (.aborted .missingColumn) ↔
      ∃ columns, orders.mapM (orderColumn breakouts) = .ok columns ∧
        ComparedPastEnd width columns rows := by
  have hcolumns : Avoids missingColumn (orders.mapM (orderColumn breakouts)) :=
    Avoids.mapM fun o _ => orderColumn_avoids_missingColumn breakouts o
  rw [sortGroups, hcolumns.bind_eq_error_iff rfl]
  refine exists_congr fun columns => and_congr_right fun hmap => ?_
  have hlength : columns.length ≤ (orders.map (·.direction)).length := by
    rw [List.length_map, (mapM_eq_ok_iff.mp hmap).length_eq]
  rw [← any_leavesRow_iff_comparedPastEnd hlength hrows rfl]
  dsimp only
  split
  case isTrue h => exact iff_of_true rfl h
  case isFalse h => exact iff_of_false (by simp [pure, Except.pure]) h

/-! ## Runs -/

/-- Whether a run of a query sorts groups of the last stage and compares two of
them in a column that is not there. -/
def ComparesPastEnd (db : Database) (q : Query) : Prop :=
  q.stage.isSummarized ∧ ∃ passing found computed totalled columns,
    Summary db q passing found computed totalled ∧
    q.stage.orderBy.mapM (orderColumn q.stage.breakouts) = .ok columns ∧
    ComparedPastEnd q.stage.width columns totalled

def RunsPastEnd (db : Database) : Query → Prop
  | .ofTable table stage => db.ComparesPastEnd (.ofTable table stage)
  | .ofQuery source stage =>
    RunsPastEnd db source ∨ db.ComparesPastEnd (.ofQuery source stage)

theorem summarize_missingColumn_iff {columns : Except CatalogError (List Entry)}
    {rows : List Row} :
    db.summarize columns s rows = .error (.aborted .missingColumn) ↔
      ∃ found, db.groups s.breakouts rows = .ok found ∧
      ∃ computed, List.Forall₂ (GroupRow db s.aggregations) found computed ∧
      ∃ totalled, accumulateAll s.breakouts.length s.aggregations computed =
        .ok totalled ∧
          sortGroups s.breakouts s.orderBy totalled =
          .error (.aborted .missingColumn) := by
  have hclauses := Stage.clausesAvoid_missingColumn db columns s
  have haggregations : ∀ rows,
      Avoids missingColumn (db.aggregations rows [] s.aggregations) :=
    fun rows => avoids_aggregations rows fun k a ha done hdone =>
      hclauses.aggregation k a ha rows done (by simpa using hdone)
  rw [summarize, (avoids_groups hclauses.breakout rows).bind_eq_error_iff rfl]
  refine exists_congr fun found => and_congr_right fun hfound => ?_
  have hcells : Avoids missingColumn (found.mapM fun g => do
      return g.key ++ (← db.aggregations g.rows [] s.aggregations)) :=
    Avoids.mapM fun g _ => by simp [haggregations]
  rw [hcells.bind_eq_error_iff rfl]
  simp only [mapM_eq_ok_iff, bind_eq_ok_iff, pure_eq_ok_iff]
  refine exists_congr fun computed => and_congr_right fun hcomputed => ?_
  have hwidth := length_groupRow (fun g hg => length_key hfound hg) hcomputed
  have htotals : Avoids missingColumn
      (accumulateAll s.breakouts.length s.aggregations computed) :=
    avoids_accumulateAll (Nat.le_refl _) hwidth
  rw [htotals.bind_eq_error_iff rfl]
  refine exists_congr fun totalled => and_congr_right fun _ => ?_
  rw [ite_bind, sortGroups_eq, bind_eq_error_iff]
  refine or_iff_left ?_
  rintro ⟨sorted, -, h⟩
  have hentries : Avoids missingColumn
      (columns.mapError EvaluationError.catalog) :=
    avoids_mapError_catalog columns
  rw [hentries.bind_eq_error_iff rfl] at h
  obtain ⟨entries, -, h⟩ := h
  cases h

theorem sortRows_avoids_missingColumn (orders : List OrderBy)
    (rows : List Row) : Avoids missingColumn (db.sortRows orders rows) := by
  have hkey : ∀ row, Avoids missingColumn (db.orderKey orders row) := by
    refine fun row => Avoids.mapM fun o _ => ?_
    cases o.target with
    | column id =>
        exact (db.value_avoids_dangling row id).mono
          missingColumn_subset_dangling
    | _ => simp
  simp [sortRows, Avoids.mapM, hkey]

theorem project_avoids_missingColumn
    (columns : Except CatalogError (List Entry)) (s : Stage) (rows : List Row) :
    Avoids missingColumn (db.project columns s rows) := by
  have hvalue : ∀ row id, Avoids missingColumn (db.value row id) :=
    fun row id =>
      (db.value_avoids_dangling row id).mono missingColumn_subset_dangling
  simp [project, sortRows_avoids_missingColumn, Avoids.mapM, hvalue]

theorem runStage_missingColumn_iff {columns : Except CatalogError (List Entry)}
    {rows : List Row} :
    db.runStage columns s rows = .error (.aborted .missingColumn) ↔
      s.isSummarized ∧ ∃ prepared, db.prepare s rows = .ok prepared ∧
        db.summarize columns s prepared = .error (.aborted .missingColumn) := by
  have hclauses := Stage.clausesAvoid_missingColumn db columns s
  rw [runStage, (avoids_prepare hclauses rows).bind_eq_error_iff rfl]
  by_cases hs : s.isSummarized
  · rw [and_iff_right hs]
    refine exists_congr fun prepared => and_congr_right fun _ => ?_
    rw [if_pos hs, bind_eq_error_iff]
    refine or_iff_left ?_
    rintro ⟨result, -, hlimit⟩
    split at hlimit <;> cases hlimit
  · refine iff_of_false ?_ fun h => hs h.1
    rintro ⟨prepared, -, h⟩
    rw [if_neg hs,
      (project_avoids_missingColumn columns s prepared).bind_eq_error_iff rfl]
      at h
    obtain ⟨result, -, hlimit⟩ := h
    split at hlimit <;> cases hlimit

theorem comparesPastEnd_iff {source : List Row}
    (hsource : db.sourceRows q = .ok source) :
    db.runStage (q.outputColumns db.catalog) q.stage source = .error
      (.aborted .missingColumn) ↔ db.ComparesPastEnd q := by
  rw [runStage_missingColumn_iff, ComparesPastEnd]
  refine and_congr_right fun _ => ?_
  simp only [summarize_missingColumn_iff]
  constructor
  · rintro ⟨passing, hpassing, found, hfound, computed, hcomputed, totalled,
      htotalled, hsort⟩
    have hsummary : Summary db q passing found computed totalled :=
      ⟨⟨source, hsource, hpassing⟩, hfound, hcomputed, htotalled⟩
    obtain ⟨columns, hcolumns, hcompared⟩ :=
      (sortGroups_missingColumn_iff hsummary.length_of_mem).mp hsort
    exact ⟨passing, found, computed, totalled, columns, hsummary,
      hcolumns, hcompared⟩
  · rintro ⟨passing, found, computed, totalled, columns, hsummary,
      hcolumns, hcompared⟩
    obtain ⟨source', hsource', hpassing⟩ := hsummary.prepare_eq
    cases hsource.symm.trans hsource'
    exact ⟨passing, hpassing, found, hsummary.groups_eq, computed,
      hsummary.groupRows, totalled, hsummary.accumulate_eq,
      (sortGroups_missingColumn_iff hsummary.length_of_mem).mpr
        ⟨columns, hcolumns, hcompared⟩⟩

theorem run_missingColumn_iff_runsPastEnd :
    db.run q = .error (.aborted .missingColumn) ↔ db.RunsPastEnd q := by
  induction q with
  | ofTable table stage =>
      rw [run, RunsPastEnd]
      cases htable : db.table? table with
      | none =>
          refine iff_of_false (by simp) ?_
          rintro ⟨-, _, _, _, _, _, hsummary, -⟩
          obtain ⟨source, hsource, -⟩ := hsummary.prepare_eq
          rw [sourceRows, htable] at hsource
          cases hsource
      | some data =>
          refine comparesPastEnd_iff ?_
          rw [sourceRows, htable]
  | ofQuery source stage ih =>
      rw [run, RunsPastEnd, bind_eq_error_iff, ih]
      refine or_congr_right ?_
      have hrows : db.sourceRows (.ofQuery source stage) = (do
          let result ← db.run source
          return result.rows.map (Row.ofCells (result.columns.map Prod.fst))) :=
          rfl
      cases hrun : db.run source with
      | error e =>
          refine iff_of_false (by simp) ?_
          rintro ⟨-, _, _, _, _, _, hsummary, -⟩
          obtain ⟨rows, hsource, -⟩ := hsummary.prepare_eq
          rw [hrows, hrun] at hsource
          cases hsource
      | ok result =>
          have hsource : db.sourceRows (.ofQuery source stage) =
              .ok (result.rows.map
                (Row.ofCells (result.columns.map Prod.fst))) := by
            rw [hrows, hrun]
            rfl
          simp only [Except.ok.injEq, exists_eq_left']
          exact comparesPastEnd_iff hsource

end Database

/-! ## Queries as they are read -/

namespace Wire

theorem exists_read_of_mem_listOfMember {α : Type}
    {read : String → Json → Except WireError α} {key : String}
    {members : Json.Members} {as : List α}
    (h : listOfMember read key members = .ok as) {a : α} (ha : a ∈ as) :
    ∃ item path, read path item = .ok a := by
  unfold listOfMember at h
  split at h
  case h_1 =>
      cases h
      cases ha
  case h_2 =>
      obtain ⟨items, -, h⟩ := bind_eq_ok_iff.mp h
      obtain ⟨item, -, path, hread⟩ :=
        exists_of_mem_forall₂ (forall₂_of_itemsOfJson h) ha
      exact ⟨item, path, hread⟩

theorem findable_of_queryOfJson {v : Json} {q : Query}
    (h : queryOfJson v = .ok q) :
    ∀ s ∈ q.stages, ∀ o ∈ s.orderBy, o.target.Findable s.breakouts := by
  have hstage : ∀ {members : Json.Members} {s : Stage},
      stageOfMembers members = .ok s →
      ∀ o ∈ s.orderBy, o.target.Findable s.breakouts := by
    intro members s hs o ho
    obtain ⟨item, path, hread⟩ :=
      exists_read_of_mem_listOfMember
        (readsStage_of_stageOfMembers hs).orderBy ho
    exact findable_of_orderByOfJson hread
  induction q generalizing v with
  | ofTable table stage =>
      obtain ⟨members, s, rfl, hs, ⟨_, _, -, -, heq⟩ | ⟨_, _, -, -, heq⟩⟩ :=
        queryOfJson_eq_ok h
      · cases heq
        intro s' hs'
        rw [List.mem_singleton.mp hs']
        exact hstage hs
      · cases heq
  | ofQuery source stage ih =>
      obtain ⟨members, s, rfl, hs, ⟨_, _, -, -, heq⟩ |
          ⟨_, _, -, hsource, heq⟩⟩ :=
        queryOfJson_eq_ok h
      · cases heq
      · cases heq
        intro s' hs'
        obtain hmem | hmem := List.mem_append.mp hs'
        · exact ih hsource s' hmem
        · rw [List.mem_singleton.mp hmem]
          exact hstage hs

end Wire

namespace Database

/-- Of the sorts of a query that is read from a document, only those on
aggregations that are not there look past the end of a row. -/
theorem exists_aggregation_of_width_le {s : Stage} {o : OrderBy}
    (hfindable : o.target.Findable s.breakouts) {c : Nat}
    (hcolumn : orderColumn s.breakouts o = .ok c) (hc : s.width ≤ c) :
    ∃ i, o.target = .aggregation i ∧ s.aggregations.length ≤ i := by
  unfold Stage.width at hc
  unfold orderColumn at hcolumn
  split at hcolumn
  case h_1 i htarget =>
      cases hcolumn
      rw [htarget] at hfindable
      obtain ⟨b, hb, -⟩ := hfindable
      have := (List.getElem?_eq_some_iff.mp hb).1
      omega
  case h_2 i htarget =>
      cases hcolumn
      exact ⟨i, htarget, by omega⟩
  case h_3 id htarget =>
      split at hcolumn
      case h_1 i hfound =>
          cases hcolumn
          have := (List.findIdx?_eq_some_iff_getElem.mp hfound).1
          omega
      case h_2 => cases hcolumn

/-- A query that is read from a document and run, validated or not, looks past
the end of a row if and only if some stage groups or aggregates, sorts on an
aggregation that it does not have, and comes to two rows that the sorts before
that one leave tied. -/
theorem run_missingColumn_iff {v : Json} {q : Query}
    (h : Wire.queryOfJson v = .ok q) (db : Database) :
    (db.run q = .error (.aborted .missingColumn) ↔ db.RunsPastEnd q) ∧
      ∀ s ∈ q.stages, ∀ o ∈ s.orderBy, ∀ c, orderColumn s.breakouts o = .ok c →
        s.width ≤ c → ∃ i, o.target = .aggregation i ∧
          s.aggregations.length ≤ i :=
  ⟨run_missingColumn_iff_runsPastEnd, fun s hs o ho _ hcolumn hc =>
    exists_aggregation_of_width_le (Wire.findable_of_queryOfJson h s hs o ho)
      hcolumn hc⟩

def countsByQuantity : Query :=
  .ofTable 1 {
    aggregations := [⟨.call .count [], none, []⟩]
    breakouts := [⟨.field 10, none⟩]
    orderBy := [⟨.desc, .aggregation 5⟩] }

def countsByQuantityDocument : Json :=
  .object [("source-table", .ofNat 1),
    ("aggregation", .array [Wire.taggedArray "count" []]),
    ("breakout", .array [Wire.taggedArray "field-id" [.ofNat 10]]),
    ("order-by",
      .array [Wire.taggedArray "desc"
        [Wire.taggedArray "aggregation" [.ofNat 5]]])]

theorem queryOfJson_countsByQuantityDocument :
    Wire.queryOfJson countsByQuantityDocument = .ok countsByQuantity := by
  rw [countsByQuantityDocument, Wire.queryOfJson]
  rfl

def mixedQuantities : Database :=
  quantities.insert 1 ⟨none, [[(10, .ofCount 5)], [(10, .ofCount 7)]]⟩

theorem run_countsByQuantity :
    mixedQuantities.run countsByQuantity =
      .error (.aborted .missingColumn) := by cbv

theorem run_missingColumn_iff_countsByQuantity :
    Wire.queryOfJson countsByQuantityDocument = .ok countsByQuantity ∧
      mixedQuantities.RunsPastEnd countsByQuantity ∧
      ¬quantities.RunsPastEnd countsByQuantity := by
  have h := queryOfJson_countsByQuantityDocument
  refine ⟨h, (run_missingColumn_iff h mixedQuantities).1.mp
    run_countsByQuantity, ?_⟩
  rw [← (run_missingColumn_iff h quantities).1]
  intro hrun
  have hok : (quantities.run countsByQuantity).toOption.isSome = true := by
    decide +kernel
  rw [hrun] at hok
  cases hok

theorem not_forall_run_finds_columns :
    ¬∀ (v : Json) (q : Query), Wire.queryOfJson v = .ok q → ∀ db : Database,
      db.run q ≠ .error (.aborted .missingColumn) :=
  fun h =>
    h _ _ queryOfJson_countsByQuantityDocument mixedQuantities
      run_countsByQuantity

end Database

end TableQuery
