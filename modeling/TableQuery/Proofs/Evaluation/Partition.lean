import TableQuery.Proofs.Evaluation.Gathering
import TableQuery.Proofs.Evaluation.Unsorted
import TableQuery.Sample

/-!
# Groups partition the rows

Every row that passes the filters is in the group of its key and in no other
one.  So a grouped result has each key once, and the sizes of the groups add up
to the number of rows.
-/

namespace TableQuery.Database

variable {db : Database} {q : Query} {r : ResultSet}

/-! ## Keys of rows -/

def BreakoutCell (db : Database) (row : Row) (b : Breakout)
    (cell : Cell) : Prop :=
  ∃ c, db.value row b.column = .ok c ∧
    (b.unit.map fun unit => c.bucket unit).getD (.ok c) = .ok cell

def RowTuple (db : Database) (breakouts : List Breakout) (row : Row)
    (key : List Cell) : Prop :=
  List.Forall₂ (db.BreakoutCell row) breakouts key

theorem rowTuple_of_groupKey {breakouts : List Breakout} {row : Row}
    {key : List Cell} (h : db.groupKey breakouts row = .ok key) :
    db.RowTuple breakouts row key := by
  rw [groupKey, mapM_eq_ok_iff] at h
  refine h.imp fun b cell hcell => ?_
  obtain ⟨c, hc, hcell⟩ := bind_eq_ok_iff.mp hcell
  refine ⟨c, hc, ?_⟩
  cases hunit : b.unit with
  | none =>
      rw [hunit] at hcell
      exact congrArg Except.ok (pure_eq_ok_iff.mp hcell)
  | some unit =>
      rw [hunit] at hcell
      exact mapError_eq_ok_iff.mp hcell

/-! ## Sizes of groups -/

theorem sum_length_insertRow (key : List Cell) (row : Row)
    (found : List Group) :
    ((insertRow key row found).map (·.rows.length)).sum =
      (found.map (·.rows.length)).sum + 1 := by
  induction found with
  | nil => rfl
  | cons g found ih =>
      rw [insertRow]
      split
      case isTrue =>
          simp only [List.map_cons, List.sum_cons, List.length_append,
            List.length_singleton]
          omega
      case isFalse =>
          rw [List.map_cons, List.sum_cons, ih, List.map_cons, List.sum_cons,
            Nat.add_assoc]

/-- Each row is counted in one group. -/
theorem sum_length_gather (keyed : List (List Cell × Row)) :
    ((gather keyed).map (·.rows.length)).sum = keyed.length := by
  induction keyed using List.reverseRecOn with
  | nil => rfl
  | append_singleton keyed p ih =>
      rw [gather, List.foldl_append, List.length_append, ← ih]
      exact sum_length_insertRow p.1 p.2 (gather keyed)

theorem Gathered.length_rows {keyed : List (List Cell × Row)}
    {found : List Group} (h : Gathered keyed found) {g : Group}
    (hg : g ∈ found) :
    g.rows.length = (keyed.map Prod.fst).countP (sameKey g.key) := by
  rw [h.rows_eq g hg, List.length_map, ← List.countP_eq_length_filter,
    List.countP_map]
  apply List.countP_congr
  intro p _
  rw [decide_eq_true_iff, Function.comp_apply, sameKey_iff, eq_comm]
  rfl

theorem Gathered.pairwise {keyed : List (List Cell × Row)} {found : List Group}
    (h : Gathered keyed found) :
    (found.map Group.key).Pairwise fun s t => sameKey s t = false := by
  rw [List.pairwise_map]
  refine (List.pairwise_map.mp h.nodup).imp fun hne => ?_
  rw [← Bool.not_eq_true, sameKey_iff]
  exact hne

theorem Gathered.exists_key {keyed : List (List Cell × Row)}
    {found : List Group} (h : Gathered keyed found) {g : Group}
    (hg : g ∈ found) : ∃ key ∈ keyed.map Prod.fst, sameKey g.key key := by
  obtain ⟨p, hp, hcontents⟩ :=
    List.mem_map.mp ((h.mem_iff _).mp (List.mem_map_of_mem hg))
  exact ⟨p.1, List.mem_map_of_mem hp, sameKey_iff.mpr hcontents.symm⟩

theorem Gathered.exists_group {keyed : List (List Cell × Row)}
    {found : List Group} (h : Gathered keyed found) {key : List Cell}
    (hkey : key ∈ keyed.map Prod.fst) : ∃ g ∈ found, sameKey g.key key := by
  obtain ⟨p, hp, rfl⟩ := List.mem_map.mp hkey
  obtain ⟨g, hg, hcontents⟩ := List.mem_map.mp
    ((h.mem_iff (p.1.map Cell.content)).mpr (List.mem_map.mpr ⟨p, hp, rfl⟩))
  exact ⟨g, hg, sameKey_iff.mpr hcontents⟩

theorem Gathered.perm {keyed : List (List Cell × Row)}
    {found found' : List Group} (h : Gathered keyed found)
    (hperm : found'.Perm found) : Gathered keyed found' where
  nodup := (hperm.map _).nodup_iff.mpr h.nodup
  mem_iff := fun contents => (hperm.map _).mem_iff.trans (h.mem_iff contents)
  rows_eq := fun g hg => h.rows_eq g (hperm.mem_iff.mp hg)

theorem exists_gathered_of_groups {breakouts : List Breakout} {rows : List Row}
    {found : List Group} (hbreakouts : breakouts ≠ [])
    (h : db.groups breakouts rows = .ok found) :
    ∃ keyed, rows.mapM (db.keyRow breakouts) = .ok keyed ∧
      Gathered keyed found ∧ (found.map (·.rows.length)).sum = rows.length := by
  obtain ⟨_, hgrouped, rfl⟩ := groups_eq_ok_iff.mp h
  obtain ⟨keyed, hkeyed, rfl⟩ := groupRows_eq_ok_iff.mp hgrouped
  rw [if_neg (by simp [hbreakouts])]
  have hperm :=
    perm_sortByKey (breakouts.map fun _ => .asc) Group.key (gather keyed)
  refine ⟨keyed, hkeyed, (gathered_gather keyed).perm hperm, ?_⟩
  rw [(mapM_eq_ok_iff.mp hkeyed).length_eq, ← sum_length_gather]
  exact (hperm.map _).sum_eq

/-! ## Counts -/

theorem Summary.column_count {passing : List Row} {found : List Group}
    {computed totalled : List (List Cell)}
    (h : Summary db q passing found computed totalled) {i : Nat}
    {a : Aggregation} (ha : q.stage.aggregations[i]? = some a)
    (hcount : a.expression = .call .count []) :
    column (q.stage.breakouts.length + i) totalled =
      found.map fun g => some (.ofCount g.rows.length) := by
  have hplain : cumulativeAt q.stage.breakouts.length q.stage.aggregations
      (q.stage.breakouts.length + i) = false := by
    rw [cumulativeAt_add ha, hcount]
    rfl
  rw [column_accumulateAll h.accumulate_eq hplain, column, eq_comm,
    ← List.forall₂_eq_eq_eq, List.forall₂_map_left_iff,
    List.forall₂_map_right_iff]
  refine (h.forall₂_cells ha).imp ?_
  rintro g row ⟨cell, hcell, heval⟩
  rw [hcount] at heval
  cases heval
  exact hcell.symm

/-- A query with breakouts and a count, without sorts and limit, has a row for
each key of the rows that pass, and in it their number. -/
theorem run_countsByKey {i : Nat} {a : Aggregation}
    (hbreakouts : q.stage.breakouts ≠ [])
    (ha : q.stage.aggregations[i]? = some a)
    (hcount : a.expression = .call .count []) (horder : q.stage.orderBy = [])
    (hlimit : q.stage.limit = none) (hr : db.run q = .ok r) :
    ∃ passing keys tuples counts,
      db.Passing q passing ∧
      List.Forall₂ (db.RowTuple q.stage.breakouts) passing keys ∧
      tuples = r.rows.map (·.take q.stage.breakouts.length) ∧
      tuples.Pairwise (fun s t => sameKey s t = false) ∧
      (∀ tuple ∈ tuples, ∃ key ∈ keys, sameKey tuple key) ∧
      (∀ key ∈ keys, ∃ tuple ∈ tuples, sameKey tuple key) ∧
      r.rows.map (·[q.stage.breakouts.length + i]?) =
        counts.map (fun n => some (.ofCount n)) ∧
      counts = tuples.map (fun tuple => keys.countP (sameKey tuple)) ∧
      counts.sum = passing.length := by
  have hs : q.stage.isSummarized := by simp [Stage.isSummarized, hbreakouts]
  obtain ⟨passing, found, computed, totalled, sorted, hsummary, -,
      hsorted, hrows⟩ :=
    exists_summary_of_run hs hr
  rw [horder, sortGroups_nil, Except.ok.injEq] at hsorted
  rw [hlimit, ← hsorted] at hrows
  obtain ⟨keyed, hkeyed, hgathered, hsum⟩ :=
    exists_gathered_of_groups hbreakouts hsummary.groups_eq
  have hkeys : List.Forall₂ (db.RowTuple q.stage.breakouts) passing
      (keyed.map Prod.fst) := by
    rw [List.forall₂_map_right_iff]
    exact (mapM_eq_ok_iff.mp hkeyed).imp fun _ _ hp =>
      rowTuple_of_groupKey (keyRow_eq_ok_iff.mp hp).1
  have hcounts : found.map (·.rows.length) =
      (found.map Group.key).map fun tuple =>
        (keyed.map Prod.fst).countP (sameKey tuple) := by
    rw [List.map_map]
    exact List.map_congr_left fun g hg => hgathered.length_rows hg
  refine ⟨passing, keyed.map Prod.fst, found.map Group.key,
    found.map (·.rows.length), hsummary.passing, hkeys, ?_, hgathered.pairwise,
    ?_, ?_, ?_, hcounts, hsum⟩
  · rw [hrows]
    exact hsummary.map_take.symm
  · rw [List.forall_mem_map]
    exact fun g hg => hgathered.exists_key hg
  · intro key hkey
    obtain ⟨g, hg, hsame⟩ := hgathered.exists_group hkey
    exact ⟨g.key, List.mem_map_of_mem hg, hsame⟩
  · rw [hrows, List.map_map]
    exact hsummary.column_count ha hcount

/-! ### Visits by month and fee -/

def visit (day : String) (fee : Cell) : Record :=
  [(10, .temporal day), (11, fee)]

def visits : Database where
  catalog := ⟨[⟨1, "Visits", [⟨10, "Day", none, .temporal .date, none⟩,
    ⟨11, "Fee", none, .numeric, none⟩]⟩]⟩
  tables :=
    [(1, ⟨none, [visit "2024-01-20" (.ofCount 2),
    visit "2024-02-05" (Sample.fixed 1 15),
    visit "2024-02-28" (Sample.fixed 2 150), visit "2024-02-29" (.ofCount 0)]⟩)]

def paidVisits : Query :=
  .ofTable 1 {
    filters := [.binary .gt (.column (.field 11)) (.number .zero)]
    aggregations := [⟨.call .count [], none, []⟩]
    breakouts := [⟨.field 10, some .month⟩, ⟨.field 11, none⟩] }

def januaryGroup : Group :=
  ⟨[.temporal "2024-01-01", .ofCount 2],
    [.ofRecord (visit "2024-01-20" (.ofCount 2))]⟩

def februaryGroup : Group :=
  ⟨[.temporal "2024-02-01", Sample.fixed 1 15], [
    .ofRecord (visit "2024-02-05" (Sample.fixed 1 15)),
    .ofRecord (visit "2024-02-28" (Sample.fixed 2 150))]⟩

theorem run_paidVisits :
    ∃ columns, visits.run paidVisits = .ok ⟨columns, [
      [.temporal "2024-01-01", .ofCount 2, .ofCount 1],
      [.temporal "2024-02-01", Sample.fixed 1 15, .ofCount 2]]⟩ := by
  have hgroups : visits.groups paidVisits.stage.breakouts
      (januaryGroup.rows ++ februaryGroup.rows) =
        .ok [januaryGroup, februaryGroup] :=
    groups_eq_ok_iff.mpr ⟨_, rfl, List.mergeSort_of_pairwise (by decide)⟩
  have hsummary :=
    (@summarize_eq_ok_iff visits (paidVisits.outputColumns visits.catalog)
      paidVisits.stage _ _).mpr
    ⟨_, hgroups, _, .cons ⟨_, rfl, rfl⟩ (.cons ⟨_, rfl, rfl⟩ .nil), _, rfl, _,
      rfl, _, rfl, rfl⟩
  exact ⟨_, run_eq_ok_iff.mpr ⟨_, rfl,
    (runStage_eq_ok_iff rfl).mpr ⟨_, rfl, _, hsummary, rfl⟩⟩⟩

theorem run_countsByKey_paidVisits :
    ∃ r passing keys counts, visits.run paidVisits = .ok r ∧
      visits.Passing paidVisits passing ∧
      List.Forall₂ (visits.RowTuple paidVisits.stage.breakouts) passing keys ∧
      r.rows.map (·.take 2) = [januaryGroup.key, februaryGroup.key] ∧
      counts.map (fun n => some (Cell.ofCount n)) =
        [some (.ofCount 1), some (.ofCount 2)] ∧
      counts = [januaryGroup.key, februaryGroup.key].map (fun tuple =>
        keys.countP (sameKey tuple)) ∧
      counts.sum = passing.length := by
  obtain ⟨columns, hrun⟩ := run_paidVisits
  have hbreakouts : paidVisits.stage.breakouts ≠ [] := List.cons_ne_nil _ _
  obtain ⟨passing, keys, _, counts, hpassing, hkeys, rfl, -, -, -, hcells,
      hcounts, hsum⟩ :=
    run_countsByKey (i := 0) hbreakouts rfl rfl rfl rfl hrun
  exact ⟨_, passing, keys, counts, hrun, hpassing, hkeys, rfl, hcells.symm,
    hcounts, hsum⟩

end TableQuery.Database
