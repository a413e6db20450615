import TableQuery.Proofs.Evaluation.Sorting
import TableQuery.Proofs.Evaluation.Statistics

/-!
# Running totals

A cumulative aggregation is evaluated for each group as the function that it
adds up.  Once all groups have their values its column is replaced by the prefix
sums of these, in the order of the groups.  The sorts of the result come after
that and see the sums; an aggregation that refers to it came before and has seen
the value of its group.
-/

namespace TableQuery

/-! ## Functions that are added up -/

def Expression.plain : Expression → Expression
  | .call .cumulativeCount args => .call .count args
  | .call .cumulativeSum args => .call .sum args
  | e => e

def Aggregation.plain (a : Aggregation) : Aggregation :=
  { a with expression := a.expression.plain }

def Stage.withPlain (s : Stage) (index : Nat) : Stage :=
  { s with aggregations := s.aggregations.modify index Aggregation.plain }

def Query.withPlain (q : Query) (index : Nat) : Query :=
  q.withStage (q.stage.withPlain index)

@[simp] theorem Query.stage_withPlain (q : Query) (index : Nat) :
    (q.withPlain index).stage = q.stage.withPlain index :=
  q.stage_withStage _

theorem Stage.isSummarized_withPlain (s : Stage) (index : Nat) :
    (s.withPlain index).isSummarized = s.isSummarized := by
  have hempty : (s.aggregations.modify index Aggregation.plain).isEmpty =
      s.aggregations.isEmpty := by
    cases index <;> cases s.aggregations <;> rfl
  rw [isSummarized, withPlain, hempty, isSummarized]

/-- The sum of the numbers among the first cells, for each of their counts from
one on. -/
def PrefixSums (cells : List Cell) (sums : List Decimal) : Prop :=
  sums.length = cells.length ∧
    ∀ k sum, sums[k]? = some sum → ∃ values,
      Statistics.numbers (cells.take (k + 1)) = .ok values ∧
      Statistics.total values = some sum

def setColumn (c : Nat) (cells : List Cell) (rows : List (List Cell)) :
    List (List Cell) :=
  List.zipWith (fun cell row => row.set c cell) cells rows

namespace Database

variable {db : Database} {q : Query} {r : ResultSet}

theorem isCumulative_plain (e : Expression) : isCumulative e.plain = false := by
  unfold Expression.plain
  split
  case h_1 => rfl
  case h_2 => rfl
  case h_3 e hcount hsum =>
      unfold isCumulative
      split
      case h_1 => exact absurd rfl (hcount _)
      case h_2 => exact absurd rfl (hsum _)
      case h_3 => rfl

theorem evalGroup_plain {rows : List Row} {done : List Cell} {e : Expression}
    {cell : Cell} (h : db.evalGroup rows done e = .ok cell) :
    db.evalGroup rows done e.plain = .ok cell := by
  unfold Expression.plain
  split
  case h_1 args => exact h
  case h_2 args =>
      cases args with
      | nil => cases h
      | cons arg args => exact h
  case h_3 => exact h

theorem number_of_evalGroup {rows : List Row} {done : List Cell}
    {e : Expression} {cell : Cell} (hcumulative : isCumulative e)
    (h : db.evalGroup rows done e = .ok cell) :
    cell = .null ∨ ∃ n, cell = .number n := by
  unfold isCumulative at hcumulative
  split at hcumulative
  case h_1 args =>
      cases args with
      | nil =>
          cases h
          exact .inr ⟨_, rfl⟩
      | cons arg args =>
          obtain ⟨cells, -, hcell⟩ := bind_eq_ok_iff.mp h
          cases hcell
          exact .inr ⟨_, rfl⟩
  case h_2 args =>
      obtain ⟨values, -, hsum⟩ := bind_eq_ok_iff.mp h
      obtain ⟨sum, -, hcell⟩ := bind_eq_ok_iff.mp hsum
      cases hcell
      cases sum with
      | none => exact .inl rfl
      | some n => exact .inr ⟨n, rfl⟩
  case h_3 => cases hcumulative

/-! ## Prefix sums -/

theorem foldlM_filterMap_of_addToTotal {total next : Decimal} {cell : Cell}
    (h : addToTotal total cell = .ok next) (cells : List Cell) :
    ((cell :: cells).filterMap Cell.decimal?).foldlM Decimal.add? total =
      (cells.filterMap Cell.decimal?).foldlM Decimal.add? next := by
  cases cell with
  | number n =>
      rw [addToTotal, Computation.checked_eq_ok_iff] at h
      have hvalues : (Cell.number n :: cells).filterMap Cell.decimal? =
          n :: cells.filterMap Cell.decimal? := rfl
      rw [hvalues, List.foldlM_cons, h]
      rfl
  | _ =>
      cases h
      rfl

/-- Each total is the one before the first cell and the numbers up to its own
cell. -/
theorem foldlM_of_runningTotals {total : Decimal} {cells : List Cell}
    {totals : List Decimal}
    (h : runningTotals total (cells.map some) = .ok totals) :
    totals.length = cells.length ∧ ∀ k sum, totals[k]? = some sum →
      ((cells.take (k + 1)).filterMap Cell.decimal?).foldlM Decimal.add? total =
        some sum := by
  induction cells generalizing total totals with
  | nil =>
      cases h
      exact ⟨rfl, by simp⟩
  | cons cell cells ih =>
      obtain ⟨_, next, rest, hcell, hnext, hrest, rfl⟩ :=
        runningTotals_cons_eq_ok_iff.mp h
      cases hcell
      obtain ⟨hlength, hsums⟩ := ih hrest
      refine ⟨by simp [hlength], fun k sum hsum => ?_⟩
      rw [List.take_succ_cons, foldlM_filterMap_of_addToTotal hnext]
      cases k with
      | zero =>
          cases hsum
          rfl
      | succ k => exact hsums k sum hsum

theorem prefixSums_of_runningTotals {cells : List Cell} {totals : List Decimal}
    (hcells : ∀ cell ∈ cells, cell = .null ∨ ∃ n, cell = .number n)
    (h : runningTotals .zero (cells.map some) = .ok totals) :
    PrefixSums cells totals := by
  obtain ⟨hlength, hsums⟩ := foldlM_of_runningTotals h
  refine ⟨hlength,
    fun k sum hsum => ⟨_, Statistics.numbers_eq_ok_iff.mpr ⟨?_, rfl⟩,
    hsums k sum hsum⟩⟩
  exact fun cell hcell => hcells cell (List.mem_of_mem_take hcell)

/-! ## Tables with another column -/

section Columns

variable {c : Nat} {cells old : List Cell} {rows : List (List Cell)}

theorem length_of_column_eq (h : column c rows = cells.map some) :
    cells.length = rows.length := by
  simpa [column] using (congrArg List.length h).symm

theorem length_setColumn (h : cells.length = rows.length) :
    (setColumn c cells rows).length = rows.length := by
  rw [setColumn, List.length_zipWith, h, Nat.min_self]

theorem column_setColumn_of_ne {c' : Nat} (hc : c' ≠ c)
    (h : cells.length = rows.length) :
    column c' (setColumn c cells rows) = column c' rows := by
  induction rows generalizing cells with
  | nil =>
      cases cells <;> rfl
  | cons row rows ih =>
      obtain ⟨cell, cells, rfl⟩ := List.exists_cons_of_length_eq_add_one h
      exact congrArg₂ List.cons (List.getElem?_set_ne hc.symm)
        (ih (by simpa using h))

theorem column_setColumn_self (hold : column c rows = old.map some)
    (h : cells.length = rows.length) : column c (setColumn c cells rows) =
      cells.map some := by
  induction rows generalizing cells old with
  | nil =>
      rw [List.length_eq_zero_iff.mp h]
      rfl
  | cons row rows ih =>
      obtain ⟨cell, cells, rfl⟩ := List.exists_cons_of_length_eq_add_one h
      obtain ⟨first, old, rfl⟩ :=
        List.exists_cons_of_length_eq_add_one (length_of_column_eq hold)
      obtain ⟨hfirst, hrest⟩ := List.cons.inj hold
      have hc := (List.getElem?_eq_some_iff.mp hfirst).1
      exact congrArg₂ List.cons (List.getElem?_set_self hc)
        (ih hrest (by simpa using h))

theorem setColumn_setColumn (hold : column c rows = old.map some)
    (h : cells.length = rows.length) :
    setColumn c old (setColumn c cells rows) = rows := by
  have hlength := length_setColumn (c := c) h
  have hold' := (length_of_column_eq hold).trans hlength.symm
  apply eq_of_column_eq
  · rw [length_setColumn hold', hlength]
  · intro c'
    by_cases hc : c' = c
    · rw [hc, column_setColumn_self (column_setColumn_self hold h) hold', hold]
    · rw [column_setColumn_of_ne hc hold', column_setColumn_of_ne hc h]

end Columns

/-! ## One column less to add up -/

theorem cumulativeAt_plain (first i : Nat) (aggs : List Aggregation) (c : Nat) :
    cumulativeAt first (aggs.modify i Aggregation.plain) c =
      if c = first + i then false else cumulativeAt first aggs c := by
  unfold cumulativeAt
  rw [List.getElem?_modify]
  by_cases hle : first ≤ c
  · by_cases hc : c = first + i
    · subst hc
      cases aggs[first + i - first]? <;>
        simp [Aggregation.plain, isCumulative_plain]
    · have hne : i ≠ c - first := by omega
      simp [hle, hc, hne]
  · simp [hle]

theorem accumulateAll_plain {first i : Nat} {aggs : List Aggregation}
    {rows out : List (List Cell)} {cells totals : List Cell}
    (h : accumulateAll first aggs rows = .ok out)
    (hcells : column (first + i) rows = cells.map some)
    (htotals : column (first + i) out = totals.map some) :
    accumulateAll first (aggs.modify i Aggregation.plain) rows =
      .ok (setColumn (first + i) cells out) := by
  obtain ⟨hlength, hcolumns⟩ := accumulateAll_eq_ok_iff.mp h
  have hcells' : cells.length = out.length :=
    (length_of_column_eq hcells).trans hlength.symm
  -- The other columns are what they were, since each column is totalled apart.
  refine accumulateAll_eq_ok_iff.mpr ⟨(length_setColumn hcells').trans hlength,
    fun c => ?_⟩
  rw [cumulativeAt_plain]
  split
  case isTrue hc =>
      rw [hc, column_setColumn_self htotals hcells', Accumulates,
        if_neg Bool.false_ne_true, hcells]
  case isFalse hc =>
      rw [column_setColumn_of_ne hc hcells']
      exact hcolumns c

theorem GroupRow.plain {aggs : List Aggregation} {g : Group} {row : List Cell}
    (h : GroupRow db aggs g row) (i : Nat) :
    GroupRow db (aggs.modify i Aggregation.plain) g row := by
  obtain ⟨values, hvalues, hrow⟩ := h
  obtain ⟨new, hnew, hlength, hevals⟩ := aggregations_eq_ok_iff.mp hvalues
  refine ⟨_, aggregations_eq_ok_iff.mpr ⟨new, hnew,
    by rw [List.length_modify, hlength], ?_⟩, hrow⟩
  intro k a ha
  rw [List.getElem?_modify, Option.map_eq_map, Option.map_eq_some_iff] at ha
  obtain ⟨b, hb, rfl⟩ := ha
  obtain ⟨cell, hcell, heval⟩ := hevals k b hb
  refine ⟨cell, hcell, ?_⟩
  split
  case isTrue => exact evalGroup_plain heval
  case isFalse => exact heval

namespace Summary

variable {passing : List Row} {found : List Group}
  {computed totalled : List (List Cell)}

theorem exists_cells (h : Summary db q passing found computed totalled)
    {i : Nat} {a : Aggregation} (ha : q.stage.aggregations[i]? = some a) :
    ∃ cells : List Cell,
    column (q.stage.breakouts.length + i) computed = cells.map some ∧
      ∀ cell ∈ cells, ∃ rows done, db.evalGroup rows done a.expression =
        .ok cell := by
  have hcells := h.forall₂_cells ha
  clear h
  induction hcells with
  | nil => exact ⟨[], rfl, by simp⟩
  | cons hrow _ ih =>
      obtain ⟨cell, hcell, heval⟩ := hrow
      obtain ⟨cells, hcells, hevals⟩ := ih
      exact ⟨cell :: cells, congrArg₂ List.cons hcell hcells,
        List.forall_mem_cons.mpr ⟨⟨_, _, heval⟩, hevals⟩⟩

theorem exists_sums (h : Summary db q passing found computed totalled) {i : Nat}
    {a : Aggregation} (ha : q.stage.aggregations[i]? = some a)
    (hcumulative : isCumulative a.expression) :
    ∃ (cells : List Cell) (sums : List Decimal),
      column (q.stage.breakouts.length + i) computed = cells.map some ∧
      column (q.stage.breakouts.length + i) totalled =
        (sums.map Cell.number).map some ∧
      PrefixSums cells sums := by
  obtain ⟨cells, hcells, hevals⟩ := h.exists_cells ha
  have hcolumn :=
    (accumulateAll_eq_ok_iff.mp h.accumulate_eq).2
      (q.stage.breakouts.length + i)
  rw [cumulativeAt_add ha, hcumulative, Accumulates, if_pos rfl, hcells]
    at hcolumn
  obtain ⟨totals, htotals, hafter⟩ := hcolumn
  refine ⟨cells, totals, hcells, by rw [hafter, List.map_map]; rfl, ?_⟩
  refine prefixSums_of_runningTotals (fun cell hcell => ?_) htotals
  obtain ⟨_, _, heval⟩ := hevals cell hcell
  exact number_of_evalGroup hcumulative heval

/-- A reference to an aggregation has the value that it had for the group. -/
theorem column_reference (h : Summary db q passing found computed totalled)
    {i j : Nat} {b : Aggregation} (hb : q.stage.aggregations[j]? = some b)
    (href : b.expression = .column (.aggregation i)) :
    column (q.stage.breakouts.length + j) totalled =
      column (q.stage.breakouts.length + i) computed := by
  have hplain : cumulativeAt q.stage.breakouts.length q.stage.aggregations
      (q.stage.breakouts.length + j) = false := by
    rw [cumulativeAt_add hb, href]
    rfl
  rw [column_accumulateAll h.accumulate_eq hplain]
  apply List.map_congr_left
  intro row hrow
  obtain ⟨g, -, cell, hcell, heval⟩ :=
    exists_of_mem_forall₂ (h.forall₂_cells hb) hrow
  rw [href, evalGroup] at heval
  split at heval
  case h_1 value hvalue =>
      cases heval
      rw [List.getElem?_take, Option.ite_none_right_eq_some, List.getElem?_drop]
        at hvalue
      rw [hcell, hvalue.2]
  case h_2 => cases heval

theorem withPlain (h : Summary db q passing found computed totalled) {i : Nat}
    {cells totals : List Cell}
    (hcells : column (q.stage.breakouts.length + i) computed = cells.map some)
    (htotals : column (q.stage.breakouts.length + i) totalled =
      totals.map some) :
    Summary db (q.withPlain i) passing found computed
      (setColumn (q.stage.breakouts.length + i) cells totalled) := by
  obtain ⟨source, hsource, hprepared⟩ := h.prepare_eq
  constructor
  case prepare_eq =>
      refine ⟨source, by rwa [Query.withPlain, sourceRows_withStage], ?_⟩
      rw [Query.stage_withPlain, ← hprepared]
      apply prepare_congr <;> rfl
  case groups_eq =>
      rw [Query.stage_withPlain]
      exact h.groups_eq
  case groupRows =>
      rw [Query.stage_withPlain]
      exact h.groupRows.imp fun _ _ hrow => hrow.plain i
  case accumulate_eq =>
      rw [Query.stage_withPlain]
      exact accumulateAll_plain h.accumulate_eq hcells htotals

end Summary

/-! ## Runs -/

theorem isSummarized_of_aggregation {s : Stage} {i : Nat} {a : Aggregation}
    (ha : s.aggregations[i]? = some a) : s.isSummarized := by
  have hne : s.aggregations ≠ [] := by
    intro hnil
    rw [hnil] at ha
    cases ha
  simp [Stage.isSummarized, hne]

/-- A cumulative column is that of the function that it adds up, without sorts
and limit, with the prefix sums in the place of its cells; the sorts and the
limit then take the sums for what they are. -/
theorem run_prefixSums (hvalid : q.validate db.catalog = .ok ()) {i : Nat}
    {a : Aggregation} (ha : q.stage.aggregations[i]? = some a)
    (hcumulative : isCumulative a.expression) (hr : db.run q = .ok r) :
    ∃ r₀ cells sums table keys sorted,
      db.run (q.withPlain i).unsorted = .ok r₀ ∧
      column (q.stage.breakouts.length + i) r₀.rows = cells.map some ∧
      PrefixSums cells sums ∧
      table = setColumn (q.stage.breakouts.length + i) (sums.map .number)
        r₀.rows ∧
      db.SortKeys q table keys ∧
      StablySorted (q.stage.orderBy.map (·.direction)) keys table sorted ∧
      r.rows = (q.stage.limit.map sorted.take).getD sorted := by
  have hs := isSummarized_of_aggregation ha
  obtain ⟨_, _, computed, totalled, sorted, hsummary, -, hsorted, hrows⟩ :=
    exists_summary_of_run hs hr
  obtain ⟨cells, sums, hcells, htotals, hsums⟩ :=
    hsummary.exists_sums ha hcumulative
  have hlength : cells.length = totalled.length :=
    (length_of_column_eq hcells).trans
      (accumulateAll_eq_ok_iff.mp hsummary.accumulate_eq).1.symm
  obtain ⟨_, hentries⟩ :=
    exists_outputColumns_withStage hr (q.stage.withPlain i)
  obtain ⟨keys, hkeys, hstable⟩ := stablySorted_sortGroups
    (Query.validate_eq_ok_iff.mp hvalid).stage hs hsummary.length_of_mem hsorted
  have hplain : (q.withPlain i).stage.isSummarized := by
    rwa [Query.stage_withPlain, Stage.isSummarized_withPlain]
  exact ⟨_, cells, sums, totalled, keys, sorted,
    (hsummary.withPlain hcells htotals).run_unsorted hplain hentries,
    column_setColumn_self htotals hlength, hsums,
    (setColumn_setColumn htotals hlength).symm, (if_pos hs).mpr hkeys,
    hstable, hrows⟩

/-! ### The best regions -/

def sales : Database where
  catalog := ⟨[⟨1, "Sales", [⟨10, "Region", none, .text, none⟩,
    ⟨11, "Amount", none, .numeric, none⟩]⟩]⟩
  tables :=
    [(1, ⟨none, [[(10, .string "East")],
    [(10, .string "North"), (11, .ofCount 3)],
    [(10, .string "West"), (11, .ofCount 4)]]⟩)]

def bestRegions : Query :=
  .ofTable 1 {
    aggregations := [⟨.call .cumulativeSum [.column (.field 11)], none, []⟩,
      ⟨.column (.aggregation 0), none, []⟩,
      ⟨.column (.aggregation 1), none, []⟩]
    breakouts := [⟨.field 10, none⟩]
    orderBy := [⟨.desc, .aggregation 0⟩]
    limit := some 2 }

def regionRow (region : String) (total amount : Cell) : List Cell :=
  [.string region, total, amount, amount]

def bestRows : List (List Cell) :=
  [regionRow "West" (.ofCount 7) (.ofCount 4),
    regionRow "North" (.ofCount 3) (.ofCount 3)]

theorem run_bestRegions :
    sales.run bestRegions =
      .ok ⟨[("Region", .text), ("Cumulative sum of Amount", .numeric),
          ("Aggregation 1", .unknown), ("Aggregation 2", .unknown)],
        bestRows⟩ := by
  cbv

theorem run_prefixSums_bestRegions :
    ∃ r₀ cells sums table keys sorted,
      sales.run (bestRegions.withPlain 0).unsorted = .ok r₀ ∧
      r₀.rows = [regionRow "East" .null .null,
        regionRow "North" (.ofCount 3) (.ofCount 3),
        regionRow "West" (.ofCount 4) (.ofCount 4)] ∧
      column 1 r₀.rows = cells.map some ∧ PrefixSums cells sums ∧
      table = setColumn 1 (sums.map .number) r₀.rows ∧
      sales.SortKeys bestRegions table keys ∧
      StablySorted [.desc] keys table sorted ∧ sorted.take 2 = bestRows := by
  obtain ⟨r₀, cells, sums, table, keys, sorted, hplain, hcells, hsums, htable,
    hkeys, hstable, hrows⟩ :=
    run_prefixSums (i := 0) rfl rfl rfl run_bestRegions
  have hr₀ : sales.run (bestRegions.withPlain 0).unsorted =
      .ok ⟨[("Region", .text), ("Sum of Amount", .numeric),
          ("Aggregation 1", .unknown), ("Aggregation 2", .unknown)],
        [regionRow "East" .null .null,
          regionRow "North" (.ofCount 3) (.ofCount 3),
          regionRow "West" (.ofCount 4) (.ofCount 4)]⟩ := by
    cbv
  cases hplain.symm.trans hr₀
  exact ⟨_, cells, sums, table, keys, sorted, hr₀, rfl, hcells, hsums, htable,
    hkeys, hstable, hrows.symm⟩

/-! ## References -/

/-- An aggregation that is a reference to another one shows its value.  A
cumulative one shows the prefix sums of what the reference shows, in the order
that the rows have without sorts. -/
theorem run_reference {i j : Nat} {a b : Aggregation}
    (ha : q.stage.aggregations[i]? = some a)
    (hb : q.stage.aggregations[j]? = some b)
    (href : b.expression = .column (.aggregation i)) (hr : db.run q = .ok r) :
    (isCumulative a.expression = false → ∀ row ∈ r.rows, ∃ cell,
      row[q.stage.breakouts.length + i]? = some cell ∧
        row[q.stage.breakouts.length + j]? = some cell) ∧
    (isCumulative a.expression → ∃ r₀ cells sums, db.run q.unsorted = .ok r₀ ∧
      column (q.stage.breakouts.length + i) r₀.rows =
        (sums.map Cell.number).map some ∧
      column (q.stage.breakouts.length + j) r₀.rows = cells.map some ∧
      PrefixSums cells sums ∧ ∀ row ∈ r.rows, row ∈ r₀.rows) := by
  obtain ⟨_, _, computed, totalled, sorted, hsummary, hrun, hsorted, hrows⟩ :=
    exists_summary_of_run (isSummarized_of_aggregation ha) hr
  have hmem : ∀ row ∈ r.rows, row ∈ totalled := by
    intro row hrow
    obtain ⟨_, -, rfl, -⟩ := sortGroups_eq_ok_iff.mp hsorted
    exact mem_sortByKey.mp (mem_of_mem_limit (hrows ▸ hrow))
  -- The reference has what was there before columns were added up.
  have hreference := hsummary.column_reference hb href
  constructor
  · intro hplain row hrow
    rw [← cumulativeAt_add ha] at hplain
    rw [← column_accumulateAll hsummary.accumulate_eq hplain] at hreference
    have hcell := List.map_inj_left.mp hreference row (hmem row hrow)
    have hlt : q.stage.breakouts.length + i < row.length := by
      rw [hsummary.length_of_mem row (hmem row hrow)]
      exact Nat.add_lt_add_left (List.getElem?_eq_some_iff.mp ha).1 _
    exact ⟨_, List.getElem?_eq_getElem hlt,
      hcell.trans (List.getElem?_eq_getElem hlt)⟩
  · intro hcumulative
    obtain ⟨cells, sums, hcells, htotals, hsums⟩ :=
      hsummary.exists_sums ha hcumulative
    exact ⟨_, cells, sums, hrun, htotals, hreference.trans hcells, hsums, hmem⟩

theorem run_reference_bestRegions :
    ∃ r r₀ cells sums, sales.run bestRegions = .ok r ∧
      (∀ row ∈ r.rows, ∃ cell, row[2]? = some cell ∧ row[3]? = some cell) ∧
      sales.run bestRegions.unsorted = .ok r₀ ∧
      column 1 r₀.rows = (sums.map Cell.number).map some ∧
      column 2 r₀.rows = cells.map some ∧ PrefixSums cells sums ∧
      ∀ row ∈ r.rows, row ∈ r₀.rows := by
  obtain ⟨r₀, cells, sums, hcumulative⟩ :=
    (run_reference (i := 0) (j := 1) rfl rfl rfl run_bestRegions).2 rfl
  have hplain :=
    (run_reference (i := 1) (j := 2) rfl rfl rfl run_bestRegions).1 rfl
  exact ⟨_, r₀, cells, sums, run_bestRegions, hplain, hcumulative⟩

/-- A reference to a cumulative aggregation does not show its value. -/
theorem not_forall_reference_eq :
    ¬ ∀ (db : Database) (q : Query) (r : ResultSet) (i j : Nat)
      (b : Aggregation),
      q.validate db.catalog = .ok () → i < j →
      q.stage.aggregations[j]? = some b →
      b.expression = .column (.aggregation i) → db.run q = .ok r →
      ∀ row ∈ r.rows,
        row[q.stage.breakouts.length + i]? =
          row[q.stage.breakouts.length + j]? := by
  intro h
  have hcells :=
    h sales bestRegions _ 0 1 _ rfl Nat.zero_lt_one rfl rfl run_bestRegions _
      List.mem_cons_self
  exact absurd hcells (by decide)

end Database

end TableQuery
