import Mathlib.Data.Set.Basic
import TableQuery.Proofs.Evaluation.Groups
import TableQuery.Proofs.Evaluation.Renumbering
import TableQuery.Proofs.Query.Visibility

/-!
# How a run can fail

Which errors a run may end in is told by its parts.  What operators, functions
and statistics make of values fails only when a value does not fit, and a stage
fails only where one of its clauses does.  So to rule out an error it is enough
to rule it out for each clause.
-/

namespace TableQuery

/-! ## Errors that do not occur -/

def Avoids {α : Type} (bad : Set EvaluationError)
    (x : Except EvaluationError α) : Prop :=
  ∀ e, x = .error e → e ∉ bad

/-- Errors that values alone do not cause.  An aggregation that is not computed
yet is a matter of the order of the clauses. -/
class SparesValues (bad : Set EvaluationError) : Prop where
  fault : ∀ {f : Fault}, (∀ index, f ≠ .notComputedYet index) → .fault f ∉ bad
  interpolation : .aborted .interpolation ∉ bad
  dayCount : .aborted .dayCount ∉ bad
  catalog : ∀ e, .catalog e ∉ bad

attribute [simp] SparesValues.fault SparesValues.interpolation
  SparesValues.dayCount SparesValues.catalog

namespace Avoids

variable {α β : Type} {bad : Set EvaluationError}

@[simp] theorem ok (a : α) : Avoids bad (.ok a) := fun _ h => nomatch h

@[simp] theorem pure (a : α) : Avoids bad (pure a) := ok a

@[simp] theorem error_iff {e : EvaluationError} :
    Avoids bad (.error e : Except EvaluationError α) ↔ e ∉ bad := by
  simp [Avoids]

@[simp] theorem bind_iff {x : Except EvaluationError α}
    {f : α → Except EvaluationError β} :
    Avoids bad (x >>= f) ↔ Avoids bad x ∧ ∀ a, x = .ok a →
      Avoids bad (f a) := by
  cases x with
  | error e => simp [Avoids, Bind.bind, Except.bind]
  | ok a => simp [Avoids, Bind.bind, Except.bind]

@[simp] theorem map_iff {x : Except EvaluationError α} {f : α → β} :
    Avoids bad (x.map f) ↔ Avoids bad x := by
  cases x <;> simp [Avoids, Except.map]

@[simp] theorem functor_map_iff {x : Except EvaluationError α} {f : α → β} :
    Avoids bad (f <$> x) ↔ Avoids bad x :=
  map_iff

@[simp] theorem ite_iff {c : Prop} [Decidable c]
    {x y : Except EvaluationError α} :
    Avoids bad (if c then x else y) ↔
      (c → Avoids bad x) ∧ (¬c → Avoids bad y) := by
  split <;> simp_all

theorem bind_eq_error_iff {x : Except EvaluationError α}
    {f : α → Except EvaluationError β} (h : Avoids bad x) {e : EvaluationError}
    (he : e ∈ bad) : (x >>= f) = .error e ↔ ∃ a, x = .ok a ∧ f a = .error e :=
  TableQuery.bind_eq_error_iff.trans (or_iff_right fun hx => h e hx he)

theorem mono {bad' : Set EvaluationError} {x : Except EvaluationError α}
    (h : Avoids bad x) (hbad : bad' ⊆ bad) : Avoids bad' x :=
  fun e he hmem => h e he (hbad hmem)

theorem mapM {f : α → Except EvaluationError β} {as : List α}
    (h : ∀ a ∈ as, Avoids bad (f a)) : Avoids bad (as.mapM f) := by
  induction as with
  | nil => simp
  | cons a as ih =>
      obtain ⟨ha, has⟩ := List.forall_mem_cons.mp h
      simp [List.mapM_cons, ha, ih has]

theorem filterM {p : α → Except EvaluationError Bool}
    (h : ∀ a, Avoids bad (p a)) (as : List α) : Avoids bad (as.filterM p) := by
  have haux : ∀ kept, Avoids bad (as.filterAuxM p kept) := by
    induction as with
    | nil => simp [List.filterAuxM]
    | cons a as ih => simp [List.filterAuxM, h, ih]
  simp [List.filterM, haux]

theorem foldlM {f : β → α → Except EvaluationError β} {as : List α}
    (h : ∀ b a, Avoids bad (f b a)) (b : β) : Avoids bad (as.foldlM f b) := by
  induction as generalizing b with
  | nil => simp
  | cons a as ih => simp [List.foldlM_cons, h, ih]

@[simp] theorem checked [SparesValues bad] (c : Computation) (x : Option α) :
    Avoids bad (c.checked x) := by
  cases x <;> simp [Computation.checked]

end Avoids

variable {bad : Set EvaluationError}

/-! ## Values -/

namespace Scalar

variable [SparesValues bad]

@[simp] theorem avoids_truth (cell : Cell) : Avoids bad (truth cell) := by
  cases cell <;> simp [truth]

@[simp] theorem avoids_compare (left right : Cell) :
    Avoids bad (compare left right) := by
  unfold compare
  split <;> simp

theorem avoids_arithmetic (op : BinaryOp) (a b : Decimal) :
    Avoids bad (arithmetic op a b) := by
  cases op <;> simp [arithmetic]

theorem avoids_applyBinary (op : BinaryOp) (left right : Cell) :
    Avoids bad (applyBinary op left right) := by
  cases left <;> cases right <;> simp [applyBinary, avoids_arithmetic]

theorem avoids_applyUnary (op : UnaryOp) (operand : Cell) :
    Avoids bad (applyUnary op operand) := by
  cases op with
  | not => simp [applyUnary]
  | neg => cases operand <;> simp [applyUnary]

@[simp] theorem avoids_text (f : Function) (cell : Cell) :
    Avoids bad (text f cell) := by
  cases cell <;> simp [text]

@[simp] theorem avoids_number (f : Function) (cell : Cell) :
    Avoids bad (number f cell) := by
  cases cell <;> simp [number]

@[simp] theorem avoids_argument (f : Function) (args : List Cell)
    (index : Nat) : Avoids bad (argument f args index) := by
  unfold argument
  split <;> simp

@[simp] theorem avoids_textArgument (f : Function) (args : List Cell)
    (index : Nat) : Avoids bad (textArgument f args index) := by
  simp [textArgument]

@[simp] theorem avoids_numberArgument (f : Function) (args : List Cell)
    (index : Nat) : Avoids bad (numberArgument f args index) := by
  simp [numberArgument]

@[simp] theorem avoids_extract (cs pattern : List Char) :
    Avoids bad (extract cs pattern) := by
  unfold extract
  split
  case h_1 => simp
  case h_2 r _ => cases r.extract (String.ofList cs) <;> simp

theorem avoids_applyToValues {f : Function} (hf : f.isAggregate = false)
    {args : List Cell} (hnull : nullAware? f args = none) :
    Avoids bad (applyToValues f args) := by
  cases f with
  | count | cumulativeCount | sum | cumulativeSum | distinct
  | standardDeviation | average | min | max | median | variance | percentile
  | share | countIf | sumIf =>
      exact absurd hf (by decide)
  | concat | coalesce | isNull | isEmpty => cases hnull
  | sqrt =>
      simp only [applyToValues, Avoids.bind_iff, avoids_numberArgument,
        true_and]
      intro n _
      cases n.sqrt? <;> simp
  | _ => simp [applyToValues]

theorem avoids_applyFunction {f : Function} (hf : f.isAggregate = false)
    (args : List Cell) : Avoids bad (applyFunction f args) := by
  unfold applyFunction
  split
  case h_1 result hresult =>
      cases f with
      | concat =>
          cases hresult
          simp [Avoids.mapM]
      | coalesce | isNull | isEmpty =>
          cases hresult
          simp
      | _ => cases hresult
  case h_2 hnull => simp [avoids_applyToValues hf hnull]

end Scalar

namespace Statistics

variable [SparesValues bad]

@[simp] theorem avoids_numbers (cells : List Cell) :
    Avoids bad (numbers cells) := by
  induction cells with
  | nil => simp [numbers]
  | cons cell cells ih => cases cell <;> simp [numbers, ih]

@[simp] theorem avoids_sum (values : List Decimal) :
    Avoids bad (sum values) := by
  simp [sum]

@[simp] theorem avoids_mean (values : List Decimal) :
    Avoids bad (mean values) := by
  simp only [mean, Avoids.bind_iff, avoids_sum, true_and]
  intro total _
  cases total <;> simp

@[simp] theorem avoids_variance (values : List Decimal) :
    Avoids bad (variance values) := by
  simp only [variance, Avoids.bind_iff, avoids_mean, true_and]
  intro m _
  cases m <;> simp

@[simp] theorem avoids_percentile (values : List Decimal) (p : Decimal) :
    Avoids bad (percentile values p) := by
  unfold percentile
  split
  · simp
  · split <;> simp

end Statistics

namespace Database

variable {db : Database}

/-! ## Groups of rows -/

theorem avoids_evalColumn {e : Expression}
    (h : ∀ row, Avoids bad (db.evalRow row e)) (rows : List Row) :
    Avoids bad (db.evalColumn rows e) :=
  Avoids.mapM fun row _ => h row

theorem avoids_accepts {predicate : Expression}
    (h : ∀ row, Avoids bad (db.evalRow row predicate)) (row : Row) :
    Avoids bad (db.accepts predicate row) := by
  simp [accepts, h row]

@[simp] theorem avoids_extremum [SparesValues bad] (f : Function)
    (better : Ordering → Bool) (best : Cell) (cells : List Cell) :
    Avoids bad (extremum f better best cells) := by
  induction cells generalizing best with
  | nil => simp [extremum]
  | cons cell cells ih =>
      unfold extremum
      repeat' split
      all_goals simp [ih]

section

variable [SparesValues bad] {args : List Expression}
  (hargs : ∀ arg ∈ args, ∀ row, Avoids bad (db.evalRow row arg))
include hargs

theorem avoids_argumentOf_bind {α : Type} (f : Function) (index : Nat)
    {next : Expression → Except EvaluationError α}
    (hnext : ∀ arg, (∀ row, Avoids bad (db.evalRow row arg)) →
      Avoids bad (next arg)) :
    Avoids bad (argumentOf f args index >>= next) := by
  unfold argumentOf
  cases hfound : args[index]? with
  | none => simp
  | some arg => simpa using hnext arg (hargs arg (List.mem_of_getElem? hfound))

theorem avoids_numbersOf (rows : List Row) (f : Function) (index : Nat) :
    Avoids bad (db.numbersOf rows f args index) :=
  avoids_argumentOf_bind hargs f index fun arg harg =>
    by simp [avoids_evalColumn harg]

theorem avoids_hits (rows : List Row) (f : Function) (index : Nat) :
    Avoids bad (db.hits rows f args index) :=
  avoids_argumentOf_bind hargs f index fun _ harg =>
    Avoids.filterM (avoids_accepts harg) rows

/-- An aggregation reads all its arguments from the rows, and the rank of a
percentile also from the group as a whole. -/
theorem avoids_aggregate (rows : List Row)
    {rank : Unit → Except EvaluationError Cell} {f : Function}
    (hrank : f = .percentile → Avoids bad (rank ())) :
    Avoids bad (db.aggregate rows rank f args) := by
  have hnumbers : ∀ rows index, Avoids bad (db.numbersOf rows f args index) :=
    fun rows index => avoids_numbersOf hargs rows f index
  have hhits : ∀ index, Avoids bad (db.hits rows f args index) :=
    avoids_hits hargs rows f
  have hcells {α : Type} (next : List Cell → Except EvaluationError α)
      (hnext : ∀ cells, Avoids bad (next cells)) :
      Avoids bad (argumentOf f args 0 >>= fun arg => db.evalColumn rows arg >>=
        next) :=
    avoids_argumentOf_bind hargs f 0 fun _ harg =>
      by simp [avoids_evalColumn harg, hnext]
  cases f with
  | count | cumulativeCount =>
      cases args with
      | nil => simp [aggregate]
      | cons arg _ =>
          simp [aggregate, avoids_evalColumn (hargs arg List.mem_cons_self)]
  | percentile =>
      simp only [aggregate, Avoids.bind_iff, hnumbers, true_and]
      intro values _
      refine ⟨?_, fun arg _ => ⟨hrank rfl, fun cell _ => ?_⟩⟩
      · unfold argumentOf
        split <;> simp
      · cases cell <;> simp
  | standardDeviation =>
      simp only [aggregate, Avoids.bind_iff, hnumbers,
        Statistics.avoids_variance, true_and]
      intro values _ variance _
      cases variance with
      | none => simp
      | some v =>
          dsimp only
          split <;> simp [throw, throwThe, MonadExceptOf.throw]
  | distinct | min | max => exact hcells _ fun cells => by simp
  | share | countIf | sumIf => simp [aggregate, hhits, hnumbers]
  | _ => simp [aggregate, hnumbers]

end

theorem avoids_aggregations (rows : List Row) {done : List Cell}
    {aggs : List Aggregation}
    (h : ∀ k a, aggs[k]? = some a → ∀ done' : List Cell,
      done'.length = done.length + k →
      Avoids bad (db.evalGroup rows done' a.expression)) :
    Avoids bad (db.aggregations rows done aggs) := by
  induction aggs generalizing done with
  | nil => simp [aggregations]
  | cons a rest ih =>
      -- With each aggregation one more cell is done, and the rest counts from
      -- one place less.
      rw [aggregations, Avoids.bind_iff]
      refine ⟨h 0 a rfl done rfl, fun cell _ => ih fun k b hb done' hdone => ?_⟩
      refine h (k + 1) b hb done' ?_
      rw [hdone, List.length_append, List.length_singleton]
      omega

/-! ## Cumulative columns -/

theorem avoids_accumulate [SparesValues bad] {c : Nat} {total : Decimal}
    {rows : List (List Cell)} (h : ∀ row ∈ rows, c < row.length) :
    Avoids bad (accumulate c total rows) := by
  induction rows generalizing total with
  | nil => simp [accumulate]
  | cons row rows ih =>
      obtain ⟨hrow, hrows⟩ := List.forall_mem_cons.mp h
      rw [accumulate, List.getElem?_eq_getElem hrow]
      cases row[c] <;> simp [ih hrows]

theorem avoids_accumulateAll [SparesValues bad] {first width : Nat}
    {aggs : List Aggregation} {rows : List (List Cell)}
    (hwidth : first + aggs.length ≤ width)
    (hrows : ∀ row ∈ rows, row.length = width) :
    Avoids bad (accumulateAll first aggs rows) := by
  induction aggs generalizing first rows with
  | nil => simp [accumulateAll]
  | cons a rest ih =>
      rw [List.length_cons] at hwidth
      have hfirst : ∀ row ∈ rows, first < row.length := by
        intro row hrow
        rw [hrows row hrow]
        omega
      -- Adding up a column keeps the width of the rows, which is what the next
      -- columns need.
      rw [accumulateAll_cons, Avoids.bind_iff]
      refine ⟨by simp [avoids_accumulate hfirst],
        fun next hnext => ih (by omega) ?_⟩
      split at hnext
      case isTrue => exact length_of_mem_accumulate hnext hrows
      case isFalse =>
          cases hnext
          exact hrows

/-! ## Sorted rows -/

theorem avoids_sortRows {orders : List OrderBy}
    (h : ∀ o ∈ orders, ∃ id, o.target = .column id ∧ ∀ row,
      Avoids bad (db.value row id))
    (rows : List Row) : Avoids bad (db.sortRows orders rows) := by
  have hkey : ∀ row, Avoids bad (db.orderKey orders row) := by
    refine fun row => Avoids.mapM fun o ho => ?_
    obtain ⟨id, hid, hvalue⟩ := h o ho
    simp [hid, hvalue row]
  simp [sortRows, Avoids.mapM, hkey]

theorem length_cellsAt {columns : List Nat} {row : List Cell}
    (h : ∀ c ∈ columns, c < row.length) :
    (cellsAt columns row).length = columns.length := by
  induction columns with
  | nil => rfl
  | cons c columns ih =>
      obtain ⟨hc, hcolumns⟩ := List.forall_mem_cons.mp h
      simpa [cellsAt, List.getElem?_eq_getElem hc] using ih hcolumns

theorem any_leavesRow_eq_false {directions : List Direction}
    {columns : List Nat} {rows : List (List Cell)}
    (h : ∀ row ∈ rows, ∀ c ∈ columns, c < row.length) :
    ((rows.zip (rows.drop 1)).any fun (a, b) =>
      leavesRow directions columns a b) = false := by
  rw [List.any_eq_false]
  rintro ⟨a, b⟩ hmem
  obtain ⟨ha, hb⟩ := List.of_mem_zip hmem
  simp [leavesRow, length_cellsAt (h a ha),
    length_cellsAt (h b (List.mem_of_mem_drop hb))]

theorem avoids_sortGroups {breakouts : List Breakout} {orders : List OrderBy}
    {width : Nat} {rows : List (List Cell)}
    (horders : ∀ o ∈ orders, ∃ c, orderColumn breakouts o = .ok c ∧ c < width)
    (hrows : ∀ row ∈ rows, row.length = width) :
    Avoids bad (sortGroups breakouts orders rows) := by
  rw [sortGroups, Avoids.bind_iff]
  refine ⟨Avoids.mapM fun o ho => ?_, fun columns hcolumns => ?_⟩
  · obtain ⟨c, hc, -⟩ := horders o ho
    simp [hc]
  · have hlt : ∀ c ∈ columns, c < width := by
      intro c hc
      obtain ⟨o, ho, hoc⟩ := exists_of_mem_mapM hcolumns hc
      obtain ⟨c', hoc', hlt⟩ := horders o ho
      cases hoc.symm.trans hoc'
      exact hlt
    have hcells : ∀ row ∈ sortByKey (orders.map (·.direction))
        (cellsAt columns) rows,
        ∀ c ∈ columns, c < row.length := by
      intro row hrow c hc
      rw [hrows row (mem_sortByKey.mp hrow)]
      exact hlt c hc
    dsimp only
    rw [any_leavesRow_eq_false hcells]
    simp

end Database

/-! ## Sorts of valid stages -/

namespace Stage.Valid

variable {source : Except CatalogError (List Entry)} {s : Stage}

theorem exists_column_of_sort (h : s.Valid source) (hs : s.isSummarized = false)
    {o : OrderBy} (ho : o ∈ s.orderBy) : ∃ id, o.target = .column id := by
  obtain ⟨entries, -, htarget⟩ := h.sortTarget_valid ho
  simp only [isSummarized, Bool.or_eq_false_iff, Bool.not_eq_false',
    List.isEmpty_iff] at hs
  cases hid : o.target with
  | aggregation i => simp [hid, TargetValid, hs] at htarget
  | breakout i => simp [hid, TargetValid, hs] at htarget
  | column id => exact ⟨id, rfl⟩

theorem exists_orderColumn (h : s.Valid source) (hs : s.isSummarized)
    {o : OrderBy} (ho : o ∈ s.orderBy) :
    ∃ c, Database.orderColumn s.breakouts o = .ok c ∧
      c < s.breakouts.length + s.aggregations.length := by
  obtain ⟨entries, -, htarget⟩ := h.sortTarget_valid ho
  cases hid : o.target with
  | aggregation i =>
      rw [hid] at htarget
      exact ⟨_, by simp [Database.orderColumn, hid],
        Nat.add_lt_add_left htarget _⟩
  | breakout i =>
      rw [hid] at htarget
      exact ⟨_, by simp [Database.orderColumn, hid], Nat.lt_add_right _ htarget⟩
  | column id =>
      rw [hid] at htarget
      exact absurd htarget.1 (by simp [hs])

end Stage.Valid

/-! ## Stages -/

/-- What the clauses of a stage compute, and its columns if it passes rows on,
avoids the given errors one by one. -/
structure Stage.ClausesAvoid (db : Database) (bad : Set EvaluationError)
    (columns : Except CatalogError (List Entry)) (s : Stage) : Prop where
  customColumn : ∀ c ∈ s.customColumns, ∀ row,
    Avoids bad (db.evalRow row c.expression)
  filter : ∀ predicate ∈ s.filters, ∀ row, Avoids bad (db.evalRow row predicate)
  aggregation : ∀ (i : Nat) a, s.aggregations[i]? = some a →
    ∀ rows (done : List Cell),
    done.length = i → Avoids bad (db.evalGroup rows done a.expression)
  breakout : ∀ b ∈ s.breakouts, ∀ row, Avoids bad (db.value row b.column)
  sort : ∀ o ∈ s.orderBy, ∀ id, o.target = .column id → ∀ row,
    Avoids bad (db.value row id)
  output : s.isSummarized = false → ∀ entries, columns = .ok entries →
    ∀ e ∈ entries, ∀ row,
    Avoids bad (db.value row e.identifier)

namespace Cell

theorem eq_dayCount_of_countedDate {date : Option CivilDate} {e : Abort}
    (h : countedDate date = .error e) : e = .dayCount := by
  cases date <;> cases h
  rfl

theorem eq_dayCount_of_countedNumber {w : Word64} {e : Abort}
    (h : countedNumber w = .error e) : e = .dayCount := by
  cases w <;> cases h
  rfl

theorem eq_dayCount_of_truncate? {t : Timestamp} {unit : CalendarUnit}
    {e : Abort} (h : truncate? t unit = some (.error e)) : e = .dayCount := by
  cases unit <;> obtain ⟨_, -, hcell⟩ := Option.map_eq_some_iff.mp h
  case week => exact eq_dayCount_of_countedDate hcell
  case dayOfWeek | dayOfYear | weekOfYear =>
    exact eq_dayCount_of_countedNumber hcell
  all_goals cases hcell

theorem eq_dayCount_of_bucket {unit : CalendarUnit} {cell : Cell} {e : Abort}
    (h : cell.bucket unit = .error e) : e = .dayCount := by
  cases cell with
  | string s | temporal s =>
      rw [bucket] at h
      cases htruncated : (Timestamp.parse? s).bind (truncate? · unit) with
      | none =>
          rw [htruncated] at h
          cases h
      | some result =>
          rw [htruncated, Option.getD_some] at h
          obtain ⟨t, -, ht⟩ := Option.bind_eq_some_iff.mp htruncated
          exact eq_dayCount_of_truncate? (h ▸ ht)
  | _ => cases h

theorem avoids_bucket [SparesValues bad] (unit : CalendarUnit) (cell : Cell) :
    Avoids bad ((cell.bucket unit).mapError .aborted) := by
  cases hcell : cell.bucket unit with
  | ok c => exact Avoids.ok c
  | error e =>
      obtain rfl := eq_dayCount_of_bucket hcell
      exact Avoids.error_iff.mpr SparesValues.dayCount

end Cell

namespace Database

variable {db : Database} {columns : Except CatalogError (List Entry)}
  {s : Stage}

theorem avoids_pushColumns {customColumns : List CustomColumn}
    (h : ∀ c ∈ customColumns, ∀ row, Avoids bad (db.evalRow row c.expression))
    (row : Row) : Avoids bad (db.pushColumns customColumns row) := by
  induction customColumns generalizing row with
  | nil => simp [pushColumns]
  | cons c customColumns ih =>
      obtain ⟨hc, hrest⟩ := List.forall_mem_cons.mp h
      simp [pushColumns, hc row, ih hrest]

theorem avoids_passes {filters : List Expression}
    (h : ∀ predicate ∈ filters, ∀ row, Avoids bad (db.evalRow row predicate))
    (row : Row) : Avoids bad (db.passes filters row) := by
  induction filters with
  | nil => simp [passes]
  | cons predicate filters ih =>
      obtain ⟨hpredicate, hrest⟩ := List.forall_mem_cons.mp h
      simp [passes, avoids_accepts hpredicate, ih hrest]

theorem avoids_prepare (h : s.ClausesAvoid db bad columns) (rows : List Row) :
    Avoids bad (db.prepare s rows) := by
  induction rows with
  | nil => simp [prepare]
  | cons row rows ih =>
      simp [prepare, avoids_pushColumns h.customColumn,
        avoids_passes h.filter, ih]

variable [SparesValues bad]

theorem avoids_groups {breakouts : List Breakout}
    (h : ∀ b ∈ breakouts, ∀ row, Avoids bad (db.value row b.column))
    (rows : List Row) : Avoids bad (db.groups breakouts rows) := by
  have hcell : ∀ row, ∀ b ∈ breakouts, Avoids bad (db.breakoutCell row b) := by
    intro row b hb
    rw [breakoutCell, Avoids.bind_iff]
    refine ⟨h b hb row, fun cell _ => ?_⟩
    cases b.unit with
    | none => simp
    | some unit => exact Cell.avoids_bucket unit cell
  have hkey : ∀ row, Avoids bad (db.groupKey breakouts row) :=
    fun row => Avoids.mapM (hcell row)
  have hrows : Avoids bad (db.groupRows breakouts rows) :=
    Avoids.foldlM (fun groups row => by simp [hkey]) []
  simp [groups, hrows]

@[simp] theorem avoids_mapError_catalog
    (columns : Except CatalogError (List Entry)) :
    Avoids bad (columns.mapError .catalog) := by
  cases columns <;> simp [Except.mapError]

theorem avoids_project (h : s.ClausesAvoid db bad columns)
    (hs : s.isSummarized = false)
    (hsorts : ∀ o ∈ s.orderBy, ∃ id, o.target = .column id) (rows : List Row) :
    Avoids bad (db.project columns s rows) := by
  have hsort : Avoids bad (db.sortRows s.orderBy rows) := by
    refine avoids_sortRows (fun o ho => ?_) rows
    obtain ⟨id, hid⟩ := hsorts o ho
    exact ⟨id, hid, h.sort o ho id hid⟩
  simp only [project, Avoids.bind_iff, hsort, avoids_mapError_catalog, true_and]
  intro sorted _ entries hentries
  have houtput := h.output hs entries (mapError_eq_ok_iff.mp hentries)
  exact ⟨Avoids.mapM fun row _ => Avoids.mapM fun e he => houtput e he row,
    by simp⟩

theorem avoids_summarize (h : s.ClausesAvoid db bad columns)
    (hsorts : ∀ o ∈ s.orderBy, ∃ c, orderColumn s.breakouts o = .ok c ∧
      c < s.breakouts.length + s.aggregations.length)
    (rows : List Row) : Avoids bad (db.summarize columns s rows) := by
  have haggregations : ∀ rows,
      Avoids bad (db.aggregations rows [] s.aggregations) :=
    fun rows => avoids_aggregations rows fun k a ha done hdone =>
      h.aggregation k a ha rows done (by simpa using hdone)
  rw [summarize, Avoids.bind_iff]
  refine ⟨avoids_groups h.breakout rows, fun found hfound => ?_⟩
  rw [Avoids.bind_iff]
  refine ⟨Avoids.mapM fun g _ => by simp [haggregations],
    fun computed hcomputed => ?_⟩
  simp only [mapM_eq_ok_iff, bind_eq_ok_iff, pure_eq_ok_iff] at hcomputed
  have hwidth := length_groupRow (fun g hg => length_key hfound hg) hcomputed
  rw [Avoids.bind_iff]
  refine ⟨avoids_accumulateAll (Nat.le_refl _) hwidth,
    fun totalled htotalled => ?_⟩
  have hsort : Avoids bad (sortGroups s.breakouts s.orderBy totalled) :=
    avoids_sortGroups hsorts (length_of_mem_accumulateAll htotalled hwidth)
  simp [hsort]

/-- A valid stage fails only where one of its clauses does. -/
theorem avoids_runStage {source : Except CatalogError (List Entry)}
    (hvalid : s.Valid source) (h : s.ClausesAvoid db bad columns)
    (rows : List Row) : Avoids bad (db.runStage columns s rows) := by
  rw [runStage, Avoids.bind_iff]
  refine ⟨avoids_prepare h rows, fun prepared _ => ?_⟩
  have hresult : Avoids bad (if s.isSummarized then
      db.summarize columns s prepared
      else db.project columns s prepared) := by
    cases hs : s.isSummarized with
    | true =>
        exact avoids_summarize h (fun o ho => hvalid.exists_orderColumn hs ho)
          prepared
    | false =>
        exact avoids_project h hs
          (fun o ho => hvalid.exists_column_of_sort hs ho) prepared
  simp only [ite_bind, Avoids.bind_iff]
  refine ⟨hresult, fun result _ => ?_⟩
  cases s.limit <;> simp

end Database

end TableQuery
