import TableQuery.Proofs.Evaluation.Renumbering
import TableQuery.Proofs.Evaluation.Unsorted

/-!
# Rows that differ under a name

A row holds its custom columns and the columns of an earlier stage by their
names, and its fields by their numbers.  A change of rows under one name shows
only where a column of that name is read: an expression that reads none has the
same value, a filter passes the same rows, a sort leaves them in the same order,
and groups have the same keys and the same aggregations.
-/

namespace TableQuery

/-! ## What is held by a name -/

def Identifier.rowName? : Identifier → Option String
  | .customColumn name | .stageColumn name _ => some name
  | _ => none

/-- Whether an expression reads no cell that a row holds by a name. -/
def Expression.Spares (name : String) (e : Expression) : Prop :=
  ∀ id ∈ e.identifiers, id.rowName? ≠ some name

namespace Expression.Spares

theorem of_mem_args {name : String} {function : Function}
    {args : List Expression} (h : (call function args).Spares name) :
    ∀ arg ∈ args, arg.Spares name := by
  intro arg harg id hid
  refine h id ?_
  rw [identifiers, argIdentifiers_eq_flatMap]
  exact List.mem_flatMap.mpr ⟨arg, harg, hid⟩

theorem operands {name : String} {op : BinaryOp} {left right : Expression}
    (h : (binary op left right).Spares name) :
    left.Spares name ∧ right.Spares name :=
  List.forall_mem_append.mp h

end Expression.Spares

structure Stage.Spares (name : String) (s : Stage) : Prop where
  filter : ∀ predicate ∈ s.filters, predicate.Spares name
  aggregation : ∀ a ∈ s.aggregations, a.expression.Spares name
  breakout : ∀ b ∈ s.breakouts, b.column.rowName? ≠ some name
  sort : ∀ o ∈ s.orderBy, ∀ id, o.target = .column id → id.rowName? ≠ some name

namespace Database

/-- A change of rows that shows only where a cell is read by a name. -/
def ChangesOnly (db : Database) (name : String) (change : Row → Row) : Prop :=
  ∀ row id, id.rowName? ≠ some name → db.value (change row) id = db.value row id

variable {db : Database} {name : String} {change : Row → Row}

theorem value_insert (row : Row) (cell : Cell) {id : Identifier}
    (h : id.rowName? ≠ some name) :
    db.value (row.insert name cell) id = db.value row id := by
  have hcolumn : ∀ name', name' ≠ name →
      (row.insert name cell).column name' = row.column name' := by
    intro name' hne
    have hbeq : (name' == name) = false := beq_false_of_ne hne
    simp [Row.column, Row.insert, List.lookup_cons, hbeq]
  cases id with
  | customColumn name' =>
      exact congrArg _ (hcolumn name' fun heq => h (heq ▸ rfl))
  | stageColumn name' kind =>
      exact congrArg _ (hcolumn name' fun heq => h (heq ▸ rfl))
  | _ => rfl

section Rows

variable (h : db.ChangesOnly name change)
include h

theorem evalRow_change {e : Expression} (he : e.Spares name) (row : Row) :
    db.evalRow (change row) e = db.evalRow row e := by
  induction e using Expression.induct with
  | number value => rfl
  | string value => rfl
  | column id => exact h row id (he id (by simp [Expression.identifiers]))
  | call function args ih =>
      have hargs : args.mapM (db.evalRow (change row)) =
          args.mapM (db.evalRow row) :=
        mapM_congr_of_mem fun arg harg => ih arg harg (he.of_mem_args arg harg)
      simp only [evalRow, evalArgs_eq_mapM, hargs]
  | binary op left right ihLeft ihRight =>
      simp only [evalRow, ihLeft he.operands.1, ihRight he.operands.2]
  | unary op operand ih => simp only [evalRow, ih he]
  | unrecognized stored => rfl

theorem accepts_change {predicate : Expression} (he : predicate.Spares name)
    (row : Row) :
    db.accepts predicate (change row) = db.accepts predicate row := by
  rw [accepts, accepts, evalRow_change h he]

theorem evalColumn_change {e : Expression} (he : e.Spares name)
    (rows : List Row) :
    db.evalColumn (rows.map change) e = db.evalColumn rows e := by
  rw [evalColumn, evalColumn, List.mapM_map]
  exact mapM_congr_of_mem fun row _ => evalRow_change h he row

theorem matching_change {predicate : Expression} (he : predicate.Spares name)
    (rows : List Row) :
    db.matching predicate (rows.map change) =
      (db.matching predicate rows).map (List.map change) := by
  rw [matching, matching, filterM_map]
  congr 2
  exact funext (accepts_change h he)

/-! ### Groups -/

section Aggregates

variable {args : List Expression} (hargs : ∀ arg ∈ args, arg.Spares name)
include hargs

omit h in
theorem argumentOf_bind_congr {α : Type} (f : Function) (index : Nat)
    {x y : Expression → Except EvaluationError α}
    (hxy : ∀ e, e.Spares name → x e = y e) :
    (argumentOf f args index >>= x) = argumentOf f args index >>= y := by
  unfold argumentOf
  cases hfound : args[index]? with
  | none => rfl
  | some e => exact hxy e (hargs e (List.mem_of_getElem? hfound))

theorem numbersOf_change (rows : List Row) (f : Function) (index : Nat) :
    db.numbersOf (rows.map change) f args index =
      db.numbersOf rows f args index :=
  argumentOf_bind_congr hargs f index fun e he => by rw [evalColumn_change h he]

theorem hits_change (rows : List Row) (f : Function) (index : Nat) :
    db.hits (rows.map change) f args index =
      (db.hits rows f args index).map (List.map change) := by
  unfold hits argumentOf
  cases hfound : args[index]? with
  | none => rfl
  | some e =>
      exact matching_change h (hargs e (List.mem_of_getElem? hfound)) rows

theorem aggregate_change (rows : List Row)
    (rank : Unit → Except EvaluationError Cell) (f : Function) :
    db.aggregate (rows.map change) rank f args =
      db.aggregate rows rank f args := by
  have hcells {α : Type} (next : List Cell → Except EvaluationError α) :
      (argumentOf f args 0 >>= fun e => db.evalColumn (rows.map change) e >>=
        next) =
        argumentOf f args 0 >>= fun e => db.evalColumn rows e >>= next :=
    argumentOf_bind_congr hargs f 0 fun e he => by rw [evalColumn_change h he]
  cases f with
  | count | cumulativeCount =>
      cases args with
      | nil => simp [aggregate]
      | cons e args =>
          simp only [aggregate,
            evalColumn_change h (hargs e List.mem_cons_self)]
  | distinct | min | max => exact hcells _
  | share | countIf | sumIf =>
      simp only [aggregate, hits_change h hargs, numbersOf_change h hargs,
        map_bind, List.length_map, List.isEmpty_map]
  | _ => simp only [aggregate, numbersOf_change h hargs]

end Aggregates

theorem evalGroup_change {e : Expression} (he : e.Spares name) (rows : List Row)
    (done : List Cell) : db.evalGroup (rows.map change) done e =
      db.evalGroup rows done e := by
  induction e using Expression.induct with
  | call function args ih =>
      have hargs := he.of_mem_args
      have hvalues : args.mapM (db.evalGroup (rows.map change) done) =
          args.mapM (db.evalGroup rows done) :=
        mapM_congr_of_mem fun arg harg => ih arg harg (hargs arg harg)
      have hrank : db.evalGroupRank (rows.map change) done args =
          db.evalGroupRank rows done args := by
        cases args with
        | nil => rfl
        | cons first rest =>
            cases rest with
            | nil => rfl
            | cons e _ => exact ih e (by simp) (hargs e (by simp))
      simp only [evalGroup, evalGroupArgs_eq_mapM, hvalues, hrank,
        aggregate_change h hargs]
  | binary op left right ihLeft ihRight =>
      simp only [evalGroup, ihLeft he.operands.1, ihRight he.operands.2]
  | unary op operand ih => simp only [evalGroup, ih he]
  | column id => cases id <;> rfl
  | _ => rfl

theorem aggregations_change {aggs : List Aggregation}
    (haggs : ∀ a ∈ aggs, a.expression.Spares name) (rows : List Row)
    (done : List Cell) :
    db.aggregations (rows.map change) done aggs =
      db.aggregations rows done aggs := by
  induction aggs generalizing done with
  | nil => rfl
  | cons a aggs ih =>
      obtain ⟨ha, hrest⟩ := List.forall_mem_cons.mp haggs
      simp only [aggregations, evalGroup_change h ha, ih hrest]

end Rows

/-! ## Stages over changed rows -/

def Group.mapRows (change : Row → Row) (g : Group) : Group :=
  { g with rows := g.rows.map change }

theorem insertRow_change (key : List Cell) (row : Row) (found : List Group) :
    insertRow key (change row) (found.map (Group.mapRows change)) =
      (insertRow key row found).map (Group.mapRows change) := by
  induction found with
  | nil => rfl
  | cons g found ih =>
      rw [List.map_cons, insertRow, insertRow, ih]
      have hkey : (g.mapRows change).key = g.key := rfl
      rw [hkey]
      split <;> simp [Group.mapRows]

section Stages

variable (h : db.ChangesOnly name change)
include h

theorem groupKey_change {breakouts : List Breakout}
    (hbreakouts : ∀ b ∈ breakouts, b.column.rowName? ≠ some name) (row : Row) :
    db.groupKey breakouts (change row) = db.groupKey breakouts row :=
  mapM_congr_of_mem fun b hb =>
    by rw [breakoutCell, breakoutCell, h row _ (hbreakouts b hb)]

theorem groupRows_change {breakouts : List Breakout}
    (hbreakouts : ∀ b ∈ breakouts, b.column.rowName? ≠ some name)
    (rows : List Row) :
    db.groupRows breakouts (rows.map change) =
      (db.groupRows breakouts rows).map (List.map (Group.mapRows change)) := by
  -- Over any groups to begin with, since each row adds to those found before
  -- it.
  have hfold : ∀ start : List Group, (rows.map change).foldlM
      (fun found row => do
          return insertRow (← db.groupKey breakouts row) row found)
        (start.map (Group.mapRows change)) =
      (rows.foldlM
        (fun found row => do
            return insertRow (← db.groupKey breakouts row) row found) start).map
          (List.map (Group.mapRows change)) := by
    induction rows with
    | nil => exact fun _ => rfl
    | cons row rows ih =>
        intro start
        rw [List.map_cons, List.foldlM_cons, List.foldlM_cons,
          groupKey_change h hbreakouts]
        cases db.groupKey breakouts row with
        | error e => rfl
        | ok key =>
            have hinsert : insertRow key (change row)
                (start.map (Group.mapRows change)) =
                  (insertRow key row start).map (Group.mapRows change) :=
              insertRow_change key row start
            exact (congrArg (List.foldlM _ · (rows.map change)) hinsert).trans
              (ih _)
  exact hfold []

theorem groups_change {breakouts : List Breakout}
    (hbreakouts : ∀ b ∈ breakouts, b.column.rowName? ≠ some name)
    (rows : List Row) :
    db.groups breakouts (rows.map change) =
      (db.groups breakouts rows).map (List.map (Group.mapRows change)) := by
  rw [groups, groups, groupRows_change h hbreakouts, map_bind]
  cases db.groupRows breakouts rows with
  | error e => rfl
  | ok found =>
      have hempty : (if breakouts.isEmpty &&
          (found.map (Group.mapRows change)).isEmpty
            then [⟨[], []⟩] else found.map (Group.mapRows change)) =
          (if breakouts.isEmpty && found.isEmpty then [⟨[], []⟩] else found).map
            (Group.mapRows change) := by
        rw [List.isEmpty_map]
        split <;> rfl
      refine congrArg Except.ok ?_
      rw [hempty]
      exact sortByKey_map _ fun _ _ => rfl

theorem summarize_change {s : Stage} (hs : s.Spares name)
    (columns : Except CatalogError (List Entry)) (rows : List Row) :
    db.summarize columns s (rows.map change) = db.summarize columns s rows := by
  have hcells : ∀ found : List Group,
      ((found.map (Group.mapRows change)).mapM fun g => do
        return g.key ++ (← db.aggregations g.rows [] s.aggregations)) =
      found.mapM fun g => do
        return g.key ++ (← db.aggregations g.rows [] s.aggregations) := by
    intro found
    rw [List.mapM_map]
    exact mapM_congr_of_mem fun g _ => by
      simp only [Function.comp_apply, Group.mapRows,
        aggregations_change h hs.aggregation]
  rw [summarize, summarize, groups_change h hs.breakout, map_bind]
  simp only [hcells]

theorem sortRows_change {orders : List OrderBy}
    (horders : ∀ o ∈ orders, ∀ id, o.target = .column id →
      id.rowName? ≠ some name)
    (rows : List Row) :
    db.sortRows orders (rows.map change) =
      (db.sortRows orders rows).map (List.map change) := by
  have hkey : ∀ row, db.orderKey orders (change row) =
      db.orderKey orders row := by
    refine fun row => mapM_congr_of_mem fun o ho => ?_
    cases htarget : o.target with
    | column id => exact h row id (horders o ho id htarget)
    | _ => rfl
  rw [sortRows, sortRows]
  split
  case isTrue => rfl
  case isFalse =>
      have hkeyed : (rows.map change).mapM (fun row => do
            return (← db.orderKey orders row, row)) =
          (rows.mapM fun row => do return (← db.orderKey orders row, row)).map
            (List.map (Prod.map id change)) := by
        rw [List.mapM_map, ← mapM_map]
        refine mapM_congr_of_mem fun row _ => ?_
        rw [Function.comp_apply, hkey]
        cases db.orderKey orders row <;> rfl
      rw [hkeyed, map_bind]
      cases rows.mapM fun row => do return (← db.orderKey orders row, row) with
      | error e => rfl
      | ok keyed =>
          refine congrArg Except.ok ?_
          have hsorted : sortByKey (orders.map (·.direction)) Prod.fst
              (keyed.map (Prod.map id change)) =
                (sortByKey (orders.map (·.direction)) Prod.fst keyed).map
            (Prod.map id change) := sortByKey_map _ fun _ _ => rfl
          rw [hsorted, List.map_map, List.map_map]
          rfl

theorem passes_change {filters : List Expression}
    (hfilters : ∀ f ∈ filters, f.Spares name) (row : Row) :
    db.passes filters (change row) = db.passes filters row := by
  induction filters with
  | nil => rfl
  | cons f filters ih =>
      obtain ⟨hf, hrest⟩ := List.forall_mem_cons.mp hfilters
      simp only [passes, accepts_change h hf, ih hrest]

end Stages

end Database

end TableQuery
