import TableQuery.Evaluation.Expression
import TableQuery.Proofs.Except
import TableQuery.Proofs.Expression

/-!
# Values of renumbered expressions

An expression keeps its value when its references to aggregations are renumbered
and the values that they lead to move along.  Only the errors may name other
positions.
-/

namespace TableQuery.Database

open Expression (renumber)

variable (db : Database)

/-! ## Rows -/

theorem evalArgs_eq_mapM (row : Row) (args : List Expression) :
    db.evalArgs row args = args.mapM (db.evalRow row) := by
  induction args with
  | nil => rfl
  | cons arg args ih => simp [evalArgs, ih]

theorem evalRow_renumber (f : Nat → Nat) (row : Row) (e : Expression) :
    Refines (db.evalRow row e) (db.evalRow row (e.renumber f)) := by
  induction e using Expression.induct with
  | number value => exact .refl _
  | string value => exact .refl _
  | column id =>
      cases id with
      | aggregation index => exact .of_error _ _
      | _ => exact .refl _
  | call function args ih =>
      rw [Expression.renumber_call, evalRow, evalRow, evalArgs_eq_mapM,
        evalArgs_eq_mapM]
      split
      case isTrue => exact .refl _
      case isFalse =>
          refine .bind (.mapM ?_) fun _ => .refl _
          rw [List.forall₂_map_right_iff, List.forall₂_same]
          exact ih
  | binary op left right ihLeft ihRight =>
      simp only [Expression.renumber_binary, evalRow]
      exact ihLeft.bind fun _ => ihRight.bind fun _ => .refl _
  | unary op operand ih =>
      simp only [Expression.renumber_unary, evalRow]
      exact ih.bind fun _ => .refl _
  | unrecognized stored => exact .refl _

theorem evalColumn_renumber (f : Nat → Nat) (rows : List Row) (e : Expression) :
    Refines (db.evalColumn rows e) (db.evalColumn rows (e.renumber f)) :=
  .mapM (List.forall₂_same.mpr fun row _ => db.evalRow_renumber f row e)

theorem matching_renumber (f : Nat → Nat) (predicate : Expression)
    (rows : List Row) :
    Refines (db.matching predicate rows)
      (db.matching (predicate.renumber f) rows) :=
  .filterM fun row _ => (db.evalRow_renumber f row predicate).bind fun _ =>
    .refl _

/-! ## Groups -/

private theorem argumentOf_bind {α : Type} {f : Nat → Nat} (g : Function)
    (args : List Expression) (index : Nat)
    {x y : Expression → Except EvaluationError α}
    (h : ∀ e, Refines (x e) (y (e.renumber f))) :
    Refines (argumentOf g args index >>= x)
      (argumentOf g (args.map (renumber f)) index >>= y) := by
  unfold argumentOf
  rw [List.getElem?_map]
  cases args[index]? with
  | none => exact .of_error _ _
  | some e => exact h e

theorem numbersOf_renumber (f : Nat → Nat) (rows : List Row) (g : Function)
    (args : List Expression) (index : Nat) :
    Refines (db.numbersOf rows g args index)
      (db.numbersOf rows g (args.map (renumber f)) index) :=
  argumentOf_bind g args index fun e =>
    (db.evalColumn_renumber f rows e).bind fun _ => .refl _

theorem hits_renumber (f : Nat → Nat) (rows : List Row) (g : Function)
    (args : List Expression) (index : Nat) :
    Refines (db.hits rows g args index)
      (db.hits rows g (args.map (renumber f)) index) :=
  argumentOf_bind g args index fun e => db.matching_renumber f e rows

theorem aggregate_renumber (f : Nat → Nat) (rows : List Row)
    {rank rank' : Unit → Except EvaluationError Cell}
    (hrank : Refines (rank ()) (rank' ())) (g : Function)
    (args : List Expression) :
    Refines (db.aggregate rows rank g args)
      (db.aggregate rows rank' g (args.map (renumber f))) := by
  have hcells {α : Type} (next : List Cell → Except EvaluationError α) :
      Refines (argumentOf g args 0 >>= fun e => db.evalColumn rows e >>= next)
        (argumentOf g (args.map (renumber f)) 0 >>=
          fun e => db.evalColumn rows e >>= next) :=
    argumentOf_bind g args 0 fun e =>
      (db.evalColumn_renumber f rows e).bind fun _ => .refl _
  have hnumbers := db.numbersOf_renumber f rows g args 0
  cases g with
  | count | cumulativeCount =>
      cases args with
      | nil => exact .refl _
      | cons e args =>
          exact (db.evalColumn_renumber f rows e).bind fun _ => .refl _
  | sum | cumulativeSum | average | variance | standardDeviation | median =>
      exact hnumbers.bind fun _ => .refl _
  | distinct | min | max => exact hcells _
  | percentile =>
      exact hnumbers.bind fun _ => argumentOf_bind _ args 1 fun _ =>
        hrank.bind fun _ => .refl _
  | share =>
      simp only [aggregate]
      split
      case isTrue => exact .refl _
      case isFalse =>
          exact (db.hits_renumber f rows _ args 0).bind fun _ => .refl _
  | countIf => exact (db.hits_renumber f rows _ args 0).bind fun _ => .refl _
  | sumIf =>
      exact (db.hits_renumber f rows _ args 1).bind fun found =>
        (db.numbersOf_renumber f found _ args 0).bind fun _ => .refl _
  | _ => exact .refl _

theorem evalGroupArgs_eq_mapM (rows : List Row) (done : List Cell)
    (args : List Expression) :
    db.evalGroupArgs rows done args = args.mapM (db.evalGroup rows done) := by
  induction args with
  | nil => rfl
  | cons arg args ih => simp [evalGroupArgs, ih]

/-- The value of an aggregation depends on the aggregations that it reads, not
on where they stand. -/
theorem evalGroup_renumber {f : Nat → Nat} (rows : List Row)
    {done done' : List Cell} {e : Expression}
    (h : ∀ i ∈ e.aggregationRefs, ∀ cell, done[i]? = some cell →
      done'[f i]? = some cell) :
    Refines (db.evalGroup rows done e)
      (db.evalGroup rows done' (e.renumber f)) := by
  induction e using Expression.induct with
  | number value => exact .refl _
  | string value => exact .refl _
  | column id =>
      cases id with
      | aggregation index =>
          intro cell hcell
          have hvalue : done[index]? = some cell := by
            simp only [evalGroup] at hcell
            split at hcell <;> simp_all
          have hmoved :=
            h index
              (by simp [Expression.mem_aggregationRefs, Expression.identifiers])
              cell hvalue
          simp [renumber, Expression.mapIdentifiers, evalGroup, hmoved]
      | _ => exact .refl _
  | call function args ih =>
      simp only [Expression.aggregationRefs_call, List.mem_flatMap] at h
      have hargs : ∀ arg ∈ args,
          Refines (db.evalGroup rows done arg)
            (db.evalGroup rows done' (arg.renumber f)) :=
        fun arg harg => ih arg harg fun i hi => h i ⟨arg, harg, hi⟩
      rw [Expression.renumber_call, evalGroup, evalGroup]
      split
      case isTrue =>
          refine db.aggregate_renumber f rows ?_ function args
          cases args with
          | nil => exact .refl _
          | cons first rest =>
              cases rest with
              | nil => exact .refl _
              | cons e _ => exact hargs e (by simp)
      case isFalse =>
          rw [evalGroupArgs_eq_mapM, evalGroupArgs_eq_mapM]
          refine .bind (.mapM ?_) fun _ => .refl _
          rw [List.forall₂_map_right_iff, List.forall₂_same]
          exact hargs
  | binary op left right ihLeft ihRight =>
      simp only [Expression.aggregationRefs_binary, List.mem_append] at h
      simp only [Expression.renumber_binary, evalGroup]
      exact (ihLeft fun i hi => h i (.inl hi)).bind fun _ =>
        (ihRight fun i hi => h i (.inr hi)).bind fun _ => .refl _
  | unary op operand ih =>
      simp only [Expression.renumber_unary, evalGroup]
      exact (ih h).bind fun _ => .refl _
  | unrecognized stored => exact .refl _

end TableQuery.Database
