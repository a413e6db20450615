import TableQuery.Proofs.Query.Positions
import TableQuery.Proofs.Query.Validity
import TableQuery.Query.Edit

/-!
# What an edit does

An edit that succeeds starts from a valid query, passes the checks of its
positions, and gives a valid query whose last stage is the edited one.  The
sections below say so for each edit, and then what the edited stage holds.
-/

namespace TableQuery

namespace Draft

variable {c : Catalog} {d d' : Draft} {position : ClausePosition}

/-! ## Successes -/

theorem commit_eq_ok_iff {stage : Stage} :
    d.commit c stage = .ok d' ↔
      (d.query.withStage stage).Valid c ∧
      d' = ⟨d.query.withStage stage, d.revision + 1⟩ := by
  rw [commit, check_bind_eq_ok_iff, Query.validate_eq_ok_iff, pure_eq_ok_iff]
  exact and_congr_right fun _ => eq_comm

theorem insert_eq_ok_iff {clause : Clause} :
    d.insert c position clause = .ok d' ↔
      clause.kind = position.kind ∧
        position.index ≤ d.query.stage.count position.kind ∧ d.query.Valid c ∧
        d.commit c (d.query.stage.withInserted position.index clause) =
          .ok d' := by
  simp only [Draft.insert, check_bind_eq_ok_iff, Query.validate_eq_ok_iff,
    checkKind, checkInsertRange]
  by_cases hkind : clause.kind = position.kind <;>
    by_cases hrange : position.index ≤ d.query.stage.count position.kind <;>
    simp [hkind, hrange]

theorem remove_eq_ok_iff {policy : OrderByPolicy} :
    d.remove c policy position = .ok d' ↔
      position.index < d.query.stage.count position.kind ∧ d.query.Valid c ∧
        d.query.stage.checkUnused position = .ok () ∧
        d.commit c (d.query.stage.withErased policy position) = .ok d' := by
  simp only [Draft.remove, check_bind_eq_ok_iff, Query.validate_eq_ok_iff,
    checkRange]
  by_cases hrange : position.index < d.query.stage.count position.kind <;>
    simp [hrange]

theorem replace_eq_ok_iff {clause : Clause} :
    d.replace c position clause = .ok d' ↔
      clause.kind = position.kind ∧
        position.index < d.query.stage.count position.kind ∧ d.query.Valid c ∧
        d.query.stage.checkRename position.index clause = .ok () ∧
        d.commit c (d.query.stage.withReplaced position clause) = .ok d' := by
  simp only [Draft.replace, check_bind_eq_ok_iff, Query.validate_eq_ok_iff,
    checkKind, checkRange]
  by_cases hkind : clause.kind = position.kind <;>
    by_cases hrange : position.index < d.query.stage.count position.kind <;>
    simp [hkind, hrange]

theorem move_eq_ok_iff {stop : Nat} :
    d.move c position stop = .ok d' ↔
      position.index < d.query.stage.count position.kind ∧
        stop < d.query.stage.count position.kind ∧ d.query.Valid c ∧
        d.commit c (d.query.stage.withMoved position stop) = .ok d' := by
  simp only [Draft.move, check_bind_eq_ok_iff, Query.validate_eq_ok_iff,
    checkRange]
  by_cases hstart : position.index < d.query.stage.count position.kind <;>
    by_cases hstop : stop < d.query.stage.count position.kind <;>
    simp [hstart, hstop]

end Draft

/-! ## Renumbering back -/

section

variable {f g : Nat → Nat}

theorem Aggregation.renumber_leftInverse (h : Function.LeftInverse g f) :
    Function.LeftInverse (Aggregation.renumber g) (Aggregation.renumber f) := by
  intro a
  have hid : g ∘ f = id := funext h
  simp [Aggregation.renumber, Expression.renumber_renumber, hid,
    Expression.renumber_eq_self]

theorem OrderTarget.mapAggregation_leftInverse (h : Function.LeftInverse g f) :
    Function.LeftInverse (OrderTarget.mapAggregation g)
      (OrderTarget.mapAggregation f) := by
  intro target
  cases target <;> simp [OrderTarget.mapAggregation, h _]

theorem OrderTarget.mapBreakout_leftInverse (h : Function.LeftInverse g f) :
    Function.LeftInverse (OrderTarget.mapBreakout g)
      (OrderTarget.mapBreakout f) := by
  intro target
  cases target <;> simp [OrderTarget.mapBreakout, h _]

theorem OrderBy.mapTarget_leftInverse {f g : OrderTarget → OrderTarget}
    (h : Function.LeftInverse g f) :
    Function.LeftInverse (OrderBy.mapTarget g) (OrderBy.mapTarget f) := by
  intro o
  simp [OrderBy.mapTarget, h _]

end

/-! ## Edited stages -/

namespace Stage

def keptSorts (s : Stage) : List OrderBy :=
  if s.isSummarized then s.orderBy else s.orderBy.filter (!·.target.isColumn)

theorem filter_isColumn_map (f : OrderTarget → OrderTarget)
    (hf : ∀ target, (f target).isColumn = target.isColumn)
    (orders : List OrderBy) :
    (orders.map (OrderBy.mapTarget f)).filter (!·.target.isColumn) =
      (orders.filter (!·.target.isColumn)).map (OrderBy.mapTarget f) := by
  rw [List.filter_map]
  congr 1
  exact List.filter_congr fun o _ => by simp [OrderBy.mapTarget, hf]

theorem withInserted_aggregation (s : Stage) (index : Nat) (a : Aggregation) :
    s.withInserted index (.aggregation a) =
      { s with
        aggregations :=
          (s.aggregations.map
            (Aggregation.renumber (indexAfterInsert index))).insertIdx index a
        orderBy := s.keptSorts.map
          (OrderBy.mapTarget
            (OrderTarget.mapAggregation (indexAfterInsert index))) } := by
  have hsorts :=
    filter_isColumn_map (OrderTarget.mapAggregation (indexAfterInsert index))
      (fun target => by cases target <;> rfl) s.orderBy
  cases hsum : s.isSummarized <;>
    simp [withInserted, Clause.kind, renumber, renumberExpressions,
      dropColumnSorts, Stage.insert, keptSorts, hsum, hsorts]

theorem withInserted_breakout (s : Stage) (index : Nat) (b : Breakout) :
    s.withInserted index (.breakout b) =
      { s with
        breakouts := s.breakouts.insertIdx index b
        orderBy := s.keptSorts.map
          (OrderBy.mapTarget
            (OrderTarget.mapBreakout (indexAfterInsert index))) } := by
  have hsorts :=
    filter_isColumn_map (OrderTarget.mapBreakout (indexAfterInsert index))
      (fun target => by cases target <;> rfl) s.orderBy
  cases hsum : s.isSummarized <;>
    simp [withInserted, Clause.kind, renumber, dropColumnSorts, Stage.insert,
      keptSorts, hsum, hsorts]

theorem clause?_withInserted_kind {s : Stage} {index : Nat} {clause : Clause}
    (hindex : index ≤ s.count clause.kind) :
    (s.withInserted index clause).clause? ⟨clause.kind, index⟩ =
      some clause := by
  cases clause with
  | aggregation a =>
      have hlength : index ≤ s.aggregations.length := hindex
      rw [withInserted_aggregation]
      simp [clause?, Clause.kind, List.getElem?_insertIdx_self, hlength]
  | breakout b =>
      have hlength : index ≤ s.breakouts.length := hindex
      rw [withInserted_breakout]
      simp [clause?, Clause.kind, List.getElem?_insertIdx_self, hlength]
  | _ =>
      simp [withInserted, Clause.kind, renumber, Stage.insert, clause?,
        List.getElem?_insertIdx_self]
      exact hindex

theorem withMoved_aggregation {s : Stage} {start stop : Nat}
    (h : start < s.aggregations.length) :
    s.withMoved ⟨.aggregation, start⟩ stop =
      { s with
        aggregations := moveItem start stop
          (s.aggregations.map
            (Aggregation.renumber (indexAfterMove start stop)))
        orderBy := s.orderBy.map
          (OrderBy.mapTarget
            (OrderTarget.mapAggregation (indexAfterMove start stop))) } := by
  simp [withMoved, renumber, renumberExpressions, move, clause?, moveItem,
    erase, Stage.insert, h]

theorem withMoved_breakout {s : Stage} {start stop : Nat}
    (h : start < s.breakouts.length) :
    s.withMoved ⟨.breakout, start⟩ stop =
      { s with
        breakouts := moveItem start stop s.breakouts
        orderBy := s.orderBy.map
          (OrderBy.mapTarget
            (OrderTarget.mapBreakout (indexAfterMove start stop))) } := by
  simp [withMoved, renumber, move, clause?, moveItem, erase, Stage.insert, h]

theorem withMoved_customColumn {s : Stage} {start stop : Nat}
    (h : start < s.customColumns.length) :
    s.withMoved ⟨.customColumn, start⟩ stop =
      { s with customColumns := moveItem start stop s.customColumns } := by
  simp [withMoved, renumber, move, clause?, moveItem, erase, Stage.insert, h]

theorem withMoved_filter {s : Stage} {start stop : Nat}
    (h : start < s.filters.length) :
    s.withMoved ⟨.filter, start⟩ stop =
      { s with filters := moveItem start stop s.filters } := by
  simp [withMoved, renumber, move, clause?, moveItem, erase, Stage.insert, h]

theorem withMoved_orderBy {s : Stage} {start stop : Nat}
    (h : start < s.orderBy.length) :
    s.withMoved ⟨.orderBy, start⟩ stop =
      { s with orderBy := moveItem start stop s.orderBy } := by
  simp [withMoved, renumber, move, clause?, moveItem, erase, Stage.insert, h]

theorem count_withMoved {s : Stage} {kind : ClauseKind} {start stop : Nat}
    (hstart : start < s.count kind) (hstop : stop < s.count kind) :
    (s.withMoved ⟨kind, start⟩ stop).count kind = s.count kind := by
  cases kind with
  | customColumn =>
      rw [withMoved_customColumn hstart]
      exact length_moveItem _ hstop
  | filter =>
      rw [withMoved_filter hstart]
      exact length_moveItem _ hstop
  | aggregation =>
      have hlength :=
        s.aggregations.length_map
          (Aggregation.renumber (indexAfterMove start stop))
      rw [withMoved_aggregation hstart]
      exact (length_moveItem _ (by rwa [hlength])).trans hlength
  | breakout =>
      rw [withMoved_breakout hstart]
      exact length_moveItem _ hstop
  | orderBy =>
      rw [withMoved_orderBy hstart]
      exact length_moveItem _ hstop

theorem withErased_aggregation (policy : OrderByPolicy) (s : Stage)
    (index : Nat) :
    s.withErased policy ⟨.aggregation, index⟩ =
      { s with
        aggregations := (s.aggregations.eraseIdx index).map
          (Aggregation.renumber (indexAfterErase index))
      }.reconcileSorts policy .aggregation index := rfl

theorem withErased_breakout (policy : OrderByPolicy) (s : Stage) (index : Nat) :
    s.withErased policy ⟨.breakout, index⟩ =
      { s with breakouts := s.breakouts.eraseIdx index
      }.reconcileSorts policy .breakout index := rfl

/-! ### Whether an edited stage groups or aggregates -/

theorem isSummarized_of_lt_count {s : Stage} {kind : ClauseKind} {index : Nat}
    (hkind : kind = .aggregation ∨ kind = .breakout)
    (hindex : index < s.count kind) :
    s.isSummarized := by
  rcases hkind with rfl | rfl
  · have hne : s.aggregations ≠ [] :=
      List.ne_nil_of_length_pos (Nat.zero_lt_of_lt hindex)
    simp [isSummarized, hne]
  · have hne : s.breakouts ≠ [] :=
      List.ne_nil_of_length_pos (Nat.zero_lt_of_lt hindex)
    simp [isSummarized, hne]

theorem isSummarized_withInserted {s : Stage} {index : Nat} {clause : Clause}
    (hindex : index ≤ s.count clause.kind) :
    (s.withInserted index clause).isSummarized =
      (s.isSummarized ||
        (clause.kind = .aggregation ∨ clause.kind = .breakout)) := by
  cases clause with
  | aggregation a =>
      have hindex : index ≤ s.aggregations.length := hindex
      have hlt : index <
          (s.withInserted index (.aggregation a)).count .aggregation := by
        simp only [withInserted_aggregation, count, List.length_insertIdx,
          List.length_map, hindex, if_true]
        omega
      simp [Clause.kind, isSummarized_of_lt_count (.inl rfl) hlt]
  | breakout b =>
      have hindex : index ≤ s.breakouts.length := hindex
      have hlt : index <
          (s.withInserted index (.breakout b)).count .breakout := by
        simp only [withInserted_breakout, count, List.length_insertIdx,
          hindex, if_true]
        omega
      simp [Clause.kind, isSummarized_of_lt_count (.inr rfl) hlt]
  | _ => simp [withInserted, renumber, Stage.insert, isSummarized, Clause.kind]

end Stage

end TableQuery
