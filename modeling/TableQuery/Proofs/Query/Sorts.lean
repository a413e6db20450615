import TableQuery.Proofs.Query.Edit
import TableQuery.Sample

/-!
# Sorts follow their clauses

An edit of the aggregations or the breakouts gives each clause that stays a new
position.  Every reference to a clause follows it there: those in expressions
and those of sorts.  A sort on the clause that is removed turns to the first
aggregation or is dropped, as the policy says.
-/

namespace TableQuery

/-! ## Edits of one list -/

inductive ListEdit where
  | insert (index : Nat) (clause : Clause)
  | remove (index : Nat)
  | move (start stop : Nat)

namespace ListEdit

def run (c : Catalog) (policy : OrderByPolicy) (d : Draft) (kind : ClauseKind) :
    ListEdit → Except ConsistencyError Draft
  | insert index clause => d.insert c ⟨kind, index⟩ clause
  | remove index => d.remove c policy ⟨kind, index⟩
  | move start stop => d.move c ⟨kind, start⟩ stop

def place : ListEdit → Nat → Option Nat
  | insert index _, i => some (indexAfterInsert index i)
  | remove index, i =>
      if i = index then none
      else some (indexAfterErase index i)
  | move start stop, i => some (indexAfterMove start stop i)

def shift (edit : ListEdit) (i : Nat) : Nat := (edit.place i).getD i

def Fits (kind : ClauseKind) (s : Stage) : ListEdit → Prop
  | insert index clause => clause.kind = kind ∧ index ≤ s.count kind
  | remove index => index < s.count kind
  | move start stop => start < s.count kind ∧ stop < s.count kind

def apply (policy : OrderByPolicy) (kind : ClauseKind) (s : Stage) :
    ListEdit → Stage
  | insert index clause => s.withInserted index clause
  | remove index => s.withErased policy ⟨kind, index⟩
  | move start stop => s.withMoved ⟨kind, start⟩ stop

/-- The sorts that an edit leaves to follow their clauses.  Sorts on columns go
when a clause is inserted into a stage that neither groups nor aggregates. -/
def keptSorts (s : Stage) : ListEdit → List OrderBy
  | insert _ _ => s.keptSorts
  | _ => s.orderBy

end ListEdit

def Clause.renumber (f : Nat → Nat) : Clause → Clause
  | aggregation a => aggregation (a.renumber f)
  | clause => clause

def OrderTarget.follow? (kind : ClauseKind) (place : Nat → Option Nat) :
    OrderTarget → Option OrderTarget
  | aggregation i =>
    if kind = .aggregation then (place i).map aggregation
    else some (aggregation i)
  | breakout i =>
      if kind = .breakout then (place i).map breakout
      else some (breakout i)
  | column id => some (column id)

def OrderBy.follow? (kind : ClauseKind) (place : Nat → Option Nat)
    (o : OrderBy) : Option OrderBy :=
  (o.target.follow? kind place).map fun target => { o with target }

def OrderBy.followOrRetarget? (kind : ClauseKind) (place : Nat → Option Nat)
    (retarget : Prop) [Decidable retarget] (o : OrderBy) : Option OrderBy :=
  (o.follow? kind place).or (if retarget then
    some { o with target := .aggregation 0 } else none)

/-- Whether a sort that lost its clause may turn to the first aggregation: the
policy asks for it, there is one, and none of the other sorts looks at it. -/
def OrderByPolicy.Retargets (policy : OrderByPolicy)
    (aggregations : List Aggregation) (others : List OrderBy) : Prop :=
  policy = .retargetFirstAggregation ∧ aggregations ≠ [] ∧
    ∀ o ∈ others, o.target ≠ .aggregation 0

instance (policy : OrderByPolicy) (aggregations : List Aggregation)
    (others : List OrderBy) :
    Decidable (policy.Retargets aggregations others) :=
  inferInstanceAs (Decidable (_ ∧ _ ∧ _))

/-! ## Following a renumbering -/

namespace OrderBy

theorem follow?_aggregation (f : Nat → Nat) (o : OrderBy) :
    o.follow? .aggregation (fun i => some (f i)) =
      some (o.mapTarget (OrderTarget.mapAggregation f)) := by
  cases h : o.target <;>
    simp [follow?, OrderTarget.follow?, mapTarget,
      OrderTarget.mapAggregation, h]

theorem follow?_breakout (f : Nat → Nat) (o : OrderBy) :
    o.follow? .breakout (fun i => some (f i)) =
      some (o.mapTarget (OrderTarget.mapBreakout f)) := by
  cases h : o.target <;>
    simp [follow?, OrderTarget.follow?, mapTarget, OrderTarget.mapBreakout, h]

theorem follow?_remove_aggregation {index : Nat} {o : OrderBy}
    (h : o.target ≠ .aggregation index) :
    o.follow? .aggregation (ListEdit.place (.remove index)) =
      some (o.mapTarget
        (OrderTarget.mapAggregation (indexAfterErase index))) := by
  cases htarget : o.target <;>
    simp_all [follow?, OrderTarget.follow?, ListEdit.place, mapTarget,
      OrderTarget.mapAggregation]

theorem follow?_remove_breakout {index : Nat} {o : OrderBy}
    (h : o.target ≠ .breakout index) :
    o.follow? .breakout (ListEdit.place (.remove index)) =
      some (o.mapTarget (OrderTarget.mapBreakout (indexAfterErase index))) := by
  cases htarget : o.target <;>
    simp_all [follow?, OrderTarget.follow?, ListEdit.place, mapTarget,
      OrderTarget.mapBreakout]

theorem filterMap_followOrRetarget? {kind : ClauseKind}
    {place : Nat → Option Nat} {retarget : Prop} [Decidable retarget]
    {g : OrderBy → OrderBy}
    (h : ∀ o : OrderBy, o.follow? kind place = some (g o))
    (orders : List OrderBy) :
    orders.filterMap (followOrRetarget? kind place retarget) =
      orders.map g := by
  have hsome : followOrRetarget? kind place retarget = fun o => some (g o) := by
    funext o
    simp [followOrRetarget?, h]
  rw [hsome, ← List.filterMap_eq_map]
  rfl

theorem target_of_follow?_eq_none {kind : ClauseKind} {index : Nat}
    {o : OrderBy} (h : o.follow? kind (ListEdit.place (.remove index)) = none) :
    o.target.index? kind = some index := by
  unfold follow? at h
  rw [Option.map_eq_none_iff] at h
  cases htarget : o.target with
  | aggregation i =>
      by_cases hkind : kind = .aggregation
      · by_cases hi : i = index <;>
          simp_all [OrderTarget.follow?, OrderTarget.index?, ListEdit.place]
      · simp [OrderTarget.follow?, htarget, hkind] at h
  | breakout i =>
      by_cases hkind : kind = .breakout
      · by_cases hi : i = index <;>
          simp_all [OrderTarget.follow?, OrderTarget.index?, ListEdit.place]
      · simp [OrderTarget.follow?, htarget, hkind] at h
  | column id => simp [OrderTarget.follow?, htarget] at h

theorem target_eq_of_index?_eq {kind : ClauseKind} {i : Nat} {a b : OrderTarget}
    (ha : a.index? kind = some i) (hb : b.index? kind = some i) : a = b := by
  cases a <;> cases b <;> cases kind <;> simp_all [OrderTarget.index?]

theorem sortAfterRemoval_eq (policy : OrderByPolicy) (s : Stage)
    (kind : ClauseKind) (index : Nat) (o : OrderBy) :
    s.sortAfterRemoval policy kind index o =
      match o.follow? kind (ListEdit.place (.remove index)) with
      | some o' => .kept o'
      | none =>
        if policy = .retargetFirstAggregation ∧ s.aggregations ≠ [] then
          .retargeted { o with target := .aggregation 0 }
        else .dropped := by
  obtain ⟨direction, target⟩ := o
  cases target with
  | aggregation i =>
      by_cases hkind : kind = .aggregation
      · by_cases hi : i = index <;>
          simp [Stage.sortAfterRemoval, follow?, OrderTarget.follow?,
            OrderTarget.index?, ListEdit.place, mapTarget,
            OrderTarget.withIndex, hkind, hi]
      · simp [Stage.sortAfterRemoval, follow?, OrderTarget.follow?,
          OrderTarget.index?, hkind]
  | breakout i =>
      by_cases hkind : kind = .breakout
      · by_cases hi : i = index <;>
          simp [Stage.sortAfterRemoval, follow?, OrderTarget.follow?,
            OrderTarget.index?, ListEdit.place, mapTarget,
            OrderTarget.withIndex, hkind, hi]
      · simp [Stage.sortAfterRemoval, follow?, OrderTarget.follow?,
          OrderTarget.index?, hkind]
  | column id =>
      simp [Stage.sortAfterRemoval, follow?, OrderTarget.follow?,
        OrderTarget.index?]

end OrderBy

/-! ## Sorts after a removal -/

namespace Stage

variable {policy : OrderByPolicy} {s : Stage} {kind : ClauseKind} {index : Nat}

theorem filterMap_kept?_sortAfterRemoval (policy : OrderByPolicy) (s : Stage)
    (kind : ClauseKind) (index : Nat) (orders : List OrderBy) :
    (orders.map (s.sortAfterRemoval policy kind index)).filterMap
        SortAfterRemoval.kept? =
      orders.filterMap
        (OrderBy.follow? kind (ListEdit.place (.remove index))) := by
  rw [List.filterMap_map]
  congr 1
  funext o
  rw [Function.comp_apply, OrderBy.sortAfterRemoval_eq]
  cases o.follow? kind (ListEdit.place (.remove index)) with
  | some o' => rfl
  | none =>
      dsimp only
      split <;> rfl

theorem remaining_of_follows {orders : List OrderBy}
    (h : ∀ o ∈ orders, o.follow? kind (ListEdit.place (.remove index)) ≠ none)
    (taken : List OrderTarget) (retarget : Prop) [Decidable retarget] :
    SortAfterRemoval.remaining taken
      (orders.map (s.sortAfterRemoval policy kind index)) = orders.filterMap
        (OrderBy.followOrRetarget? kind (ListEdit.place (.remove index))
          retarget) := by
  induction orders with
  | nil => rfl
  | cons o orders ih =>
      obtain ⟨o', ho'⟩ := Option.ne_none_iff_exists'.mp (h o List.mem_cons_self)
      have hrest := ih fun p hp => h p (List.mem_cons_of_mem o hp)
      simp [OrderBy.sortAfterRemoval_eq, OrderBy.followOrRetarget?,
        SortAfterRemoval.remaining, ho', hrest]

theorem reconcileSorts_of_follows (policy : OrderByPolicy)
    {g : OrderBy → OrderBy}
    (h : ∀ o ∈ s.orderBy, o.follow? kind (ListEdit.place (.remove index)) =
      some (g o)) :
    s.reconcileSorts policy kind index =
      { s with orderBy := s.orderBy.map g } := by
  have hfollows (taken : List OrderTarget) :
      SortAfterRemoval.remaining taken
          (s.orderBy.map (s.sortAfterRemoval policy kind index)) =
        s.orderBy.map g := by
    rw [remaining_of_follows (fun o ho => by simp [h o ho]) taken False,
      ← List.filterMap_eq_map]
    apply List.filterMap_congr
    intro o ho
    simp [OrderBy.followOrRetarget?, h o ho]
  simp [reconcileSorts, hfollows]

/-- Where at most one sort loses its clause, it alone may turn to the first
aggregation. -/
theorem remaining_sortAfterRemoval {orders : List OrderBy}
    {taken : List OrderTarget}
    (h : orders.Pairwise fun o p =>
      o.follow? kind (ListEdit.place (.remove index)) = none →
      p.follow? kind (ListEdit.place (.remove index)) ≠ none)
    (retarget : Prop) [Decidable retarget]
    (hretarget : retarget ↔
      policy = .retargetFirstAggregation ∧ s.aggregations ≠ [] ∧
      OrderTarget.aggregation 0 ∉ taken) :
    SortAfterRemoval.remaining taken
      (orders.map (s.sortAfterRemoval policy kind index)) = orders.filterMap
        (OrderBy.followOrRetarget? kind (ListEdit.place (.remove index))
          retarget) := by
  induction orders with
  | nil => rfl
  | cons o orders ih =>
      obtain ⟨hhead, htail⟩ := List.pairwise_cons.mp h
      rw [List.map_cons, OrderBy.sortAfterRemoval_eq, List.filterMap_cons]
      cases ho : o.follow? kind (ListEdit.place (.remove index)) with
      | some o' =>
          simp [SortAfterRemoval.remaining, OrderBy.followOrRetarget?, ho,
            ih htail]
      | none =>
          -- The later sorts all keep their clauses, so it does not matter which
          -- target is taken.
          have hrest (taken : List OrderTarget) :
              SortAfterRemoval.remaining taken
                  (orders.map (s.sortAfterRemoval policy kind index)) =
                orders.filterMap
                  (OrderBy.followOrRetarget? kind
                  (ListEdit.place (.remove index))
                  retarget) :=
            remaining_of_follows (fun p hp => hhead p hp ho) taken retarget
          by_cases hpolicy : policy = .retargetFirstAggregation ∧
            s.aggregations ≠ []
          · have hfree : retarget ↔ OrderTarget.aggregation 0 ∉ taken := by
              rw [hretarget, ← and_assoc, and_iff_right hpolicy]
            simp only [if_pos hpolicy, SortAfterRemoval.remaining]
            by_cases htaken : OrderTarget.aggregation 0 ∈ taken <;>
              simp [OrderBy.followOrRetarget?, ho, hfree, htaken, hrest]
          · have hnot : ¬ retarget :=
              fun hr => hpolicy ⟨(hretarget.mp hr).1, (hretarget.mp hr).2.1⟩
            simp [SortAfterRemoval.remaining, OrderBy.followOrRetarget?, ho,
              hpolicy, hnot, hrest]

theorem orderBy_reconcileSorts (policy : OrderByPolicy) (kind : ClauseKind)
    (index : Nat) (hnodup : (s.orderBy.map OrderBy.target).Nodup) :
    (s.reconcileSorts policy kind index).orderBy =
      s.orderBy.filterMap
        (OrderBy.followOrRetarget? kind (ListEdit.place (.remove index))
          (policy.Retargets s.aggregations
            (s.orderBy.filterMap
              (OrderBy.follow? kind (ListEdit.place (.remove index)))))) := by
  refine remaining_sortAfterRemoval ?_ _ ?_
  · refine (List.pairwise_map.mp hnodup).imp fun hne ho hp => hne ?_
    exact OrderBy.target_eq_of_index?_eq (OrderBy.target_of_follow?_eq_none ho)
      (OrderBy.target_of_follow?_eq_none hp)
  · rw [filterMap_kept?_sortAfterRemoval]
    simp [OrderByPolicy.Retargets]

end Stage

/-! ## Edits -/

namespace ListEdit

variable {c : Catalog} {policy : OrderByPolicy} {d d' : Draft}
  {kind : ClauseKind} {edit : ListEdit}

@[simp]
theorem shift_insert (index : Nat) (clause : Clause) :
    (insert index clause).shift = indexAfterInsert index := rfl

@[simp]
theorem shift_remove (index : Nat) :
    (remove index).shift = indexAfterErase index := by
  funext i
  by_cases h : i = index <;> simp [shift, place, indexAfterErase, h]

@[simp]
theorem shift_move (start stop : Nat) :
    (move start stop).shift = indexAfterMove start stop := rfl

theorem run_ok (h : edit.run c policy d kind = .ok d') :
    d.query.Valid c ∧ edit.Fits kind d.query.stage ∧
      d'.query.stage = edit.apply policy kind d.query.stage := by
  cases edit with
  | insert index clause =>
      obtain ⟨hkind, hindex, hvalid, hcommit⟩ := Draft.insert_eq_ok_iff.mp h
      obtain ⟨-, rfl⟩ := Draft.commit_eq_ok_iff.mp hcommit
      exact ⟨hvalid, ⟨hkind, hindex⟩, Query.stage_withStage ..⟩
  | remove index =>
      obtain ⟨hindex, hvalid, -, hcommit⟩ := Draft.remove_eq_ok_iff.mp h
      obtain ⟨-, rfl⟩ := Draft.commit_eq_ok_iff.mp hcommit
      exact ⟨hvalid, hindex, Query.stage_withStage ..⟩
  | move start stop =>
      obtain ⟨hstart, hstop, hvalid, hcommit⟩ := Draft.move_eq_ok_iff.mp h
      obtain ⟨-, rfl⟩ := Draft.commit_eq_ok_iff.mp hcommit
      exact ⟨hvalid, ⟨hstart, hstop⟩, Query.stage_withStage ..⟩

theorem aggregations_apply_place {s : Stage} (hfits : edit.Fits .aggregation s)
    {i j : Nat} (hplace : edit.place i = some j) :
    (edit.apply policy .aggregation s).aggregations[j]? =
      s.aggregations[i]?.map (Aggregation.renumber edit.shift) := by
  cases edit with
  | insert index clause =>
      obtain ⟨hkind, -⟩ := hfits
      cases clause <;> cases hkind
      cases hplace
      simp [apply, Stage.withInserted_aggregation,
        getElem?_insertIdx_indexAfterInsert]
  | remove index =>
      by_cases hi : i = index
      · simp [place, hi] at hplace
      · simp only [place, if_neg hi, Option.some.injEq] at hplace
        subst hplace
        simp [apply, Stage.withErased_aggregation, Stage.reconcileSorts,
          getElem?_eraseIdx_indexAfterErase s.aggregations hi]
  | move start stop =>
      obtain ⟨hstart, hstop⟩ := hfits
      cases hplace
      have hlength :
          (s.aggregations.map
            (Aggregation.renumber (indexAfterMove start stop))).length =
            s.aggregations.length := List.length_map _
      rw [apply, Stage.withMoved_aggregation hstart, shift_move,
        getElem?_moveItem_indexAfterMove (by rwa [hlength]) (by rwa [hlength]),
        List.getElem?_map]

theorem breakouts_apply_place {s : Stage} (hfits : edit.Fits .breakout s)
    {i j : Nat} (hplace : edit.place i = some j) :
    (edit.apply policy .breakout s).breakouts[j]? = s.breakouts[i]? := by
  cases edit with
  | insert index clause =>
      obtain ⟨hkind, -⟩ := hfits
      cases clause <;> cases hkind
      cases hplace
      simp [apply, Stage.withInserted_breakout,
        getElem?_insertIdx_indexAfterInsert]
  | remove index =>
      by_cases hi : i = index
      · simp [place, hi] at hplace
      · simp only [place, if_neg hi, Option.some.injEq] at hplace
        subst hplace
        simp [apply, Stage.withErased_breakout, Stage.reconcileSorts,
          getElem?_eraseIdx_indexAfterErase s.breakouts hi]
  | move start stop =>
      obtain ⟨hstart, hstop⟩ := hfits
      cases hplace
      rw [apply, Stage.withMoved_breakout hstart]
      exact getElem?_moveItem_indexAfterMove hstart hstop i

theorem orderBy_apply {s : Stage}
    (hkind : kind = .aggregation ∨ kind = .breakout) (hfits : edit.Fits kind s)
    (hnodup : (s.orderBy.map OrderBy.target).Nodup) :
    (edit.apply policy kind s).orderBy =
      (edit.keptSorts s).filterMap
        (OrderBy.followOrRetarget? kind edit.place
          (policy.Retargets (edit.apply policy kind s).aggregations
            ((edit.keptSorts s).filterMap
              (OrderBy.follow? kind edit.place)))) := by
  cases edit with
  | insert index clause =>
      obtain ⟨rfl, -⟩ := hfits
      cases clause with
      | aggregation a =>
          refine Eq.trans ?_ (OrderBy.filterMap_followOrRetarget?
            (OrderBy.follow?_aggregation (indexAfterInsert index)) _).symm
          simp [apply, Stage.withInserted_aggregation, keptSorts]
      | breakout b =>
          refine Eq.trans ?_ (OrderBy.filterMap_followOrRetarget?
            (OrderBy.follow?_breakout (indexAfterInsert index)) _).symm
          simp [apply, Stage.withInserted_breakout, keptSorts]
      | _ => simp [Clause.kind] at hkind
  | remove index =>
      obtain rfl | rfl := hkind
      · exact Stage.orderBy_reconcileSorts policy .aggregation index hnodup
      · exact Stage.orderBy_reconcileSorts policy .breakout index hnodup
  | move start stop =>
      obtain ⟨hstart, -⟩ := hfits
      obtain rfl | rfl := hkind
      · refine Eq.trans ?_ (OrderBy.filterMap_followOrRetarget?
          (OrderBy.follow?_aggregation (indexAfterMove start stop)) _).symm
        simp [apply, Stage.withMoved_aggregation hstart, keptSorts]
      · refine Eq.trans ?_ (OrderBy.filterMap_followOrRetarget?
          (OrderBy.follow?_breakout (indexAfterMove start stop)) _).symm
        simp [apply, Stage.withMoved_breakout hstart, keptSorts]

theorem clause?_apply_place {s : Stage}
    (hkind : kind = .aggregation ∨ kind = .breakout) (hfits : edit.Fits kind s)
    {i j : Nat} (hplace : edit.place i = some j) :
    (edit.apply policy kind s).clause? ⟨kind, j⟩ =
      (s.clause? ⟨kind, i⟩).map (Clause.renumber edit.shift) := by
  obtain rfl | rfl := hkind
  · simp only [Stage.clause?, aggregations_apply_place hfits hplace,
      Option.map_map]
    rfl
  · simp only [Stage.clause?, breakouts_apply_place hfits hplace,
      Option.map_map]
    rfl

theorem sublist_filterMap_followOrRetarget? (place : Nat → Option Nat)
    (retarget : Prop) [Decidable retarget] (orders : List OrderBy) :
    (orders.filterMap (OrderBy.follow? kind place)).Sublist
      (orders.filterMap (OrderBy.followOrRetarget? kind place retarget)) := by
  induction orders with
  | nil => exact .slnil
  | cons o orders ih =>
      cases ho : o.follow? kind place with
      | some o' => simpa [OrderBy.followOrRetarget?, ho] using ih
      | none =>
          rw [List.filterMap_cons_none ho, List.filterMap_cons]
          split
          case h_1 => exact ih
          case h_2 => exact ih.trans (List.sublist_cons_self ..)

/-- Clauses and sorts follow an edit of the aggregations or the breakouts.  Each
clause that stays is found at its new position, with its references renumbered;
each sort whose clause stays points at it there, in the old order; and a sort on
a removed clause turns to the first aggregation when the policy asks for that,
there is one, and none of the other sorts points at it. -/
theorem clauses_and_sorts_follow
    (hkind : kind = .aggregation ∨ kind = .breakout)
    (h : edit.run c policy d kind = .ok d') :
    (∀ i j, edit.place i = some j →
      d'.query.stage.clause? ⟨kind, j⟩ =
        (d.query.stage.clause? ⟨kind, i⟩).map (Clause.renumber edit.shift)) ∧
    ((edit.keptSorts d.query.stage).filterMap
        (OrderBy.follow? kind edit.place)).Sublist
      d'.query.stage.orderBy ∧
    d'.query.stage.orderBy =
      (edit.keptSorts d.query.stage).filterMap
        (OrderBy.followOrRetarget? kind edit.place
          (policy.Retargets d'.query.stage.aggregations
            ((edit.keptSorts d.query.stage).filterMap
              (OrderBy.follow? kind edit.place)))) := by
  obtain ⟨hvalid, hfits, hstage⟩ := run_ok h
  have hsorts : (edit.apply policy kind d.query.stage).orderBy = _ :=
    orderBy_apply hkind hfits hvalid.stage.sortTargets_nodup
  rw [← hstage] at hsorts
  refine ⟨fun i j hplace => ?_, ?_, hsorts⟩
  · rw [hstage]
    exact clause?_apply_place hkind hfits hplace
  · rw [hsorts]
    exact sublist_filterMap_followOrRetarget? ..

def linkedCounts : Draft where
  query := .ofTable Sample.orders {
    aggregations := [⟨.call .count [], none, []⟩, ⟨.call .count [], none, []⟩,
      ⟨.column (.aggregation 1), none, []⟩]
    orderBy := [⟨.desc, .aggregation 2⟩, ⟨.asc, .aggregation 0⟩] }
  revision := 0

def linkedCountsAfterRemoval : Draft where
  query := .ofTable Sample.orders {
    aggregations :=
      [⟨.call .count [], none, []⟩, ⟨.column (.aggregation 0), none, []⟩]
    orderBy := [⟨.desc, .aggregation 1⟩, ⟨.asc, .aggregation 0⟩] }
  revision := 1

theorem clauses_and_sorts_follow_linkedCounts :
    (remove 0).run Sample.catalog .retargetFirstAggregation linkedCounts
        .aggregation = .ok linkedCountsAfterRemoval ∧
      linkedCountsAfterRemoval.query.stage.clause? ⟨.aggregation, 1⟩ =
        (linkedCounts.query.stage.clause? ⟨.aggregation, 2⟩).map
          (Clause.renumber (remove 0).shift) ∧
      [⟨.desc, .aggregation 1⟩].Sublist
        linkedCountsAfterRemoval.query.stage.orderBy := by
  have h : (remove 0).run Sample.catalog .retargetFirstAggregation linkedCounts
      .aggregation = .ok linkedCountsAfterRemoval := by rfl
  obtain ⟨hclauses, hsorts, -⟩ := clauses_and_sorts_follow (.inl rfl) h
  exact ⟨h, hclauses 2 1 rfl, hsorts⟩

end ListEdit

end TableQuery
