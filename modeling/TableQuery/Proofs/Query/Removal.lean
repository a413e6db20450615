import TableQuery.Proofs.Query.Insertion
import TableQuery.Proofs.Query.Reads
import TableQuery.Proofs.Query.Sorts

/-!
# Removing what nobody reads

A clause that no other one reads can be removed: the clauses that stay see what
they read, under its new number, and the sorts that stay point at clauses that
are there.
-/

namespace TableQuery

/-! ## Who reads a clause -/

namespace Stage

variable {source : List Entry} {s : Stage} {policy : OrderByPolicy}
  {index : Nat}

theorem readsColumn_iff {name : String} {own : Nat} {position : ClausePosition}
    {clause : Clause} :
    readsColumn name own position clause = true ↔
      ¬(clause.kind = .customColumn ∧ position.index = own) ∧
        .customColumn name ∈ clause.identifiers := by
  cases clause with
  | customColumn c =>
      simp [readsColumn, Clause.kind, Clause.identifiers,
        Expression.readsCustomColumn_iff]
  | filter predicate =>
      simp [readsColumn, Clause.kind, Clause.identifiers,
        Expression.readsCustomColumn_iff]
  | aggregation a =>
      simp [readsColumn, Clause.kind, Clause.identifiers,
        Expression.readsCustomColumn_iff]
  | breakout b =>
      simp only [readsColumn, Clause.kind, Clause.identifiers, beq_iff_eq,
        List.mem_singleton, Identifier.customColumn?_eq_some_iff, reduceCtorEq,
        false_and, not_false_eq_true, true_and]
      exact eq_comm
  | orderBy o =>
      cases htarget : o.target with
      | column id =>
          simp only [readsColumn, OrderTarget.reads, htarget, Clause.kind,
            Clause.identifiers, beq_iff_eq, List.mem_singleton,
            Identifier.customColumn?_eq_some_iff, reduceCtorEq, false_and,
            not_false_eq_true, true_and]
          exact eq_comm
      | aggregation i =>
          simp [readsColumn, OrderTarget.reads, htarget, Clause.identifiers]
      | breakout i =>
          simp [readsColumn, OrderTarget.reads, htarget, Clause.identifiers]

/-- Why a clause cannot be removed: another one reads it. -/
inductive RemovalFault (s : Stage) :
    ClausePosition → ConsistencyError → Prop where
  | aggregation {index user : Nat} (hne : user ≠ index)
      (hreads : s.Reads ⟨.aggregation, user⟩ ⟨.aggregation, index⟩) :
      RemovalFault s ⟨.aggregation, index⟩ (.referencedAggregation index user)
  | customColumn {index : Nat} {c : CustomColumn} {user : ClausePosition}
      (hcolumn : s.customColumns[index]? = some c)
      (hne : user ≠ ⟨.customColumn, index⟩)
      (hreads : s.Reads user ⟨.customColumn, index⟩) :
      RemovalFault s ⟨.customColumn, index⟩ (.referencedColumn c.name user)

theorem RemovalFault.exists_reader {position : ClausePosition}
    {e : ConsistencyError} (h : s.RemovalFault position e) :
    ∃ reader, reader ≠ position ∧ s.Reads reader position := by
  cases h with
  | aggregation hne hreads => exact ⟨_, by simpa using hne, hreads⟩
  | customColumn hcolumn hne hreads => exact ⟨_, hne, hreads⟩

theorem fault_of_aggregationUser? {user : Nat}
    (h : s.aggregationUser? index = some user) :
    s.RemovalFault ⟨.aggregation, index⟩
      (.referencedAggregation index user) := by
  have hfound := List.find?_some h
  have hlt := List.mem_range.mp (List.mem_of_find?_eq_some h)
  have ha := List.getElem?_eq_getElem hlt
  simp only [ha, Option.any_some, Bool.and_eq_true, bne_iff_ne] at hfound
  refine .aggregation hfound.1 ⟨.aggregation s.aggregations[user], ?_,
    .aggregation index, ?_, rfl⟩
  · simp [clause?, ha]
  · exact Expression.mem_aggregationRefs.mp
      (Expression.readsAggregation_iff.mp hfound.2)

theorem fault_of_columnUser? {c : CustomColumn} {user : ClausePosition}
    (hc : s.customColumns[index]? = some c)
    (h : s.columnUser? c.name index = some user) :
    s.RemovalFault ⟨.customColumn, index⟩ (.referencedColumn c.name user) := by
  obtain ⟨⟨position, clause⟩, hfind, rfl⟩ := Option.map_eq_some_iff.mp h
  have hclause := mem_clauses_iff.mp (List.mem_of_find?_eq_some hfind)
  have hfound := List.find?_some hfind
  have hreads := readsColumn_iff.mp hfound
  refine .customColumn hc ?_ ⟨clause, hclause, .customColumn c.name,
    hreads.2, ?_⟩
  · rintro rfl
    exact hreads.1 ⟨kind_of_clause? hclause, rfl⟩
  · simp [identifierAt?, hc]

theorem fault_of_checkUnused {position : ClausePosition} {e : ConsistencyError}
    (h : s.checkUnused position = .error e) : s.RemovalFault position e := by
  obtain ⟨kind, index⟩ := position
  cases kind with
  | aggregation =>
      simp only [checkUnused] at h
      split at h
      case h_1 user huser =>
          cases h
          exact fault_of_aggregationUser? huser
      case h_2 => cases h
  | customColumn =>
      simp only [checkUnused] at h
      split at h
      case h_1 => cases h
      case h_2 c hc =>
          split at h
          case h_1 user huser =>
              cases h
              exact fault_of_columnUser? hc huser
          case h_2 => cases h
  | filter => cases h
  | breakout => cases h
  | orderBy => cases h

theorem Consistent.not_reads_of_checkUnused (h : s.Consistent source)
    (hsource : SourceEntries source) {position : ClausePosition}
    (hunused : s.checkUnused position = .ok ()) {reader : ClausePosition}
    (hne : reader ≠ position) : ¬ s.Reads reader position := by
  intro hreads
  obtain ⟨kind, index⟩ := position
  cases kind with
  | aggregation =>
      have hkind := (h.lt_of_reads_aggregation hsource hreads).1
      obtain ⟨clause, hclause, id, hid, hat⟩ := hreads
      obtain ⟨kind, user⟩ := reader
      cases hkind
      cases hat
      have huser : user < s.aggregations.length := index_lt_count hclause
      have hget := List.getElem?_eq_getElem huser
      simp only [clause?, hget, Option.map_some, Option.some.injEq] at hclause
      subst hclause
      have hread :=
        Expression.readsAggregation_iff.mpr
          (Expression.mem_aggregationRefs.mpr hid)
      have hindex : user ≠ index := by simpa using hne
      simp only [checkUnused] at hunused
      split at hunused
      case h_1 => cases hunused
      case h_2 hnone =>
          have hunread :=
            List.find?_eq_none.mp hnone user (List.mem_range.mpr huser)
          simp [hindex, hget, hread] at hunread
  | customColumn =>
      obtain ⟨clause, hclause, id, hid, hat⟩ := hreads
      obtain ⟨c, hc, rfl⟩ := Option.map_eq_some_iff.mp hat
      dsimp only at hc
      simp only [checkUnused, hc] at hunused
      split at hunused
      case h_1 => cases hunused
      case h_2 hnone =>
          have hunread :=
            List.find?_eq_none.mp (Option.map_eq_none_iff.mp hnone)
              (reader, clause)
            (mem_clauses_iff.mpr hclause)
          refine hunread (readsColumn_iff.mpr ⟨fun hown => hne ?_, hid⟩)
          rw [kind_of_clause? hclause] at hown
          obtain ⟨kind, user⟩ := reader
          simp only at hown
          rw [hown.1, hown.2]
  | filter => obtain ⟨_, _, _, _, hat⟩ := hreads; cases hat
  | breakout => obtain ⟨_, _, _, _, hat⟩ := hreads; cases hat
  | orderBy => obtain ⟨_, _, _, _, hat⟩ := hreads; cases hat

/-! ## The sorts that stay -/

theorem eq_of_follow?_eq_some {kind : ClauseKind} {t u : OrderTarget}
    (h : t.follow? kind (ListEdit.place (.remove index)) = some u) :
    t = if kind = .aggregation then u.mapAggregation (indexAfterInsert index)
      else if kind = .breakout then u.mapBreakout (indexAfterInsert index)
        else u := by
  have hplace : ∀ {i j : Nat}, ListEdit.place (.remove index) i = some j →
      i = indexAfterInsert index j := by
    intro i j hj
    simp only [ListEdit.place] at hj
    split at hj
    · cases hj
    · rename_i hi
      rw [← Option.some.inj hj, indexAfterInsert_indexAfterErase hi]
  cases t with
  | aggregation i =>
      by_cases hkind : kind = .aggregation
      · simp only [OrderTarget.follow?, if_pos hkind,
          Option.map_eq_some_iff] at h
        obtain ⟨j, hj, rfl⟩ := h
        simp [hkind, OrderTarget.mapAggregation, ← hplace hj]
      · simp only [OrderTarget.follow?, if_neg hkind, Option.some.injEq] at h
        subst h
        simp [hkind, OrderTarget.mapBreakout]
  | breakout i =>
      by_cases hkind : kind = .breakout
      · simp only [OrderTarget.follow?, if_pos hkind,
          Option.map_eq_some_iff] at h
        obtain ⟨j, hj, rfl⟩ := h
        simp [hkind, OrderTarget.mapBreakout, ← hplace hj]
      · simp only [OrderTarget.follow?, if_neg hkind, Option.some.injEq] at h
        subst h
        simp [hkind, OrderTarget.mapAggregation]
  | column id =>
      cases h
      simp [OrderTarget.mapAggregation, OrderTarget.mapBreakout]

theorem target_of_followOrRetarget? {kind : ClauseKind}
    {aggregations : List Aggregation} {others : List OrderBy} {o o' : OrderBy}
    (h : o.followOrRetarget? kind (ListEdit.place (.remove index))
      (policy.Retargets aggregations others) = some o') :
    o.target.follow? kind (ListEdit.place (.remove index)) = some o'.target ∨
      o.target.index? kind = some index ∧ o'.target = .aggregation 0 ∧
        policy.Retargets aggregations others := by
  unfold OrderBy.followOrRetarget? at h
  cases hfollow : o.follow? kind (ListEdit.place (.remove index)) with
  | some followed =>
      rw [hfollow, Option.some_or, Option.some.injEq] at h
      subst h
      obtain ⟨target, htarget, rfl⟩ := Option.map_eq_some_iff.mp hfollow
      exact .inl htarget
  | none =>
      rw [hfollow, Option.none_or] at h
      split at h
      · rename_i hretargets
        cases h
        exact .inr ⟨OrderBy.target_of_follow?_eq_none hfollow, rfl, hretargets⟩
      · cases h

theorem nodup_sortTargets_reconcileSorts (policy : OrderByPolicy)
    (kind : ClauseKind) (index : Nat)
    (hnodup : (s.orderBy.map OrderBy.target).Nodup) :
    ((s.reconcileSorts policy kind index).orderBy.map
      OrderBy.target).Nodup := by
  rw [orderBy_reconcileSorts policy kind index hnodup, List.Nodup,
    List.pairwise_map, List.pairwise_filterMap]
  refine (List.pairwise_map.mp hnodup).imp_of_mem
    fun {o p} ho hp hne o' ho' p' hp' heq => ?_
  -- A followed sort is among the others that keep the first aggregation from
  -- being taken twice.
  have hother : ∀ {x x' : OrderBy}, x ∈ s.orderBy →
      x.target.follow? kind (ListEdit.place (.remove index)) = some x'.target →
      policy.Retargets s.aggregations
        (s.orderBy.filterMap
          (OrderBy.follow? kind (ListEdit.place (.remove index)))) →
      x'.target ≠ .aggregation 0 := by
    intro x x' hx hfollow hretargets
    refine hretargets.2.2 { x with target := x'.target }
      (List.mem_filterMap.mpr ⟨x, hx, ?_⟩)
    rw [OrderBy.follow?, hfollow, Option.map_some]
  rcases target_of_followOrRetarget? ho' with hfollow |
    ⟨hlost, htarget, hretargets⟩
  · rcases target_of_followOrRetarget? hp' with hfollow' |
      ⟨-, htarget', hretargets⟩
    · rw [← heq] at hfollow'
      exact hne ((eq_of_follow?_eq_some hfollow).trans
        (eq_of_follow?_eq_some hfollow').symm)
    · exact hother ho hfollow hretargets (heq.trans htarget')
  · rcases target_of_followOrRetarget? hp' with hfollow' | ⟨hlost', -, -⟩
    · exact hother hp hfollow' hretargets (heq.symm.trans htarget)
    · exact hne (OrderBy.target_eq_of_index?_eq hlost hlost')

/-- In a stage that groups or aggregates, the sorts that stay look at clauses
that stay. -/
theorem targetValid_of_follow? {ctx : Context} {s' : Stage} {kind : ClauseKind}
    {t t' : OrderTarget} (hs : s.isSummarized)
    (hcount : s.count kind = s'.count kind + 1)
    (hothers : ∀ other, other ≠ kind → s'.count other = s.count other)
    (hindex : index < s.count kind) (hvalid : TargetValid ctx s t)
    (h : t.follow? kind (ListEdit.place (.remove index)) = some t') :
    TargetValid ctx s' t' := by
  have hplace : ∀ {i j : Nat}, ListEdit.place (.remove index) i = some j →
      i < s.count kind → j < s'.count kind := by
    intro i j hj hi
    simp only [ListEdit.place, indexAfterErase] at hj
    split at hj
    · cases hj
    · have hj := Option.some.inj hj
      split at hj <;> omega
  cases t with
  | aggregation i =>
      by_cases hkind : kind = .aggregation
      · simp only [OrderTarget.follow?, if_pos hkind,
          Option.map_eq_some_iff] at h
        obtain ⟨j, hj, rfl⟩ := h
        subst hkind
        exact hplace hj hvalid
      · simp only [OrderTarget.follow?, if_neg hkind, Option.some.injEq] at h
        subst h
        exact Nat.lt_of_lt_of_eq hvalid
          (hothers .aggregation (Ne.symm hkind)).symm
  | breakout i =>
      by_cases hkind : kind = .breakout
      · simp only [OrderTarget.follow?, if_pos hkind,
          Option.map_eq_some_iff] at h
        obtain ⟨j, hj, rfl⟩ := h
        subst hkind
        exact hplace hj hvalid
      · simp only [OrderTarget.follow?, if_neg hkind, Option.some.injEq] at h
        subst h
        exact Nat.lt_of_lt_of_eq hvalid (hothers .breakout (Ne.symm hkind)).symm
  | column id => exact absurd hvalid.1 (by simp [hs])

theorem Consistent.targetValid_reconcileSorts (h : s.Consistent source)
    {rest : Stage} {kind : ClauseKind}
    (hkind : kind = .aggregation ∨ kind = .breakout)
    (horder : rest.orderBy = s.orderBy)
    (hcount : s.count kind = rest.count kind + 1)
    (hothers : ∀ other, other ≠ kind → rest.count other = s.count other)
    (hindex : index < s.count kind) :
    ∀ o ∈ (rest.reconcileSorts policy kind index).orderBy,
      TargetValid (s.context source) rest o.target := by
  intro o ho
  rw [orderBy_reconcileSorts policy kind index (horder ▸ h.sortTargets_nodup),
    horder] at ho
  obtain ⟨old, hold, hfollow⟩ := List.mem_filterMap.mp ho
  rcases target_of_followOrRetarget? hfollow with htarget |
    ⟨-, htarget, -, hne, -⟩
  · exact targetValid_of_follow? (isSummarized_of_lt_count hkind hindex) hcount
      hothers hindex (h.sort old hold) htarget
  · rw [htarget]
    exact List.length_pos_of_ne_nil hne

/-! ## Stages without the clause -/

theorem count_erase (position : ClausePosition)
    (h : position.index < s.count position.kind) :
    s.count position.kind = (s.erase position).count position.kind + 1 := by
  obtain ⟨kind, index⟩ := position
  have hlength {α : Type} {items : List α} (hindex : index < items.length) :
      items.length = (items.eraseIdx index).length + 1 := by
    rw [List.length_eraseIdx_of_lt hindex]
    omega
  cases kind <;> exact hlength h

theorem Consistent.erase_breakout (h : s.Consistent source)
    (hindex : index < s.breakouts.length) :
    (s.withErased policy ⟨.breakout, index⟩).Consistent source where
  names_nodup := h.names_nodup
  customColumn := h.customColumn
  filter := h.filter
  aggregation := h.aggregation
  breakout := fun b hb => h.breakout b (List.mem_of_mem_eraseIdx hb)
  breakouts_nodup := h.breakouts_nodup.eraseIdx index
  sort := by
    refine h.targetValid_reconcileSorts
      (.inr rfl) rfl (count_erase ⟨.breakout, index⟩ hindex) ?_ hindex
    intro other hne
    cases other <;> first | rfl | exact absurd rfl hne
  sortTargets_nodup :=
    nodup_sortTargets_reconcileSorts policy .breakout index h.sortTargets_nodup

theorem Consistent.fits_erase_aggregation (h : s.Consistent source)
    (hsource : SourceEntries source)
    (hunread : ∀ reader, reader ≠ ⟨.aggregation, index⟩ →
      ¬ s.Reads reader ⟨.aggregation, index⟩) {i : Nat} {a : Aggregation}
    (ha : (s.withErased policy ⟨.aggregation, index⟩).aggregations[i]? =
      some a) :
    a.expression.Fits
      ((s.withErased policy ⟨.aggregation, index⟩).contextAt source
        ⟨.aggregation, i⟩)
      .aggregation := by
  have hlength :
      ((s.withErased policy ⟨.aggregation, index⟩).visibleAggregations
      ⟨.aggregation, i⟩).length = i :=
    length_visibleAggregations
      (Nat.le_of_lt (List.getElem?_eq_some_iff.mp ha).1)
  have hmap : (s.aggregations.eraseIdx index)[i]?.map
      (Aggregation.renumber (indexAfterErase index)) = some a :=
    (List.getElem?_map ..).symm.trans ha
  obtain ⟨old, hold, rfl⟩ := Option.map_eq_some_iff.mp hmap
  rw [getElem?_eraseIdx_eq_indexAfterInsert] at hold
  have hne : indexAfterInsert index i ≠ index := by
    unfold indexAfterInsert
    split <;> omega
  have hfits := h.aggregation _ old hold
  refine hfits.renumber (fun j hj => ?_) (fun id hnone hid => ?_)
  · -- What it reads stood before it and is not the one that goes, so it still
    -- stands before it.
    have hlt : j < indexAfterInsert index i :=
      (lt_of_lookup_aggregation hsource
        (hfits.1 _ (Expression.mem_aggregationRefs.mp hj))).2
    have hj' : j ≠ index := by
      rintro rfl
      refine hunread ⟨.aggregation, indexAfterInsert j i⟩ (by simpa using hne)
        ⟨.aggregation old, by simp [clause?, hold], _,
          Expression.mem_aggregationRefs.mp hj, rfl⟩
    rw [isSome_lookup_contextAt, hlength]
    refine .inr (.inr ⟨_, ?_, rfl⟩)
    unfold indexAfterInsert at hlt
    unfold indexAfterErase
    split at hlt <;> split <;> omega
  · rw [isSome_lookup_contextAt] at hid ⊢
    refine hid.imp_right (.imp_right ?_)
    rintro ⟨j, -, rfl⟩
    cases hnone

theorem Consistent.erase_aggregation (h : s.Consistent source)
    (hsource : SourceEntries source) (hindex : index < s.aggregations.length)
    (hunread : ∀ reader, reader ≠ ⟨.aggregation, index⟩ →
      ¬ s.Reads reader ⟨.aggregation, index⟩) :
    (s.withErased policy ⟨.aggregation, index⟩).Consistent source where
  names_nodup := h.names_nodup
  customColumn := h.customColumn
  filter := h.filter
  aggregation := fun _ _ ha => h.fits_erase_aggregation hsource hunread ha
  breakout := h.breakout
  breakouts_nodup := h.breakouts_nodup
  sort := by
    refine h.targetValid_reconcileSorts (.inl rfl) rfl ?_ ?_ hindex
    · have hcount := count_erase (s := s) ⟨.aggregation, index⟩ hindex
      rw [hcount]
      exact congrArg (· + 1) (List.length_map _).symm
    · intro other hne
      cases other <;> first | rfl | exact absurd rfl hne
  sortTargets_nodup :=
    nodup_sortTargets_reconcileSorts policy .aggregation index
      h.sortTargets_nodup

theorem isSome_lookup_erase_customColumn {c : CustomColumn}
    {position position' : ClausePosition}
    (hvisible : ∀ c' ∈ s.visibleColumns position, c'.name ≠ c.name →
      c' ∈ (s.erase ⟨.customColumn, index⟩).visibleColumns position')
    (haggregations : (s.visibleAggregations position).length =
      ((s.erase ⟨.customColumn, index⟩).visibleAggregations position').length)
    {id : Identifier} (hid : id ≠ .customColumn c.name)
    (h : ((s.contextAt source position).lookup id).isSome) :
    (((s.erase ⟨.customColumn, index⟩).contextAt source position').lookup
      id).isSome := by
  rw [isSome_lookup_contextAt] at h ⊢
  refine h.imp_right (.imp ?_ ?_)
  · rintro ⟨c', hc', rfl⟩
    exact ⟨c', hvisible c' hc' fun hname => hid (by rw [hname]), rfl⟩
  · rintro ⟨i, hi, rfl⟩
    exact ⟨i, haggregations ▸ hi, rfl⟩

theorem mem_take_eraseIdx_of_name_ne {c c' : CustomColumn} {i : Nat}
    (hc : s.customColumns[index]? = some c) (hname : c'.name ≠ c.name)
    (hmem : c' ∈ s.customColumns.take (indexAfterInsert index i)) :
    c' ∈ (s.customColumns.eraseIdx index).take i := by
  obtain ⟨k, hk, rfl⟩ := List.mem_take_iff_getElem.mp hmem
  have hget : s.customColumns[k]? = some s.customColumns[k] :=
    List.getElem?_eq_getElem (by omega)
  have hne : k ≠ index := by
    rintro rfl
    rw [hc] at hget
    exact hname (by rw [Option.some.inj hget])
  have hlt : indexAfterErase index k < i := by
    unfold indexAfterInsert at hk
    unfold indexAfterErase
    split at hk <;> split <;> omega
  refine List.mem_of_getElem? (i := indexAfterErase index k) ?_
  rw [List.getElem?_take_of_lt hlt,
    getElem?_eraseIdx_indexAfterErase _ hne, hget]

theorem Consistent.erase_customColumn (h : s.Consistent source)
    {c : CustomColumn} (hc : s.customColumns[index]? = some c)
    (hunread : ∀ reader, reader ≠ ⟨.customColumn, index⟩ →
      ¬ s.Reads reader ⟨.customColumn, index⟩) :
    (s.erase ⟨.customColumn, index⟩).Consistent source := by
  have hother : ∀ (position : ClausePosition) (clause : Clause)
      {id : Identifier},
      position ≠ ⟨.customColumn, index⟩ → s.clause? position = some clause →
      id ∈ clause.identifiers → id ≠ .customColumn c.name := by
    rintro position clause id hne hclause hid rfl
    exact hunread position hne ⟨clause, hclause, _, hid,
      by simp [identifierAt?, hc]⟩
  have hsee : ∀ (position : ClausePosition) (clause : Clause) {id : Identifier},
      position.kind ≠ .customColumn → s.clause? position = some clause →
      id ∈ clause.identifiers →
      ((s.contextAt source position).lookup id).isSome →
      (((s.erase ⟨.customColumn, index⟩).contextAt source position).lookup
        id).isSome := by
    intro position clause id hkind hclause hid
    refine isSome_lookup_erase_customColumn (fun c' hc' hname => ?_) rfl
      (hother position clause (fun heq => hkind (by rw [heq])) hclause hid)
    rw [visibleColumns, if_neg hkind] at hc' ⊢
    refine List.mem_of_mem_take (i := s.customColumns.length)
      (mem_take_eraseIdx_of_name_ne hc hname ?_)
    rwa [List.take_of_length_le]
    unfold indexAfterInsert
    split <;> omega
  refine {
    names_nodup := h.names_nodup.sublist ((List.eraseIdx_sublist ..).map _)
    customColumn := fun i c' hc' => ?_
    filter := fun predicate (hmem : predicate ∈ s.filters) => ?_
    aggregation := fun i a (ha : s.aggregations[i]? = some a) => ?_
    breakout := fun b (hb : b ∈ s.breakouts) => ?_
    breakouts_nodup := h.breakouts_nodup
    sort := fun o (ho : o ∈ s.orderBy) => ?_
    sortTargets_nodup := h.sortTargets_nodup }
  · have hold : s.customColumns[indexAfterInsert index i]? = some c' :=
      (getElem?_eraseIdx_eq_indexAfterInsert ..).symm.trans hc'
    refine (h.customColumn _ c' hold).mono fun id hid => ?_
    apply isSome_lookup_erase_customColumn
    · exact fun c'' hc'' hname => mem_take_eraseIdx_of_name_ne hc hname hc''
    · rfl
    · exact hother ⟨.customColumn, indexAfterInsert index i⟩ (.customColumn c')
        (by simpa using indexAfterInsert_ne index i)
        (by simp [clause?, hold]) hid
  · obtain ⟨i, hi⟩ := List.mem_iff_getElem?.mp hmem
    exact (h.filter predicate hmem).mono fun id hid =>
      hsee ⟨.filter, i⟩ (.filter predicate) (by simp)
        (by simp [clause?, hi]) hid
  · exact (h.aggregation i a ha).mono fun id hid =>
      hsee ⟨.aggregation, i⟩ (.aggregation a) (by simp)
        (by simp [clause?, ha]) hid
  · -- A breakout by a unit depends on the kind of its column, not only on
    -- finding it.
    obtain ⟨i, hi⟩ := List.mem_iff_getElem?.mp hb
    obtain ⟨e, he, hunit⟩ := h.breakout b hb
    obtain ⟨hindex, hget⟩ := List.getElem?_eq_some_iff.mp hc
    have hsplit : (s.customColumns.eraseIdx index).insertIdx index c =
        s.customColumns := by
      rw [← hget, List.insertIdx_eraseIdx_getElem hindex]
    have hcolumns : ∀ c' ∈ s.customColumns.eraseIdx index,
        .customColumn c.name ∉ c'.expression.identifiers := by
      intro c' hc' hid
      obtain ⟨k, hk⟩ := List.mem_iff_getElem?.mp hc'
      rw [getElem?_eraseIdx_eq_indexAfterInsert] at hk
      exact hother ⟨.customColumn, indexAfterInsert index k⟩ (.customColumn c')
        (by simpa using indexAfterInsert_ne index k)
        (by simp [clause?, hk]) hid rfl
    have hlookup := lookup_pushColumns_insertIdx hcolumns index ⟨source⟩
      (hother ⟨.breakout, i⟩ (.breakout b) (by simp) (by simp [clause?, hi])
        (List.mem_singleton.mpr rfl))
    rw [hsplit] at hlookup
    exact ⟨e, hlookup.symm.trans he, hunit⟩
  · have hvalid := h.sort o ho
    cases htarget : o.target with
    | aggregation i => rwa [htarget] at hvalid
    | breakout i => rwa [htarget] at hvalid
    | column id =>
        rw [htarget] at hvalid
        obtain ⟨i, hi⟩ := List.mem_iff_getElem?.mp ho
        refine ⟨hvalid.1,
          hsee ⟨.orderBy, i⟩ (.orderBy o) (by simp) (by simp [clause?, hi]) ?_
            hvalid.2⟩
        simp [Clause.identifiers, htarget]

theorem Consistent.erase_filter (h : s.Consistent source) :
    (s.erase ⟨.filter, index⟩).Consistent source where
  names_nodup := h.names_nodup
  customColumn := h.customColumn
  filter :=
    fun predicate hmem => h.filter predicate (List.mem_of_mem_eraseIdx hmem)
  aggregation := h.aggregation
  breakout := h.breakout
  breakouts_nodup := h.breakouts_nodup
  sort := h.sort
  sortTargets_nodup := h.sortTargets_nodup

theorem Consistent.erase_orderBy (h : s.Consistent source) :
    (s.erase ⟨.orderBy, index⟩).Consistent source where
  names_nodup := h.names_nodup
  customColumn := h.customColumn
  filter := h.filter
  aggregation := h.aggregation
  breakout := h.breakout
  breakouts_nodup := h.breakouts_nodup
  sort := fun o ho => h.sort o (List.mem_of_mem_eraseIdx ho)
  sortTargets_nodup :=
    h.sortTargets_nodup.sublist ((List.eraseIdx_sublist ..).map _)

theorem Consistent.withErased (h : s.Consistent source)
    (hsource : SourceEntries source) (policy : OrderByPolicy)
    {position : ClausePosition}
    (hindex : position.index < s.count position.kind)
    (hunused : s.checkUnused position = .ok ()) :
    (s.withErased policy position).Consistent source := by
  have hunread : ∀ reader, reader ≠ position → ¬ s.Reads reader position :=
    fun reader hne => h.not_reads_of_checkUnused hsource hunused hne
  obtain ⟨kind, index⟩ := position
  cases kind with
  | customColumn =>
      exact h.erase_customColumn (List.getElem?_eq_getElem hindex) hunread
  | filter => exact h.erase_filter
  | aggregation => exact h.erase_aggregation hsource hindex hunread
  | breakout => exact h.erase_breakout hindex
  | orderBy => exact h.erase_orderBy

end Stage

/-! ## Drafts -/

namespace Draft

variable {c : Catalog} {policy : OrderByPolicy} {d : Draft}
  {position : ClausePosition}

theorem commit_eq_ok_of_consistent (hvalid : d.query.Valid c)
    {source : List Entry} (hsource : d.query.sourceColumns c = .ok source)
    {stage : Stage} (h : stage.Consistent source) :
    d.commit c stage = .ok ⟨d.query.withStage stage, d.revision + 1⟩ := by
  refine commit_eq_ok_iff.mpr ⟨hvalid.withStage ?_, rfl⟩
  rw [hsource]
  exact Stage.valid_ok_iff.mpr h

/-- A removal fails only in the check that no other clause reads the one that
goes. -/
theorem fault_of_remove (hvalid : d.query.Valid c)
    (hindex : position.index < d.query.stage.count position.kind)
    {e : ConsistencyError} (h : d.remove c policy position = .error e) :
    d.query.stage.RemovalFault position e := by
  obtain ⟨source, hsource, hconsistent⟩ := hvalid.exists_consistent hindex
  have hremove : d.remove c policy position =
      d.query.stage.checkUnused position >>= fun _ =>
      d.commit c (d.query.stage.withErased policy position) := by
    simp only [Draft.remove, checkRange, if_pos hindex,
      Query.validate_eq_ok_iff.mpr hvalid]
    rfl
  rw [hremove] at h
  cases hunused : d.query.stage.checkUnused position with
  | error fault =>
      rw [hunused] at h
      cases h
      exact Stage.fault_of_checkUnused hunused
  | ok _ =>
      have hcommit := commit_eq_ok_of_consistent hvalid hsource
        (hconsistent.withErased (Query.sourceEntries_sourceColumns hsource)
          policy hindex hunused)
      rw [hunused] at h
      exact absurd (hcommit.symm.trans h) (by simp)

theorem remove_eq_error_iff (hvalid : d.query.Valid c)
    (hindex : position.index < d.query.stage.count position.kind) :
    (∃ e, d.remove c policy position = .error e) ↔
      ∃ reader, reader ≠ position ∧ d.query.stage.Reads reader position := by
  constructor
  · rintro ⟨e, h⟩
    exact (fault_of_remove hvalid hindex h).exists_reader
  · rintro ⟨reader, hne, hreads⟩
    obtain ⟨source, hsource, hconsistent⟩ := hvalid.exists_consistent hindex
    cases h : d.remove c policy position with
    | error e => exact ⟨e, rfl⟩
    | ok d' =>
        obtain ⟨-, -, hunused, -⟩ := remove_eq_ok_iff.mp h
        exact absurd hreads (hconsistent.not_reads_of_checkUnused
          (Query.sourceEntries_sourceColumns hsource) hunused hne)

end Draft

end TableQuery
