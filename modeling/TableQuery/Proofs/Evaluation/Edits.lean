import TableQuery.Proofs.Evaluation.Reindexing
import TableQuery.Proofs.Query.Sorts
import TableQuery.Sample

/-!
# Results after edits

Moving, inserting or removing an aggregation of a query moves, inserts or
removes its column of the result, and nothing else changes.
-/

namespace TableQuery

/-! ## Edited stages -/

namespace Stage

theorem not_mem_aggregationRefs_of_checkUnused {s : Stage} {index j : Nat}
    {a : Aggregation} (h : s.checkUnused ⟨.aggregation, index⟩ = .ok ())
    (ha : s.aggregations[j]? = some a) (hj : j ≠ index) :
    index ∉ a.expression.aggregationRefs := by
  intro hmem
  have hlt := (List.getElem?_eq_some_iff.mp ha).1
  have hnone : s.aggregationUser? index = none := by
    simp only [checkUnused] at h
    split at h
    case h_1 => cases h
    case h_2 hnone => exact hnone
  rw [aggregationUser?, List.find?_eq_none] at hnone
  have hunread := hnone j (List.mem_range.mpr hlt)
  simp [hj, ha, Expression.readsAggregation_iff.mpr hmem] at hunread

theorem orderBy_withErased_aggregation (policy : OrderByPolicy)
    {s : Stage} {index : Nat}
    (h : ∀ o ∈ s.orderBy, o.target ≠ .aggregation index) :
    (s.withErased policy ⟨.aggregation, index⟩).orderBy =
      s.orderBy.map
        (OrderBy.mapTarget
          (OrderTarget.mapAggregation (indexAfterErase index))) := by
  rw [withErased_aggregation]
  apply congrArg Stage.orderBy (reconcileSorts_of_follows policy _)
  exact fun o ho => OrderBy.follow?_remove_aggregation (h o ho)

theorem isSummarized_withMoved {s : Stage} {start stop : Nat}
    (hstart : start < s.aggregations.length)
    (hstop : stop < s.aggregations.length) :
    (s.withMoved ⟨.aggregation, start⟩ stop).isSummarized := by
  have hlt : stop <
      (s.withMoved ⟨.aggregation, start⟩ stop).count .aggregation := by
    rwa [count_withMoved hstart hstop]
  exact isSummarized_of_lt_count (.inl rfl) hlt

theorem Rearranged.reindexes {c : Catalog} {q q' : Query}
    {source target : Nat → Nat} (h : Rearranged source target q.stage q'.stage)
    (hq : q.Valid c) (hq' : q'.Valid c) (hs : q.stage.isSummarized) :
    Reindexes source target q.stage q'.stage where
  toRearranged := h
  reference_lt := fun _ _ ha _ hi => hq'.aggregationRefs_lt ha hi
  sort_breakout := by
    intro o ho i hi
    obtain ⟨_, -, hvalid⟩ := hq.stage.sortTarget_valid ho
    rwa [hi] at hvalid
  sort_column := by
    intro o ho id hid
    obtain ⟨_, -, hvalid⟩ := hq.stage.sortTarget_valid ho
    rw [hid] at hvalid
    exact absurd hvalid.1 (by simp [hs])

theorem rearranged_withMoved {s : Stage} {start stop : Nat}
    (hstart : start < s.aggregations.length)
    (hstop : stop < s.aggregations.length) :
    Rearranged (indexAfterMove stop start) (indexAfterMove start stop) s
      (s.withMoved ⟨.aggregation, start⟩ stop) := by
  rw [withMoved_aggregation hstart]
  refine ⟨rfl, rfl, rfl, rfl, fun k => ?_, rfl,
    fun _ _ _ i _ => indexAfterMove_indexAfterMove start stop i,
    fun _ _ i _ => indexAfterMove_indexAfterMove start stop i⟩
  rw [getElem?_moveItem (by rwa [List.length_map]) (by rwa [List.length_map]),
    List.getElem?_map]

theorem rearranged_withErased (policy : OrderByPolicy) {s : Stage} {index : Nat}
    (hunused : s.checkUnused ⟨.aggregation, index⟩ = .ok ())
    (hsorts : ∀ o ∈ s.orderBy, o.target ≠ .aggregation index) :
    Rearranged (indexAfterInsert index) (indexAfterErase index) s
      (s.withErased policy ⟨.aggregation, index⟩) where
  customColumns := rfl
  filters := rfl
  breakouts := rfl
  limit := rfl
  aggregation := by
    intro k
    rw [← getElem?_eraseIdx_eq_indexAfterInsert]
    exact List.getElem?_map
  orderBy := orderBy_withErased_aggregation policy hsorts
  reference := by
    intro k a ha i hi
    have hk : indexAfterInsert index k ≠ index := by
      unfold indexAfterInsert
      split <;> omega
    refine indexAfterInsert_indexAfterErase fun hindex => ?_
    exact not_mem_aggregationRefs_of_checkUnused hunused ha hk (hindex ▸ hi)
  sort := by
    intro o ho i hi
    refine indexAfterInsert_indexAfterErase fun hindex => hsorts o ho ?_
    rw [hi, hindex]

theorem rearranged_of_withInserted {s : Stage} (hs : s.isSummarized)
    (index : Nat) (a : Aggregation) :
    Rearranged (indexAfterInsert index) (indexAfterErase index)
      (s.withInserted index (.aggregation a)) s := by
  have hinverse := indexAfterErase_indexAfterInsert index
  rw [withInserted_aggregation, keptSorts, if_pos hs]
  refine ⟨rfl, rfl, rfl, rfl, fun k => ?_, ?_, fun k b hb i hi => ?_,
    fun o ho i hi => ?_⟩
  · simp [getElem?_insertIdx_indexAfterInsert, Function.comp_def,
      Aggregation.renumber_leftInverse hinverse _]
  · simp [Function.comp_def, OrderBy.mapTarget_leftInverse
      (OrderTarget.mapAggregation_leftInverse hinverse) _]
  · rw [getElem?_insertIdx_indexAfterInsert, List.getElem?_map,
      Option.map_eq_some_iff] at hb
    obtain ⟨b, -, rfl⟩ := hb
    rw [Aggregation.renumber, Expression.aggregationRefs_renumber] at hi
    obtain ⟨j, -, rfl⟩ := List.mem_map.mp hi
    rw [indexAfterErase_indexAfterInsert]
  · obtain ⟨o, -, rfl⟩ := List.mem_map.mp ho
    cases htarget : o.target with
    | aggregation j =>
        simp only [OrderBy.mapTarget, OrderTarget.mapAggregation, htarget,
          OrderTarget.aggregation.injEq] at hi
        rw [← hi, indexAfterErase_indexAfterInsert]
    | breakout j =>
        simp [OrderBy.mapTarget, OrderTarget.mapAggregation, htarget] at hi
    | column id =>
        simp [OrderBy.mapTarget, OrderTarget.mapAggregation, htarget] at hi

end Stage

/-! ## Rearranged rows -/

theorem rearranges_moveItem {width breakouts start stop : Nat}
    (hstart : breakouts + start < width) (hstop : breakouts + stop < width) :
    Rearranges (moveItem (breakouts + start) (breakouts + stop)) width
      (columnSource breakouts (indexAfterMove stop start)) := by
  intro row hrow c
  rw [getElem?_moveItem (by rwa [hrow]) (by rwa [hrow])]
  congr 1
  unfold columnSource indexAfterMove
  repeat' split
  all_goals omega

theorem rearranges_eraseIdx (width breakouts index : Nat) :
    Rearranges (·.eraseIdx (breakouts + index)) width
      (columnSource breakouts (indexAfterInsert index)) := by
  intro row _ c
  rw [getElem?_eraseIdx_eq_indexAfterInsert]
  congr 1
  unfold columnSource indexAfterInsert
  repeat' split
  all_goals omega

/-! ## Runs -/

namespace Database

variable {db : Database} {q : Query} {r : ResultSet}

theorem run_of_rearranged {s : Stage} {source target : Nat → Nat}
    {F : List Cell → List Cell} (h : q.stage.Rearranged source target s)
    (hF : Rearranges F (q.stage.breakouts.length + q.stage.aggregations.length)
      (columnSource q.stage.breakouts.length source))
    (hq : q.Valid db.catalog) (hq' : (q.withStage s).Valid db.catalog)
    (hs : q.stage.isSummarized) (hs' : s.isSummarized) (hr : db.run q = .ok r) :
    ∃ r', db.run (q.withStage s) = .ok r' ∧ r'.rows = r.rows.map F := by
  obtain ⟨rows, hrows, hrun⟩ := run_eq_ok_iff.mp hr
  rw [← Query.stage_withStage q s] at h
  obtain ⟨r', hr', hmap⟩ := (h.reindexes hq hq' hs).runStage hF hs
    (by rwa [Query.stage_withStage]) (exists_outputColumns_withStage hr s) hrun
  exact ⟨r', run_eq_ok_iff.mpr ⟨rows, by rwa [sourceRows_withStage], hr'⟩, hmap⟩

/-- An inserted aggregation adds its column: without it, the rows are the old
ones. -/
theorem forall₂_of_insert {a : Aggregation} {index : Nat} {r' : ResultSet}
    (hindex : index ≤ q.stage.aggregations.length) (hq : q.Valid db.catalog)
    (hq' : (q.withStage (q.stage.withInserted index (.aggregation a))).Valid
      db.catalog)
    (hs : q.stage.isSummarized) (hr : db.run q = .ok r)
    (hr' : db.run (q.withStage (q.stage.withInserted index (.aggregation a))) =
      .ok r') :
    List.Forall₂ (fun row row' =>
        ∃ cell, row' = row.insertIdx (q.stage.breakouts.length + index) cell)
      r.rows r'.rows := by
  have hinserted := Stage.withInserted_aggregation q.stage index a
  have hs' : (q.stage.withInserted index (.aggregation a)).isSummarized := by
    rw [Stage.isSummarized_withInserted hindex]
    simp [Clause.kind]
  have hback := Stage.rearranged_of_withInserted hs index a
  generalize q.stage.withInserted index (.aggregation a) = s at *
  have hbreakouts : s.breakouts = q.stage.breakouts := by rw [hinserted]
  have haggs : s.aggregations.length = q.stage.aggregations.length + 1 := by
    rw [hinserted]
    simp [List.length_insertIdx, hindex]
  obtain ⟨r₀, hr₀, hrows⟩ :=
    run_of_rearranged (q := q.withStage s) (s := q.stage) (r := r')
      (by simpa using hback)
      (by simpa [hbreakouts] using rearranges_eraseIdx _ _ index) hq'
      (by simpa using hq) (by simpa using hs') hs hr'
  rw [Query.withStage_withStage, Query.withStage_stage, hr] at hr₀
  cases hr₀
  rw [hrows, List.forall₂_map_left_iff, List.forall₂_same]
  intro row hrow
  obtain ⟨rows, -, hrun⟩ := run_eq_ok_iff.mp hr'
  have hwidth := length_of_mem_runStage (by simpa using hs') hrun row hrow
  rw [Query.stage_withStage, hbreakouts, haggs] at hwidth
  have hlt : q.stage.breakouts.length + index < row.length := by omega
  exact ⟨row[q.stage.breakouts.length + index],
    (List.insertIdx_eraseIdx_getElem hlt).symm⟩

variable {d : Draft}

/-- Edits of the aggregations of a query that groups or aggregates leave the
rest of its result alone.  A move moves the column, an insertion inserts one,
and a removal of an aggregation that no sort looks at removes its column; the
rows and their order stay. -/
theorem run_aggregationEdits (hs : d.query.stage.isSummarized)
    (hr : db.run d.query = .ok r) :
    (∀ row ∈ r.rows,
      row.length =
        d.query.stage.breakouts.length + d.query.stage.aggregations.length) ∧
    (∀ start stop d', d.move db.catalog ⟨.aggregation, start⟩ stop = .ok d' →
      ∃ r', db.run d'.query = .ok r' ∧
        r'.rows = r.rows.map (moveItem (d.query.stage.breakouts.length + start)
          (d.query.stage.breakouts.length + stop))) ∧
    (∀ index clause d' r',
      d.insert db.catalog ⟨.aggregation, index⟩ clause = .ok d' →
      db.run d'.query = .ok r' →
        List.Forall₂
          (fun row row' => ∃ cell,
            row' = row.insertIdx (d.query.stage.breakouts.length + index) cell)
          r.rows r'.rows) ∧
    (∀ policy index d',
      d.remove db.catalog policy ⟨.aggregation, index⟩ = .ok d' →
      (∀ o ∈ d.query.stage.orderBy, o.target ≠ .aggregation index) →
      d'.query.stage.isSummarized →
        ∃ r', db.run d'.query = .ok r' ∧
          r'.rows = r.rows.map
            (·.eraseIdx (d.query.stage.breakouts.length + index))) := by
  refine ⟨?_, ?_, ?_, ?_⟩
  · obtain ⟨rows, -, hrun⟩ := run_eq_ok_iff.mp hr
    exact length_of_mem_runStage hs hrun
  · intro start stop d' h
    obtain ⟨hstart, hstop, hvalid, hcommit⟩ := Draft.move_eq_ok_iff.mp h
    obtain ⟨hvalid', rfl⟩ := Draft.commit_eq_ok_iff.mp hcommit
    refine run_of_rearranged (Stage.rearranged_withMoved hstart hstop)
      (rearranges_moveItem ?_ ?_) hvalid hvalid' hs
      (Stage.isSummarized_withMoved hstart hstop) hr
    · exact Nat.add_lt_add_left hstart _
    · exact Nat.add_lt_add_left hstop _
  · intro index clause d' r' h hr'
    obtain ⟨hkind, hindex, hvalid, hcommit⟩ := Draft.insert_eq_ok_iff.mp h
    obtain ⟨hvalid', rfl⟩ := Draft.commit_eq_ok_iff.mp hcommit
    cases clause <;> cases hkind
    rename_i a
    exact forall₂_of_insert hindex hvalid hvalid' hs hr hr'
  · intro policy index d' h hsorts hs'
    obtain ⟨-, hvalid, hunused, hcommit⟩ := Draft.remove_eq_ok_iff.mp h
    obtain ⟨hvalid', rfl⟩ := Draft.commit_eq_ok_iff.mp hcommit
    rw [Query.stage_withStage] at hs'
    exact run_of_rearranged (Stage.rearranged_withErased policy hunused hsorts)
      (rearranges_eraseIdx _ _ index) hvalid hvalid' hs hs' hr

/-! ### A grouped table -/

def twoProducts : Database where
  catalog := Sample.catalog
  tables := [(Sample.products, {
    primaryKey := some Sample.Product.id
    rows := [[(Sample.Product.category, .string "Gadget")],
      [(Sample.Product.category, .string "Gizmo")]] })]

def categoryCounts : Draft where
  query := .ofTable Sample.products {
    aggregations :=
      [⟨.call .count [], none, []⟩, ⟨.call .cumulativeCount [], none, []⟩,
      ⟨.column (.aggregation 0), none, []⟩]
    breakouts := [⟨.field Sample.Product.category, none⟩]
    orderBy := [⟨.asc, .aggregation 1⟩] }
  revision := 0

def categoryCountsMoved : Draft where
  query := .ofTable Sample.products {
    aggregations :=
      [⟨.call .cumulativeCount [], none, []⟩, ⟨.call .count [], none, []⟩,
      ⟨.column (.aggregation 1), none, []⟩]
    breakouts := [⟨.field Sample.Product.category, none⟩]
    orderBy := [⟨.asc, .aggregation 0⟩] }
  revision := 1

def categoryRow (category : String) : Row :=
  .ofRecord [(Sample.Product.category, .string category)]

def countsRow (category : String) (counts : List Nat) : List Cell :=
  .string category :: counts.map .ofCount

theorem run_categoryCounts :
    ∃ columns, twoProducts.run categoryCounts.query =
      .ok ⟨columns,
        [countsRow "Gadget" [1, 1, 1], countsRow "Gizmo" [1, 2, 1]]⟩ := by
  have hgroups : twoProducts.groups categoryCounts.query.stage.breakouts
        [categoryRow "Gadget", categoryRow "Gizmo"] =
      .ok [⟨[.string "Gadget"], [categoryRow "Gadget"]⟩,
        ⟨[.string "Gizmo"], [categoryRow "Gizmo"]⟩] :=
    groups_eq_ok_iff.mpr ⟨_, rfl, List.mergeSort_of_pairwise (by decide)⟩
  have hsorted : sortGroups categoryCounts.query.stage.breakouts
        categoryCounts.query.stage.orderBy
        [countsRow "Gadget" [1, 1, 1], countsRow "Gizmo" [1, 2, 1]] =
      .ok [countsRow "Gadget" [1, 1, 1], countsRow "Gizmo" [1, 2, 1]] :=
    sortGroups_eq_ok_iff.mpr ⟨[2], rfl, List.mergeSort_of_pairwise (by decide),
      by decide⟩
  have hsummary := (@summarize_eq_ok_iff twoProducts
      (categoryCounts.query.outputColumns twoProducts.catalog)
      categoryCounts.query.stage _ _).mpr
    ⟨_, hgroups, _, .cons ⟨_, rfl, rfl⟩ (.cons ⟨_, rfl, rfl⟩ .nil), _, rfl, _,
      hsorted, _, rfl, rfl⟩
  exact ⟨_, run_eq_ok_iff.mpr ⟨_, rfl,
    (runStage_eq_ok_iff rfl).mpr ⟨_, rfl, _, hsummary, rfl⟩⟩⟩

theorem run_aggregationEdits_categoryCounts :
    ∃ r r', categoryCounts.query.stage.isSummarized ∧
      twoProducts.run categoryCounts.query = .ok r ∧
      categoryCounts.move twoProducts.catalog ⟨.aggregation, 0⟩ 1 =
        .ok categoryCountsMoved ∧
      twoProducts.run categoryCountsMoved.query = .ok r' ∧
      r'.rows = [countsRow "Gadget" [1, 1, 1],
        countsRow "Gizmo" [2, 1, 1]] := by
  obtain ⟨columns, hrun⟩ := run_categoryCounts
  have hmove : categoryCounts.move twoProducts.catalog ⟨.aggregation, 0⟩ 1 =
      .ok categoryCountsMoved := rfl
  obtain ⟨r', hr', hrows⟩ := (run_aggregationEdits rfl hrun).2.1 0 1 _ hmove
  exact ⟨_, r', rfl, hrun, hmove, hr', hrows⟩

end Database

end TableQuery
