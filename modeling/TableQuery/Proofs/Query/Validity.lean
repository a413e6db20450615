import Mathlib.Data.List.Nodup
import TableQuery.Proofs.Context
import TableQuery.Proofs.Expression
import TableQuery.Query.Validation

/-!
# What a valid query guarantees

Validation runs through the clauses and stops at the first fault.  `Stage.Valid`
and `Query.Valid` say what is left when it finds none, without the order in
which it looks: no two custom columns share a name, and every clause passes the
check of its kind against what it sees.
-/

namespace TableQuery

/-! ## Lists without repetition -/

theorem nodup_iff_forall_not_mem_take {α : Type} {as : List α} :
    as.Nodup ↔ ∀ (i : Nat) (a : α), as[i]? = some a → a ∉ as.take i := by
  constructor
  · intro h i a ha hmem
    obtain ⟨j, hj, rfl⟩ := List.mem_take_iff_getElem.mp hmem
    obtain ⟨hi, heq⟩ := List.getElem?_eq_some_iff.mp ha
    have := (List.Nodup.getElem_inj_iff h).mp heq
    omega
  · intro h
    refine List.nodup_iff_getElem?_ne_getElem?.mpr fun i j hij hj heq => ?_
    have hi : i < as.length := by omega
    refine h j as[j] (List.getElem?_eq_getElem hj) ?_
    rw [List.getElem?_eq_getElem hi, List.getElem?_eq_getElem hj] at heq
    exact List.mem_take_iff_getElem.mpr ⟨i, by omega, Option.some.inj heq⟩

theorem Stage.firstRepeated_eq_none_iff {before names : List String} :
    firstRepeated before names = none ↔ names.Nodup ∧ ∀ name ∈ names,
    name ∉ before := by
  induction names generalizing before with
  | nil => simp [firstRepeated]
  | cons name names ih =>
      by_cases h : name ∈ before
      · simp [firstRepeated, h]
      · simp only [firstRepeated, h, if_false, ih, List.mem_cons, not_or,
          List.nodup_cons, forall_eq_or_imp, not_false_eq_true, true_and]
        constructor
        · rintro ⟨hnodup, hout⟩
          exact ⟨⟨fun hmem => (hout name hmem).1 rfl, hnodup⟩,
            fun a ha => (hout a ha).2⟩
        · rintro ⟨⟨hnew, hnodup⟩, hout⟩
          exact ⟨hnodup, fun a ha => ⟨fun heq => hnew (heq ▸ ha), hout a ha⟩⟩

/-! ## Clauses -/

theorem Expression.check_eq_ok_iff {ctx : Context} {position : ClausePosition}
    {e : Expression} :
    e.check ctx position = .ok () ↔
      (∀ id ∈ e.identifiers, (ctx.lookup id).isSome) ∧
        (if position.kind = .aggregation then e.isAggregating ∨ e.isUnrecognized
          else e.containsAggregate = false) := by
  unfold Expression.check
  cases hfind : e.identifiers.find? fun id => (ctx.lookup id).isNone with
  | some id =>
      have hnone : ctx.lookup id = none := by simpa using List.find?_some hfind
      simp only [reduceCtorEq, false_iff, not_and]
      intro hall
      have hsome := hall id (List.mem_of_find?_eq_some hfind)
      exact absurd hsome (by simp [hnone])
  | none =>
      have hall : ∀ id ∈ e.identifiers, (ctx.lookup id).isSome := by
        intro id hid
        simpa [Option.isSome_iff_ne_none]
          using List.find?_eq_none.mp hfind id hid
      rw [and_iff_right hall]
      by_cases hkind : position.kind = .aggregation
      · by_cases haggregates : e.isAggregating ∨
          e.isUnrecognized <;> simp [hkind, haggregates]
      · cases haggregates : e.containsAggregate <;> simp [hkind]

namespace Stage

theorem checkBreakout_eq_ok_iff {ctx : Context} {s : Stage} {index : Nat}
    {b : Breakout} :
    checkBreakout ctx s index b = .ok () ↔
      (∃ e, ctx.lookup b.column = some e ∧ ∀ unit, b.unit = some unit →
        e.takesUnit unit) ∧
        b ∉ s.breakouts.take index := by
  unfold checkBreakout
  cases hlookup : ctx.lookup b.column with
  | none => simp
  | some e =>
      cases hunit : b.unit with
      | none => simp
      | some unit =>
          by_cases htakes : e.takesUnit unit <;> simp [Option.filter, htakes]

def TargetValid (ctx : Context) (s : Stage) : OrderTarget → Prop
  | .aggregation i => i < s.aggregations.length
  | .breakout i => i < s.breakouts.length
  | .column id => s.isSummarized = false ∧ (ctx.lookup id).isSome

theorem checkOrderBy_eq_ok_iff {ctx : Context} {s : Stage} {index : Nat}
    {o : OrderBy} :
    checkOrderBy ctx s index o = .ok () ↔
      TargetValid ctx s o.target ∧
      o.target ∉ (s.orderBy.take index).map OrderBy.target := by
  unfold checkOrderBy checkTarget TargetValid
  cases o.target with
  | aggregation i => by_cases h : i < s.aggregations.length <;> simp [h]
  | breakout i => by_cases h : i < s.breakouts.length <;> simp [h]
  | column id =>
      cases s.isSummarized with
      | true => simp
      | false => cases h : ctx.lookup id <;> simp [h]

/-! ## Stages -/

theorem mem_clauses_iff {s : Stage} {position : ClausePosition}
    {clause : Clause} :
    (position, clause) ∈ s.clauses ↔ s.clause? position = some clause := by
  simp only [clauses, List.mem_flatMap, List.mem_filterMap, List.mem_range,
    Option.map_eq_some_iff, Prod.mk.injEq]
  constructor
  · rintro ⟨kind, -, index, -, found, h, rfl, rfl⟩
    exact h
  · intro h
    refine ⟨position.kind, by cases position.kind <;> simp [ClauseKind.all],
      position.index, ?_, clause, h, rfl, rfl⟩
    obtain ⟨kind, index⟩ := position
    cases kind <;> simp only [clause?, Option.map_eq_some_iff] at h <;>
      (obtain ⟨_, h, _⟩ := h; exact (List.getElem?_eq_some_iff.mp h).1)

theorem checkClauses_eq_ok_iff {source : List Entry} {s : Stage}
    {clauses : List (ClausePosition × Clause)} :
    checkClauses source s clauses = .ok () ↔
      ∀ position clause, (position, clause) ∈ clauses →
        checkClause source s position clause = .ok () := by
  induction clauses with
  | nil => simp [checkClauses]
  | cons first rest ih =>
      obtain ⟨position, clause⟩ := first
      cases h : checkClause source s position clause with
      | error e =>
          simp only [checkClauses, h, reduceCtorEq, false_iff]
          intro hall
          rw [hall position clause List.mem_cons_self] at h
          exact absurd h (by simp)
      | ok _ =>
          simp only [checkClauses, h, ih, List.mem_cons, Prod.mk.injEq]
          constructor
          · rintro hall p c (⟨rfl, rfl⟩ | hmem)
            · exact h
            · exact hall p c hmem
          · exact fun hall p c hmem => hall p c (.inr hmem)

structure Valid (source : Except CatalogError (List Entry)) (s : Stage) :
    Prop where
  names_nodup : (s.customColumns.map CustomColumn.name).Nodup
  clause_ok : ∀ position clause, s.clause? position = some clause →
    ∃ entries, source = .ok entries ∧
    checkClause entries s position clause = .ok ()

theorem check_eq_ok_iff {source : Except CatalogError (List Entry)}
    {s : Stage} : s.check source = .ok () ↔ s.Valid source := by
  have hnames : firstRepeated [] (s.customColumns.map CustomColumn.name) =
      none ↔
      (s.customColumns.map CustomColumn.name).Nodup := by
    simp [firstRepeated_eq_none_iff]
  unfold check
  split
  case h_1 name h =>
      simp only [reduceCtorEq, false_iff]
      intro hvalid
      rw [hnames.mpr hvalid.names_nodup] at h
      exact absurd h (by simp)
  case h_2 h =>
      have hnodup := hnames.mp h
      split
      case h_1 hnone =>
          refine iff_of_true rfl ⟨hnodup, fun position clause hclause => ?_⟩
          rw [← mem_clauses_iff, hnone] at hclause
          exact absurd hclause List.not_mem_nil
      case h_2 hsome =>
          cases source with
          | error e =>
              simp only [reduceCtorEq, false_iff]
              intro hvalid
              obtain ⟨⟨position, clause⟩, hmem⟩ :=
                List.exists_mem_of_ne_nil _ hsome
              obtain ⟨entries, hentries, -⟩ :=
                hvalid.clause_ok position clause (mem_clauses_iff.mp hmem)
              exact absurd hentries (by simp)
          | ok entries =>
              rw [checkClauses_eq_ok_iff]
              constructor
              · intro hall
                exact ⟨hnodup, fun position clause hclause =>
                  ⟨entries, rfl,
                    hall position clause (mem_clauses_iff.mpr hclause)⟩⟩
              · intro hvalid position clause hmem
                obtain ⟨_, hentries, hok⟩ :=
                  hvalid.clause_ok position clause (mem_clauses_iff.mp hmem)
                cases hentries
                exact hok

namespace Valid

variable {source : Except CatalogError (List Entry)} {s : Stage}

theorem breakouts_nodup (h : s.Valid source) : s.breakouts.Nodup := by
  refine nodup_iff_forall_not_mem_take.mpr fun i b hb => ?_
  obtain ⟨entries, -, hok⟩ :=
    h.clause_ok ⟨.breakout, i⟩ (.breakout b) (by simp [clause?, hb])
  exact (checkBreakout_eq_ok_iff.mp hok).2

theorem sortTargets_nodup (h : s.Valid source) :
    (s.orderBy.map OrderBy.target).Nodup := by
  refine nodup_iff_forall_not_mem_take.mpr fun i target htarget => ?_
  rw [List.getElem?_map, Option.map_eq_some_iff] at htarget
  obtain ⟨o, ho, rfl⟩ := htarget
  obtain ⟨entries, -, hok⟩ :=
    h.clause_ok ⟨.orderBy, i⟩ (.orderBy o) (by simp [clause?, ho])
  rw [← List.map_take]
  exact (checkOrderBy_eq_ok_iff.mp hok).2

theorem sortTarget_valid (h : s.Valid source) {o : OrderBy}
    (ho : o ∈ s.orderBy) :
    ∃ entries, source = .ok entries ∧
      TargetValid (s.context entries) s o.target := by
  obtain ⟨i, hi⟩ := List.mem_iff_getElem?.mp ho
  obtain ⟨entries, hentries, hok⟩ :=
    h.clause_ok ⟨.orderBy, i⟩ (.orderBy o) (by simp [clause?, hi])
  exact ⟨entries, hentries, (checkOrderBy_eq_ok_iff.mp hok).1⟩

theorem breakout_not_aggregation (h : s.Valid source)
    (hsource : ∀ entries, source = .ok entries → SourceEntries entries)
    {b : Breakout} (hb : b ∈ s.breakouts) :
    b.column.aggregationIndex? = none := by
  obtain ⟨i, hi⟩ := List.mem_iff_getElem?.mp hb
  obtain ⟨entries, hentries, hok⟩ :=
    h.clause_ok ⟨.breakout, i⟩ (.breakout b) (by simp [clause?, hi])
  obtain ⟨⟨e, he, -⟩, -⟩ := checkBreakout_eq_ok_iff.mp hok
  have hvisible :
      ((s.contextAt entries ⟨.breakout, i⟩).lookup b.column).isSome := by
    rw [he]
    rfl
  cases hcolumn : b.column with
  | aggregation index =>
      rw [hcolumn] at hvisible
      have hkind :=
        (lt_of_lookup_aggregation (hsource entries hentries) hvisible).1
      cases hkind
  | _ => rfl

theorem sortColumn_not_aggregation (h : s.Valid source)
    (hsource : ∀ entries, source = .ok entries → SourceEntries entries)
    {o : OrderBy} (ho : o ∈ s.orderBy) {id : Identifier}
    (htarget : o.target = .column id) :
    s.isSummarized = false ∧ id.aggregationIndex? = none := by
  obtain ⟨entries, hentries, hvalid⟩ := h.sortTarget_valid ho
  rw [htarget] at hvalid
  refine ⟨hvalid.1, ?_⟩
  cases id with
  | aggregation index =>
      have hvisible :
          ((s.contextAt entries ⟨.orderBy, 0⟩).lookup
            (.aggregation index)).isSome :=
        hvalid.2
      have hkind :=
        (lt_of_lookup_aggregation (hsource entries hentries) hvisible).1
      cases hkind
  | _ => rfl

/-- An aggregation reads only aggregations that stand before it. -/
theorem aggregationRefs_lt (h : s.Valid source)
    (hsource : ∀ entries, source = .ok entries → SourceEntries entries)
    {i j : Nat} {a : Aggregation} (ha : s.aggregations[i]? = some a)
    (hj : j ∈ a.expression.aggregationRefs) : j < i := by
  obtain ⟨entries, hentries, hok⟩ :=
    h.clause_ok ⟨.aggregation, i⟩ (.aggregation a) (by simp [clause?, ha])
  have hvisible :=
    (Expression.check_eq_ok_iff.mp hok).1 _
      (Expression.mem_aggregationRefs.mp hj)
  exact (lt_of_lookup_aggregation (hsource entries hentries) hvisible).2

end Valid

end Stage

/-! ## Queries -/

namespace Query

def Valid (c : Catalog) : Query → Prop
  | ofTable table stage => stage.Valid (c.tableEntries table)
  | ofQuery source stage =>
    source.Valid c ∧ stage.Valid (sourceColumns c (ofQuery source stage))

theorem validate_eq_ok_iff {c : Catalog} {q : Query} :
    q.validate c = .ok () ↔ q.Valid c := by
  induction q with
  | ofTable table stage => exact Stage.check_eq_ok_iff
  | ofQuery source stage ih =>
      unfold validate Valid
      rw [← ih, ← Stage.check_eq_ok_iff]
      cases h : source.validate c <;> simp

theorem Valid.stage {c : Catalog} {q : Query} (h : q.Valid c) :
    q.stage.Valid (q.sourceColumns c) := by
  cases q with
  | ofTable table stage => exact h
  | ofQuery source stage => exact h.2

theorem Valid.withStage {c : Catalog} {q : Query} (h : q.Valid c)
    {stage : Stage} (hstage : stage.Valid (q.sourceColumns c)) :
    (q.withStage stage).Valid c := by
  cases q with
  | ofTable table old => exact hstage
  | ofQuery source old => exact ⟨h.1, hstage⟩

theorem Valid.aggregationRefs_lt {c : Catalog} {q : Query} (h : q.Valid c)
    {i j : Nat} {a : Aggregation} (ha : q.stage.aggregations[i]? = some a)
    (hj : j ∈ a.expression.aggregationRefs) : j < i :=
  h.stage.aggregationRefs_lt (fun _ => sourceEntries_sourceColumns) ha hj

end Query

end TableQuery
