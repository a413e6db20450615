import TableQuery.Proofs.Query.Edit
import TableQuery.Proofs.Query.Visibility

/-!
# Which clause reads which

Custom columns and aggregations are columns to other clauses.  In a consistent
stage each of them stands before those of its kind that read it, and validation
finds the faults of a stage in the order of the kinds.
-/

namespace TableQuery

def Clause.identifiers : Clause → List Identifier
  | customColumn c => c.expression.identifiers
  | filter predicate => predicate.identifiers
  | aggregation a => a.expression.identifiers
  | breakout b => [b.column]
  | orderBy o =>
    match o.target with
    | .column id => [id]
    | _ => []

theorem Identifier.customColumn?_eq_some_iff {id : Identifier} {name : String} :
    id.customColumn? = some name ↔ id = .customColumn name := by
  cases id <;> simp [customColumn?]

theorem Expression.readsCustomColumn_iff {name : String} {e : Expression} :
    e.readsCustomColumn name = true ↔ .customColumn name ∈ e.identifiers := by
  simp [readsCustomColumn, Identifier.customColumn?_eq_some_iff]

def ClauseKind.rank : ClauseKind → Nat
  | customColumn => 0
  | filter => 1
  | aggregation => 2
  | breakout => 3
  | orderBy => 4

namespace Stage

def identifierAt? (s : Stage) (position : ClausePosition) : Option Identifier :=
  match position.kind with
  | .aggregation => some (.aggregation position.index)
  | .customColumn => s.customColumns[position.index]?.map fun c =>
    .customColumn c.name
  | _ => none

/-- The clause at one position reads the one at another. -/
def Reads (s : Stage) (reader position : ClausePosition) : Prop :=
  ∃ clause, s.clause? reader = some clause ∧
    ∃ id ∈ clause.identifiers, s.identifierAt? position = some id

variable {source : List Entry} {s : Stage} {position : ClausePosition}
  {clause : Clause}

/-! ## Clauses and positions -/

theorem kind_of_clause? (h : s.clause? position = some clause) :
    clause.kind = position.kind := by
  obtain ⟨kind, index⟩ := position
  cases kind <;>
    (simp only [clause?, Option.map_eq_some_iff]
      at h; obtain ⟨x, -, rfl⟩ := h; rfl)

theorem exists_clause (h : position.index < s.count position.kind) :
    ∃ clause, s.clause? position = some clause := by
  obtain ⟨kind, index⟩ := position
  cases kind <;> exact ⟨_, congrArg (Option.map _) (List.getElem?_eq_getElem h)⟩

theorem index_lt_count (h : s.clause? position = some clause) :
    position.index < s.count position.kind := by
  obtain ⟨kind, index⟩ := position
  cases kind <;>
    (simp only [clause?, Option.map_eq_some_iff] at h; obtain ⟨x, hx, -⟩ := h;
     exact (List.getElem?_eq_some_iff.mp hx).1)

/-! ## What is read is visible -/

theorem exists_visibleColumn_of_lookup (hsource : ∀ e ∈ source, e.IsSource)
    {name : String}
    (h : ((s.contextAt source position).lookup (.customColumn name)).isSome) :
    ∃ c ∈ s.visibleColumns position, c.name = name := by
  rw [isSome_lookup_contextAt] at h
  rcases h with hold | ⟨c, hc, hid⟩ | ⟨i, -, hid⟩
  · obtain ⟨e, he, hentry⟩ := List.find?_isSome.mp hold
    exact absurd (Context.identifier_eq_of_isEntryOf (by simp) hentry)
      ((hsource e he).identifier_ne_customColumn name)
  · exact ⟨c, hc, (Identifier.customColumn.inj hid).symm⟩
  · cases hid

theorem Consistent.checkClause_eq_ok (h : s.Consistent source)
    (hclause : s.clause? position = some clause) :
    checkClause source s position clause = .ok () := by
  obtain ⟨_, hentries, hok⟩ :=
    (valid_ok_iff.mpr h).clause_ok position clause hclause
  cases hentries
  exact hok

theorem Consistent.isSome_lookup (h : s.Consistent source)
    (hclause : s.clause? position = some clause) {id : Identifier}
    (hid : id ∈ clause.identifiers) :
    ((s.contextAt source position).lookup id).isSome := by
  have hok := h.checkClause_eq_ok hclause
  cases clause with
  | customColumn c => exact (Expression.check_eq_ok_iff.mp hok).1 id hid
  | filter predicate => exact (Expression.check_eq_ok_iff.mp hok).1 id hid
  | aggregation a => exact (Expression.check_eq_ok_iff.mp hok).1 id hid
  | breakout b =>
      obtain ⟨⟨e, he, -⟩, -⟩ := checkBreakout_eq_ok_iff.mp hok
      rw [List.mem_singleton.mp hid, he]
      rfl
  | orderBy o =>
      have hvalid := (checkOrderBy_eq_ok_iff.mp hok).1
      cases htarget : o.target with
      | column column =>
          rw [htarget] at hvalid
          simp only [Clause.identifiers, htarget, List.mem_singleton] at hid
          rw [hid]
          exact hvalid.2
      | aggregation i => simp [Clause.identifiers, htarget] at hid
      | breakout i => simp [Clause.identifiers, htarget] at hid

theorem Consistent.lt_of_reads_aggregation (h : s.Consistent source)
    (hsource : SourceEntries source) {reader : ClausePosition} {i : Nat}
    (hreads : s.Reads reader ⟨.aggregation, i⟩) :
    reader.kind = .aggregation ∧ i < reader.index := by
  obtain ⟨clause, hclause, id, hid, hat⟩ := hreads
  cases hat
  exact lt_of_lookup_aggregation hsource (h.isSome_lookup hclause hid)

theorem Consistent.lt_of_reads_customColumn (h : s.Consistent source)
    (hsource : ∀ e ∈ source, e.IsSource) {i j : Nat}
    (hreads : s.Reads ⟨.customColumn, i⟩ ⟨.customColumn, j⟩) : j < i := by
  obtain ⟨clause, hclause, id, hid, hat⟩ := hreads
  obtain ⟨c, hc, rfl⟩ := Option.map_eq_some_iff.mp hat
  obtain ⟨c', hc', hname⟩ :=
    exists_visibleColumn_of_lookup hsource (h.isSome_lookup hclause hid)
  obtain ⟨k, hk, hget⟩ := List.mem_take_iff_getElem.mp hc'
  -- The names are distinct, so the column that is visible is the one that is
  -- read.
  have hlt : k < s.customColumns.length := by omega
  have hk' : (s.customColumns.map CustomColumn.name)[k]? = some c'.name := by
    rw [List.getElem?_map, List.getElem?_eq_getElem hlt, hget, Option.map_some]
  have hj' : (s.customColumns.map CustomColumn.name)[j]? = some c'.name := by
    rw [List.getElem?_map, hc, Option.map_some, hname]
  have hkj : k = j :=
    (List.getElem?_inj (by rwa [List.length_map]) h.names_nodup).mp
      (hk'.trans hj'.symm)
  dsimp only at hk
  omega

/-- A clause reads only clauses of its kind that stand before it. -/
theorem Consistent.lt_of_reads (h : s.Consistent source)
    (hsource : ∀ e ∈ source, e.IsSource) {kind : ClauseKind} {i j : Nat}
    (hreads : s.Reads ⟨kind, i⟩ ⟨kind, j⟩) : j < i := by
  cases kind with
  | customColumn => exact h.lt_of_reads_customColumn hsource hreads
  | aggregation =>
      exact (h.lt_of_reads_aggregation
        (fun e he => (hsource e he).aggregationIndex?) hreads).2
  | filter => obtain ⟨_, _, _, _, hat⟩ := hreads; cases hat
  | breakout => obtain ⟨_, _, _, _, hat⟩ := hreads; cases hat
  | orderBy => obtain ⟨_, _, _, _, hat⟩ := hreads; cases hat

/-! ## The first fault -/

theorem checkClauses_eq_error {clauses : List (ClausePosition × Clause)}
    {e : ConsistencyError} (h : checkClauses source s clauses = .error e) :
    ∃ before position clause after,
    clauses = before ++ (position, clause) :: after ∧
      checkClauses source s before = .ok () ∧
      checkClause source s position clause = .error e := by
  induction clauses with
  | nil => cases h
  | cons first rest ih =>
      obtain ⟨position, clause⟩ := first
      rw [checkClauses] at h
      split at h
      case h_1 fault hfault =>
          cases h
          exact ⟨[], position, clause, rest, rfl, rfl, hfault⟩
      case h_2 hok =>
          obtain ⟨before, position', clause', after, rfl, hbefore, hfault⟩ :=
            ih h
          refine ⟨(position, clause) :: before, position', clause', after,
            rfl, ?_, hfault⟩
          rw [checkClauses, hok]
          exact hbefore

theorem pairwise_rank_clauses (s : Stage) :
    s.clauses.Pairwise fun first second => first.1.kind.rank ≤
      second.1.kind.rank := by
  have hkind : ∀ (kind : ClauseKind) (entry : ClausePosition × Clause),
      entry ∈ (List.range (s.count kind)).filterMap (fun index =>
        (s.clause? ⟨kind, index⟩).map fun clause => (⟨kind, index⟩, clause)) →
      entry.1.kind = kind := by
    intro kind entry hentry
    obtain ⟨index, -, hmap⟩ := List.mem_filterMap.mp hentry
    obtain ⟨clause, -, rfl⟩ := Option.map_eq_some_iff.mp hmap
    rfl
  refine List.pairwise_flatMap.mpr ⟨fun kind _ => ?_, ?_⟩
  · refine List.pairwise_of_forall_mem_list fun first hfirst second hsecond =>
      ?_
    exact Nat.le_of_eq (congrArg ClauseKind.rank
      ((hkind kind first hfirst).trans (hkind kind second hsecond).symm))
  · have hranks : ClauseKind.all.Pairwise fun a b => a.rank ≤ b.rank := by
      decide
    refine hranks.imp fun hrank first hfirst second hsecond => ?_
    rwa [hkind _ first hfirst, hkind _ second hsecond]

/-- The first fault of a stage: the clauses of the kinds before are without
one. -/
theorem check_eq_error (hnames : (s.customColumns.map CustomColumn.name).Nodup)
    {e : ConsistencyError} (h : s.check (.ok source) = .error e) :
    ∃ position clause, s.clause? position = some clause ∧
      checkClause source s position clause = .error e ∧
      ∀ position' clause', s.clause? position' = some clause' →
        position'.kind.rank < position.kind.rank →
          checkClause source s position' clause' = .ok () := by
  have hnone : firstRepeated [] (s.customColumns.map CustomColumn.name) =
      none :=
    firstRepeated_eq_none_iff.mpr ⟨hnames, by simp⟩
  have hclauses : checkClauses source s s.clauses = .error e := by
    simp only [check, hnone] at h
    split at h
    · cases h
    · exact h
  obtain ⟨before, position, clause, after, hsplit, hbefore, hfault⟩ :=
    checkClauses_eq_error hclauses
  refine ⟨position, clause, ?_, hfault,
    fun position' clause' hclause' hrank => ?_⟩
  · exact mem_clauses_iff.mp (by simp [hsplit])
  · have hmem := mem_clauses_iff.mpr hclause'
    have hpairwise := s.pairwise_rank_clauses
    rw [hsplit] at hmem hpairwise
    rcases List.mem_append.mp hmem with hfirst | hlater
    · exact checkClauses_eq_ok_iff.mp hbefore position' clause' hfirst
    · rcases List.mem_cons.mp hlater with heq | hafter
      · cases heq
        exact absurd hrank (Nat.lt_irrefl _)
      · have hle :=
          (List.pairwise_cons.mp (List.pairwise_append.mp hpairwise).2.1).1
            _ hafter
        exact absurd hrank (Nat.not_lt.mpr hle)

end Stage

theorem Expression.exists_of_check_eq_error {ctx : Context}
    {position : ClausePosition} {e : Expression} {error : ConsistencyError}
    (hplace : if position.kind = .aggregation then e.isAggregating ∨
      e.isUnrecognized
      else e.containsAggregate = false) (h : e.check ctx position =
        .error error) :
    ∃ id ∈ e.identifiers, ctx.lookup id = none ∧
      error = .unresolvedColumn position id := by
  cases hfind : e.identifiers.find? fun id => (ctx.lookup id).isNone with
  | some id =>
      simp only [Expression.check, hfind, Except.error.injEq] at h
      exact ⟨id, List.mem_of_find?_eq_some hfind,
        by simpa using List.find?_some hfind, h.symm⟩
  | none =>
      have hall : ∀ id ∈ e.identifiers, (ctx.lookup id).isSome := by
        intro id hid
        simpa [Option.isSome_iff_ne_none]
          using List.find?_eq_none.mp hfind id hid
      rw [Expression.check_eq_ok_iff.mpr ⟨hall, hplace⟩] at h
      cases h

/-! ## Queries -/

namespace Query

theorem validate_withStage {c : Catalog} {q : Query} (h : q.Valid c)
    (stage : Stage) :
    (q.withStage stage).validate c = stage.check (q.sourceColumns c) := by
  cases q with
  | ofTable table old => rfl
  | ofQuery source old =>
      have hsource := validate_eq_ok_iff.mpr h.1
      simp only [withStage, validate, hsource]
      rfl

theorem Valid.exists_consistent {c : Catalog} {q : Query} (h : q.Valid c)
    {position : ClausePosition}
    (hindex : position.index < q.stage.count position.kind) :
    ∃ source, q.sourceColumns c = .ok source ∧ q.stage.Consistent source := by
  obtain ⟨clause, hclause⟩ := Stage.exists_clause hindex
  have hvalid := h.stage
  obtain ⟨source, hsource, -⟩ := hvalid.clause_ok position clause hclause
  rw [hsource] at hvalid
  exact ⟨source, hsource, Stage.valid_ok_iff.mp hvalid⟩

end Query

end TableQuery
