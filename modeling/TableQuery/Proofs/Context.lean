import Mathlib.Data.List.Basic
import TableQuery.Context.Columns
import TableQuery.Proofs.Except

/-!
# What contexts hold

The entries of a context are those of the source, the custom columns before the
clause and, for an aggregation, the aggregations before it.  So a reference by
position that can be looked up points at an earlier aggregation.
-/

namespace TableQuery

namespace Context

theorem exists_entry_of_lookup {ctx : Context} {index : Nat}
    (h : (ctx.lookup (.aggregation index)).isSome) :
    ∃ e ∈ ctx.entries, e.identifier = .aggregation index := by
  obtain ⟨e, he⟩ := Option.isSome_iff_exists.mp h
  refine ⟨e, List.mem_of_find?_eq_some he, ?_⟩
  have hentry : isEntryOf (.aggregation index) e = true := by
    simpa using List.find?_some he
  have hid : Identifier.aggregation index = e.identifier := by
    simpa [isEntryOf] using hentry
  exact hid.symm

end Context

namespace Stage

theorem mem_pushColumns {columns : List CustomColumn} {ctx : Context}
    {e : Entry} (h : e ∈ (pushColumns columns ctx).entries) :
    e ∈ ctx.entries ∨ ∃ c ∈ columns, e.identifier = .customColumn c.name := by
  induction columns generalizing ctx with
  | nil => exact .inl h
  | cons column columns ih =>
      rcases ih h with hmem | ⟨c, hc, hid⟩
      · rcases List.mem_append.mp hmem with hold | hnew
        · exact .inl hold
        · refine .inr ⟨column, List.mem_cons_self, ?_⟩
          rw [List.mem_singleton.mp hnew]
      · exact .inr ⟨c, List.mem_cons_of_mem column hc, hid⟩

theorem mem_pushAggregations {aggregations : List Aggregation} {index : Nat}
    {ctx : Context} {e : Entry}
    (h : e ∈ (pushAggregations index aggregations ctx).entries) :
    e ∈ ctx.entries ∨
      ∃ i, i < index + aggregations.length ∧ e.identifier = .aggregation i := by
  induction aggregations generalizing index ctx with
  | nil => exact .inl h
  | cons a aggregations ih =>
      rcases ih h with hmem | ⟨i, hi, hid⟩
      · rcases List.mem_append.mp hmem with hold | hnew
        · exact .inl hold
        · refine .inr ⟨index, by simp, ?_⟩
          rw [List.mem_singleton.mp hnew]
      · refine .inr ⟨i, ?_, hid⟩
        rw [List.length_cons]
        omega

def SourceEntries (entries : List Entry) : Prop :=
  ∀ e ∈ entries, e.identifier.aggregationIndex? = none

/-- An aggregation that a clause can see stands before it. -/
theorem lt_of_lookup_aggregation {entries : List Entry}
    (hsource : SourceEntries entries) {s : Stage} {position : ClausePosition}
    {i : Nat} (h :
      ((s.contextAt entries position).lookup (.aggregation i)).isSome) :
    position.kind = .aggregation ∧ i < position.index := by
  obtain ⟨e, hmem, hid⟩ := Context.exists_entry_of_lookup h
  have hcolumns : ∀ columns, e ∉ (pushColumns columns ⟨entries⟩).entries := by
    intro columns hmem
    rcases mem_pushColumns hmem with hold | ⟨c, -, hc⟩
    · have := hsource e hold
      simp [hid, Identifier.aggregationIndex?] at this
    · simp [hid] at hc
  obtain ⟨kind, index⟩ := position
  cases kind with
  | aggregation =>
      refine ⟨rfl, ?_⟩
      rcases mem_pushAggregations hmem with hold | ⟨j, hj, hej⟩
      · exact absurd hold (hcolumns _)
      · rw [hid, Identifier.aggregation.injEq] at hej
        have := List.length_take_le index s.aggregations
        dsimp only at hj ⊢
        omega
  | customColumn => exact absurd hmem (hcolumns _)
  | filter => exact absurd hmem (hcolumns _)
  | breakout => exact absurd hmem (hcolumns _)
  | orderBy => exact absurd hmem (hcolumns _)

end Stage

/-! ## Columns of the source -/

/-- What a stage reads from its source: a field, behind the name of its table or
of the hop to it, or a column of an earlier stage, by its name alone. -/
def Entry.IsSource (e : Entry) : Prop :=
  match e.identifier with
  | .field _ | .foreign _ _ => e.path.length = 1
  | .stageColumn name kind => e.path = [] ∧ name = e.name ∧ kind = e.kind
  | .customColumn _ | .aggregation _ => False

theorem Entry.IsSource.aggregationIndex? {e : Entry} (h : e.IsSource) :
    e.identifier.aggregationIndex? = none := by
  unfold IsSource at h
  split at h <;> simp_all [Identifier.aggregationIndex?]

theorem Entry.IsSource.identifier_ne_customColumn {e : Entry} (h : e.IsSource)
    (name : String) : e.identifier ≠ .customColumn name := by
  intro hid
  simp [IsSource, hid] at h

theorem Catalog.identifier_of_mem_tableEntries {c : Catalog} {id : TableId}
    {entries : List Entry} (h : c.tableEntries id = .ok entries) {e : Entry}
    (he : e ∈ entries) :
    e.path.length = 1 ∧
      ((∃ f, e.identifier = .field f) ∨ ∃ key f, e.identifier =
        .foreign key f) := by
  unfold Catalog.tableEntries at h
  cases htable : c.table? id with
  | none => simp [htable] at h
  | some t =>
      simp only [htable, Except.ok.injEq] at h
      subst h
      simp only [List.mem_append, List.mem_map, List.mem_flatMap] at he
      rcases he with ⟨f, -, rfl⟩ | ⟨key, -, hhop⟩
      · exact ⟨rfl, .inl ⟨f.id, rfl⟩⟩
      · unfold hopEntries at hhop
        cases hfields : key.target.bind c.fields? with
        | none => simp [hfields] at hhop
        | some fields =>
            simp only [hfields, List.mem_map] at hhop
            obtain ⟨f, -, rfl⟩ := hhop
            exact ⟨rfl, .inr ⟨key.id, f.id, rfl⟩⟩

theorem Catalog.isSource_of_mem_tableEntries {c : Catalog} {id : TableId}
    {entries : List Entry} (h : c.tableEntries id = .ok entries) {e : Entry}
    (he : e ∈ entries) : e.IsSource := by
  obtain ⟨hpath, ⟨f, hid⟩ | ⟨key, f, hid⟩⟩ :=
    identifier_of_mem_tableEntries h he <;>
    simpa [Entry.IsSource, hid] using hpath

theorem Catalog.sourceEntries_tableEntries {c : Catalog} {id : TableId}
    {entries : List Entry} (h : c.tableEntries id = .ok entries) :
    Stage.SourceEntries entries :=
  fun _ he => (isSource_of_mem_tableEntries h he).aggregationIndex?

namespace Query

theorem isSource_of_mem_sourceColumns {c : Catalog} {q : Query}
    {entries : List Entry} (h : q.sourceColumns c = .ok entries) {e : Entry}
    (he : e ∈ entries) : e.IsSource := by
  cases q with
  | ofTable table stage => exact Catalog.isSource_of_mem_tableEntries h he
  | ofQuery source stage =>
      simp only [sourceColumns, bind_eq_ok_iff, pure_eq_ok_iff] at h
      obtain ⟨_, -, rfl⟩ := h
      obtain ⟨output, -, rfl⟩ := List.mem_map.mp he
      exact ⟨rfl, rfl, rfl⟩

theorem sourceEntries_sourceColumns {c : Catalog} {q : Query}
    {entries : List Entry} (h : q.sourceColumns c = .ok entries) :
    Stage.SourceEntries entries :=
  fun _ he => (isSource_of_mem_sourceColumns h he).aggregationIndex?

@[simp] theorem sourceColumns_withStage (c : Catalog) (q : Query)
    (stage : Stage) :
    (q.withStage stage).sourceColumns c = q.sourceColumns c := by
  cases q <;> rfl

@[simp] theorem stage_withStage (q : Query) (stage : Stage) :
    (q.withStage stage).stage = stage := by
  cases q <;> rfl

@[simp] theorem withStage_withStage (q : Query) (stage stage' : Stage) :
    (q.withStage stage).withStage stage' = q.withStage stage' := by
  cases q <;> rfl

@[simp] theorem withStage_stage (q : Query) : q.withStage q.stage = q := by
  cases q <;> rfl

end Query

end TableQuery
