import TableQuery.Proofs.Query.Visibility
import TableQuery.Sample

/-!
# Clauses on one column

Validation compares breakouts and sorts as they are written, and a look-up takes
a column of an earlier stage by its name alone.  So the one way in which a valid
query can group or sort twice by one column is to write two kinds behind one
name of an earlier stage.
-/

namespace TableQuery

/-! ## What a look-up cannot tell apart -/

def Identifier.DiffersInKind : Identifier → Identifier → Prop
  | .stageColumn name kind, .stageColumn name' kind' =>
  name = name' ∧ kind ≠ kind'
  | _, _ => False

namespace Context

theorem lookup_eq_lookup_of_differsInKind {ctx : Context} {id id' : Identifier}
    (h : id.DiffersInKind id') : ctx.lookup id = ctx.lookup id' := by
  cases id with
  | stageColumn name kind =>
      cases id' with
      | stageColumn name' kind' =>
          obtain ⟨rfl, -⟩ := h
          refine congrArg (ctx.entries.find? ·) (funext fun e => ?_)
          cases hid : e.identifier <;> simp [isEntryOf, hid]
      | _ => exact h.elim
  | _ => exact h.elim

theorem eq_or_differsInKind_of_isEntryOf {id id' : Identifier} {e : Entry}
    (h : isEntryOf id e = true) (h' : isEntryOf id' e = true) :
    id = id' ∨ id.DiffersInKind id' := by
  cases id <;> cases id' <;> cases hid : e.identifier <;>
    simp_all [isEntryOf, Identifier.DiffersInKind]
  case stageColumn.stageColumn => exact em _

/-- Two visible columns are looked up as one entry only if they are one column,
or differ in nothing but the kind written behind the name. -/
theorem lookup_eq_lookup_iff {ctx : Context} {id id' : Identifier}
    (h : (ctx.lookup id).isSome) :
    ctx.lookup id = ctx.lookup id' ↔ id = id' ∨ id.DiffersInKind id' := by
  constructor
  · intro heq
    obtain ⟨e, he⟩ := Option.isSome_iff_exists.mp h
    have he' : ctx.lookup id' = some e := heq ▸ he
    exact eq_or_differsInKind_of_isEntryOf (List.find?_some he)
      (List.find?_some he')
  · rintro (rfl | hkind)
    · rfl
    · exact lookup_eq_lookup_of_differsInKind hkind

end Context

/-! ## Breakouts and sorts of a valid query -/

namespace Query

def entryAt? (c : Catalog) (q : Query) (position : ClausePosition)
    (id : Identifier) : Option Entry :=
  match q.contextAt c position with
  | .error _ => none
  | .ok ctx => ctx.lookup id

theorem entryAt?_eq {c : Catalog} {q : Query} {source : List Entry}
    (h : q.sourceColumns c = .ok source) {position : ClausePosition}
    (id : Identifier) (hcolumn : position.kind ≠ .customColumn)
    (haggregation : position.kind ≠ .aggregation) :
    q.entryAt? c position id = (q.stage.context source).lookup id := by
  obtain ⟨kind, index⟩ := position
  unfold entryAt? contextAt
  rw [h]
  cases kind with
  | customColumn => exact absurd rfl hcolumn
  | aggregation => exact absurd rfl haggregation
  | _ => rfl

theorem exists_source_of_breakout {c : Catalog} {q : Query} (h : q.Valid c)
    {i : Nat} {b : Breakout} (hb : q.stage.breakouts[i]? = some b) :
    ∃ source, q.sourceColumns c = .ok source ∧
      ((q.stage.context source).lookup b.column).isSome := by
  obtain ⟨source, hsource, hok⟩ :=
    h.stage.clause_ok ⟨.breakout, i⟩ (.breakout b) (by simp [Stage.clause?, hb])
  obtain ⟨⟨e, he, -⟩, -⟩ := Stage.checkBreakout_eq_ok_iff.mp hok
  exact ⟨source, hsource, Option.isSome_iff_exists.mpr ⟨e, he⟩⟩

theorem exists_source_of_sort {c : Catalog} {q : Query} (h : q.Valid c)
    {o : OrderBy} (ho : o ∈ q.stage.orderBy) {id : Identifier}
    (htarget : o.target = .column id) :
    ∃ source, q.sourceColumns c = .ok source ∧
      ((q.stage.context source).lookup id).isSome := by
  obtain ⟨source, hsource, hvalid⟩ := h.stage.sortTarget_valid ho
  rw [htarget] at hvalid
  exact ⟨source, hsource, hvalid.2⟩

/-- In a valid query, all columns of breakouts and sorts are found, and two
breakouts by one unit, or two sorts on columns, look up one entry if and only if
their columns go by one name of an earlier stage with different kinds. -/
theorem entryAt?_eq_iff_differsInKind {c : Catalog} {q : Query}
    (h : q.validate c = .ok ()) :
    (∀ (i j : Nat) (b b' : Breakout), i ≠ j → q.stage.breakouts[i]? = some b →
      q.stage.breakouts[j]? = some b' → b.unit = b'.unit →
      (q.entryAt? c ⟨.breakout, i⟩ b.column).isSome ∧
        (q.entryAt? c ⟨.breakout, i⟩ b.column =
            q.entryAt? c ⟨.breakout, j⟩ b'.column ↔
          b.column.DiffersInKind b'.column)) ∧
    ∀ (i j : Nat) (o o' : OrderBy) (id id' : Identifier), i ≠ j →
      q.stage.orderBy[i]? = some o → q.stage.orderBy[j]? = some o' →
      o.target = .column id → o'.target = .column id' →
      (q.entryAt? c ⟨.orderBy, i⟩ id).isSome ∧
        (q.entryAt? c ⟨.orderBy, i⟩ id = q.entryAt? c ⟨.orderBy, j⟩ id' ↔
          id.DiffersInKind id') := by
  have hvalid := validate_eq_ok_iff.mp h
  constructor
  · intro i j b b' hij hb hb' hunit
    have hcolumns : b.column ≠ b'.column := by
      intro hcolumn
      have hsame : b = b' := by
        cases b
        cases b'
        simp_all
      obtain ⟨hi, -⟩ := List.getElem?_eq_some_iff.mp hb
      exact hij ((List.getElem?_inj hi hvalid.stage.breakouts_nodup).mp
        (by rw [hb, hb', hsame]))
    obtain ⟨source, hsource, hvisible⟩ := exists_source_of_breakout hvalid hb
    rw [entryAt?_eq hsource b.column (by simp) (by simp),
      entryAt?_eq hsource b'.column (by simp) (by simp),
      Context.lookup_eq_lookup_iff hvisible, or_iff_right hcolumns]
    exact ⟨hvisible, Iff.rfl⟩
  · intro i j o o' id id' hij ho ho' htarget htarget'
    have hids : id ≠ id' := by
      rintro rfl
      have hi : i < (q.stage.orderBy.map OrderBy.target).length := by
        rw [List.length_map]
        exact (List.getElem?_eq_some_iff.mp ho).1
      refine hij ((List.getElem?_inj hi hvalid.stage.sortTargets_nodup).mp ?_)
      rw [List.getElem?_map, List.getElem?_map, ho, ho', Option.map_some,
        Option.map_some, htarget, htarget']
    obtain ⟨source, hsource, hvisible⟩ :=
      exists_source_of_sort hvalid (List.mem_of_getElem? ho) htarget
    rw [entryAt?_eq hsource id (by simp) (by simp),
      entryAt?_eq hsource id' (by simp) (by simp),
      Context.lookup_eq_lookup_iff hvisible, or_iff_right hids]
    exact ⟨hvisible, Iff.rfl⟩

def countedTwice : Query :=
  .ofQuery (.ofTable Sample.orders
    { aggregations := [⟨.call .count [], none, []⟩] }) {
    breakouts :=
      [⟨.stageColumn "Count" .numeric, none⟩,
        ⟨.stageColumn "Count" .text, none⟩] }

theorem entryAt?_eq_iff_differsInKind_countedTwice :
    countedTwice.validate Sample.catalog = .ok () ∧
      countedTwice.entryAt? Sample.catalog ⟨.breakout, 0⟩
          (.stageColumn "Count" .numeric) =
        countedTwice.entryAt? Sample.catalog ⟨.breakout, 1⟩
          (.stageColumn "Count" .text) := by
  have h : countedTwice.validate Sample.catalog = .ok () := by rfl
  have hbreakouts :=
    (entryAt?_eq_iff_differsInKind h).1 0 1 _ _ (by decide) rfl rfl rfl
  exact ⟨h, hbreakouts.2.mpr ⟨rfl, by decide⟩⟩

theorem not_forall_breakouts_entryAt?_ne :
    ¬ ∀ (c : Catalog) (q : Query), q.validate c = .ok () →
      ∀ (i j : Nat) (b b' : Breakout), i ≠ j → q.stage.breakouts[i]? = some b →
        q.stage.breakouts[j]? = some b' → b.unit = b'.unit →
        q.entryAt? c ⟨.breakout, i⟩ b.column ≠
          q.entryAt? c ⟨.breakout, j⟩ b'.column := by
  intro h
  exact h Sample.catalog countedTwice rfl 0 1 _ _ (by decide) rfl rfl rfl rfl

end Query

end TableQuery
