import TableQuery.Proofs.Compilation.Segments
import TableQuery.Proofs.Query.Visibility

/-!
# Names that lead to their columns

A reference by the qualified name of a column reaches that column, as long as
its segments can be told apart.  A column of a table has the name of the table
in front, which no other name ends with; but a name without a path in front of
it also reaches every column that has one.
-/

namespace TableQuery

/-! ## Paths -/

theorem Entry.IsSource.length_path_le {e : Entry} (h : e.IsSource) :
    e.path.length ≤ 1 := by
  unfold IsSource at h
  split at h
  case h_1 => exact Nat.le_of_eq h
  case h_2 => exact Nat.le_of_eq h
  case h_3 => simp [h.1]
  case h_4 | h_5 => exact h.elim

namespace Stage

theorem length_path_pushColumns {columns : List CustomColumn} {ctx : Context}
    (h : ∀ e ∈ ctx.entries, e.path.length ≤ 1) :
    ∀ e ∈ (pushColumns columns ctx).entries, e.path.length ≤ 1 := by
  induction columns generalizing ctx with
  | nil => exact h
  | cons c columns ih => exact ih (List.forall_mem_append.mpr ⟨h, by simp⟩)

theorem length_path_pushAggregations {aggregations : List Aggregation}
    {index : Nat} {ctx : Context} (h : ∀ e ∈ ctx.entries, e.path.length ≤ 1) :
    ∀ e ∈ (pushAggregations index aggregations ctx).entries,
    e.path.length ≤ 1 := by
  induction aggregations generalizing index ctx with
  | nil => exact h
  | cons a aggregations ih => exact ih (List.forall_mem_append.mpr ⟨h, by simp⟩)

end Stage

theorem Query.length_path_le {c : Catalog} {q : Query}
    {position : ClausePosition} {ctx : Context}
    (h : q.contextAt c position = .ok ctx) :
    ∀ e ∈ ctx.entries, e.path.length ≤ 1 := by
  obtain ⟨entries, hentries, hctx⟩ := bind_eq_ok_iff.mp h
  rw [← pure_eq_ok_iff.mp hctx, Stage.contextAt_eq]
  refine Stage.length_path_pushAggregations
    (Stage.length_path_pushColumns fun e he => ?_)
  exact (Query.isSource_of_mem_sourceColumns hentries he).length_path_le

/-! ## Candidates -/

namespace Context

theorem isNamedBy_iff {e e' : Entry} :
    isNamedBy (e.path ++ [e.name]) e' = true ↔
      e'.name = e.name ∧ e.path <:+ e'.path := by
  simp [isNamedBy]

/-- Where paths have one segment at most, a name with a path in front reaches no
column of another qualified name. -/
theorem qualifiedName_eq_of_isNamedBy {e e' : Entry} (hpath : e.path ≠ [])
    (hlength : e'.path.length ≤ 1)
    (h : isNamedBy (e.path ++ [e.name]) e' = true) :
    e'.qualifiedName = e.qualifiedName := by
  obtain ⟨hname, hsuffix⟩ := isNamedBy_iff.mp h
  have hpos : 0 < e.path.length := List.length_pos_iff.mpr hpath
  have heq : e.path = e'.path := hsuffix.eq_of_length_le (by omega)
  rw [Entry.qualifiedName, Entry.qualifiedName, hname, heq]

theorem candidates_eq_singleton_iff {ctx : Context} {before after : List Entry}
    {e : Entry} (h : ctx.entries = before ++ e :: after) :
    ctx.candidates (e.path ++ [e.name]) = [e] ↔
      ∀ e' ∈ before ++ after, ¬isNamedBy (e.path ++ [e.name]) e' := by
  have hself : isNamedBy (e.path ++ [e.name]) e = true :=
    isNamedBy_iff.mpr ⟨rfl, List.suffix_rfl⟩
  rw [candidates, h, List.filter_append, List.filter_cons_of_pos hself,
    List.forall_mem_append, ← List.filter_eq_nil_iff, ← List.filter_eq_nil_iff]
  constructor
  · intro hsingle
    have hlength := congrArg List.length hsingle
    rw [List.length_append, List.length_cons, List.length_singleton] at hlength
    exact ⟨List.length_eq_zero_iff.mp (by omega),
      List.length_eq_zero_iff.mp (by omega)⟩
  · rintro ⟨hbefore, hafter⟩
    rw [hbefore, hafter, List.nil_append]

end Context

namespace Tree

theorem resolve_reference_iff {ctx : Context} {separators : List String}
    {name : String} {target : Option Identifier} {span : Span}
    {id : Identifier} :
    (reference name target span).resolve ctx separators = .ok
        (reference name (some id) span) ↔
      ∃ e, ctx.candidates (segments separators name) = [e] ∧
      e.identifier = id := by
  rw [resolve, resolveReference]
  split
  case h_1 e he => simp [he]
  case h_2 hnone =>
      rw [hnone]
      split <;> simp
  case h_3 hone _ =>
      simp only [reduceCtorEq, false_iff]
      rintro ⟨e, he, -⟩
      exact hone e he

/-- A column is reached by its qualified name, unless it has no path and another
column has the same name behind a path. -/
theorem resolve_qualifiedName_iff {c : Catalog} {q : Query}
    {position : ClausePosition} {ctx : Context}
    (hctx : q.contextAt c position = .ok ctx) {before after : List Entry}
    {e : Entry} (hentries : ctx.entries = before ++ e :: after)
    (hunique : ∀ e' ∈ before ++ after, e'.qualifiedName ≠ e.qualifiedName)
    (hsegments : ∀ segment ∈ e.path ++ [e.name], IsSegment segment)
    (target : Option Identifier) (span : Span) :
    (reference e.qualifiedName target span).resolve ctx defaultSeparators =
        .ok (reference e.qualifiedName (some e.identifier) span) ↔
      (e.path = [] → ∀ e' ∈ before ++ after, e'.name ≠ e.name) := by
  have hmem : e ∈ ctx.candidates (e.path ++ [e.name]) :=
    List.mem_filter.mpr ⟨by simp [hentries],
      Context.isNamedBy_iff.mpr ⟨rfl, List.suffix_rfl⟩⟩
  have hothers : ∀ e' ∈ before ++ after, e'.path.length ≤ 1 := by
    intro e' he'
    refine Query.length_path_le hctx e' ?_
    rw [hentries]
    rcases List.mem_append.mp he' with h | h <;> simp [h]
  have hcut : segments defaultSeparators e.qualifiedName = e.path ++ [e.name] :=
    segments_intercalate (by simp) hsegments
  rw [resolve_reference_iff, hcut]
  constructor
  · -- Without a path, a column of the same name would be a second candidate.
    rintro ⟨e₁, hsingle, -⟩ hpath e' he' hname
    rw [hsingle, List.mem_singleton] at hmem
    rw [← hmem, Context.candidates_eq_singleton_iff hentries] at hsingle
    exact hsingle e' he'
      (Context.isNamedBy_iff.mpr ⟨hname, hpath ▸ List.nil_suffix⟩)
  · intro hnames
    refine ⟨e, (Context.candidates_eq_singleton_iff hentries).mpr
      fun e' he' hnamed => ?_, rfl⟩
    -- With a path, a second candidate would have the same qualified name.
    by_cases hpath : e.path = []
    · exact hnames hpath e' he' (Context.isNamedBy_iff.mp hnamed).1
    · exact hunique e' he' (Context.qualifiedName_eq_of_isNamedBy hpath
        (hothers e' he') hnamed)

/-! ### A name with and without a path -/

def articles : Catalog :=
  ⟨[⟨1, "Articles", [⟨10, "Price", none, .numeric, none⟩]⟩]⟩

def doublePrices : Query :=
  .ofTable 1 {
    customColumns :=
      [⟨"Price", .binary .mul (.number (Decimal.ofNat 2))
        (.column (.field 10))⟩] }

def priceField : Entry := ⟨"Price", ["Articles"], .field 10, .numeric⟩

def priceColumn : Entry := ⟨"Price", [], .customColumn "Price", .numeric⟩

theorem contextAt_doublePrices :
    doublePrices.contextAt articles ⟨.filter, 0⟩ =
      .ok ⟨[priceField, priceColumn]⟩ := rfl

/-- The bare name of a custom column also reaches the field of that name. -/
theorem not_forall_resolve_qualifiedName :
    ¬ ∀ (c : Catalog) (q : Query) (position : ClausePosition) (ctx : Context)
      (before after : List Entry) (e : Entry), q.validate c = .ok () →
      q.contextAt c position = .ok ctx → ctx.entries = before ++ e :: after →
      (∀ e' ∈ before ++ after, e'.qualifiedName ≠ e.qualifiedName) →
      (∀ segment ∈ e.path ++ [e.name], Text.trimmed segment = segment) →
      ∀ span, (reference e.qualifiedName none span).resolve ctx
          defaultSeparators =
        .ok (reference e.qualifiedName (some e.identifier) span) := by
  intro h
  have hresolve :=
    h articles doublePrices ⟨.filter, 0⟩ _ [priceField] [] priceColumn rfl
      contextAt_doublePrices rfl (by decide) (by decide) ⟨0, 7⟩
  obtain ⟨e, hsingle, -⟩ := resolve_reference_iff.mp hresolve
  have hboth : (Context.candidates ⟨[priceField, priceColumn]⟩
    (segments defaultSeparators priceColumn.qualifiedName)).length =
    2 := by decide
  rw [hsingle] at hboth
  cases hboth

theorem resolve_qualifiedName_priceField :
    (reference "Articles → Price" none ⟨0, 20⟩).resolve
        ⟨[priceField, priceColumn]⟩ defaultSeparators =
      .ok (reference "Articles → Price" (some (.field 10)) ⟨0, 20⟩) := by
  have hiff := @resolve_qualifiedName_iff articles doublePrices ⟨.filter, 0⟩ _
    contextAt_doublePrices [] [priceColumn] priceField rfl (by decide)
    (by decide) none ⟨0, 20⟩
  exact hiff.mpr (by decide)

end Tree

end TableQuery
