import TableQuery.Compilation.Clause
import TableQuery.Proofs.Compilation.Typing

/-!
# Clauses that compile are committed

The compiler checks a formula while it is a tree, and the edits of a draft check
the query that the clause becomes part of.  What passes the first check suits
the place that it was compiled for (`Clause.Suits`), and so it passes the second
one as well.
-/

namespace TableQuery

/-! ## What the compiler guarantees -/

/-- A clause for a formula under a name that suits a place which sees the given
context. -/
inductive Clause.Suits (ctx : Context) (name : Option String) :
    FormulaTarget → Clause → Prop
  | aggregation {e : Expression} (h : e.Fits ctx .aggregation) :
      Suits ctx name .aggregation (.aggregation ⟨e, name, []⟩)
  | filter {e : Expression} (h : e.Fits ctx .filter) :
      Suits ctx name .filter (.filter e)
  | customColumn {e : Expression} {text : String} (hname : name = some text)
      (h : e.Fits ctx .customColumn) :
      Suits ctx name .customColumn (.customColumn ⟨Text.trimmed text, e⟩)

theorem Clause.Suits.kind_eq {ctx : Context} {name : Option String}
    {target : FormulaTarget} {clause : Clause}
    (h : clause.Suits ctx name target) : clause.kind = target.clauseKind := by
  cases h <;> rfl

namespace Tree

variable {ctx : Context} {t : Tree} {target : FormulaTarget}
  {name : Option String} {e : Expression} {kind : ValueKind} {clause : Clause}

theorem Reflects.fits_aggregation (h : t.Reflects e)
    (htargets : ∀ id ∈ t.targets, (ctx.lookup id).isSome)
    (hcontains : t.containsAggregate) : e.Fits ctx .aggregation :=
  ⟨h.identifiers ▸ htargets, .inl (h.isAggregating.trans hcontains)⟩

theorem Reflects.fits_row (h : t.Reflects e)
    (htargets : ∀ id ∈ t.targets, (ctx.lookup id).isSome)
    (hcontains : t.containsAggregate = false) {kind : ClauseKind}
    (hkind : kind ≠ .aggregation) : e.Fits ctx kind := by
  -- The tree counts references to aggregations as aggregates, so without any
  -- the expression has neither.
  have hplain := h.isAggregating.trans hcontains
  rw [Expression.isAggregating, Bool.or_eq_false_iff] at hplain
  exact ⟨h.identifiers ▸ htargets, by simpa [hkind] using hplain.1⟩

theorem rejectAggregates_eq_ok_iff {clauses : String} :
    t.rejectAggregates clauses = .ok () ↔ t.containsAggregate = false := by
  cases h : t.containsAggregate <;> simp [rejectAggregates, fault, h]

theorem columnName_eq_ok {text : String} (h : columnName name = .ok text) :
    ∃ written, name = some written ∧ Text.trimmed written = text := by
  unfold columnName at h
  split at h
  case h_1 text' hsome =>
      cases h
      obtain ⟨written, hname, htrimmed⟩ :=
        Option.map_eq_some_iff.mp (Option.filter_eq_some_iff.mp hsome).1
      exact ⟨written, hname, htrimmed⟩
  case h_2 => cases h

theorem clauseFor_aggregation_eq_ok
    (h : t.clauseFor .aggregation name e kind = .ok clause) :
    t.containsAggregate ∧ t.columnOutsideAggregation? = none ∧
      clause = .aggregation ⟨e, name, []⟩ := by
  dsimp only [clauseFor] at h
  split at h
  case isTrue => cases h
  case isFalse hcontains =>
      split at h
      case h_1 => cases h
      case h_2 hinside =>
          cases h
          exact ⟨by simpa using hcontains, hinside, rfl⟩

theorem clauseFor_filter_eq_ok
    (h : t.clauseFor .filter name e kind = .ok clause) :
    t.containsAggregate = false ∧ clause = .filter e := by
  obtain ⟨hcontains, h⟩ := check_bind_eq_ok_iff.mp h
  rw [rejectAggregates_eq_ok_iff] at hcontains
  split at h
  case isTrue =>
      cases h
      exact ⟨hcontains, rfl⟩
  case isFalse => cases h

theorem clauseFor_customColumn_eq_ok
    (h : t.clauseFor .customColumn name e kind = .ok clause) :
    t.containsAggregate = false ∧
      ∃ written, name = some written ∧
      clause = .customColumn ⟨Text.trimmed written, e⟩ := by
  obtain ⟨hcontains, h⟩ := check_bind_eq_ok_iff.mp h
  rw [rejectAggregates_eq_ok_iff] at hcontains
  obtain ⟨text, hname, hclause⟩ := bind_eq_ok_iff.mp h
  obtain ⟨written, hwritten, rfl⟩ := columnName_eq_ok hname
  exact ⟨hcontains, written, hwritten, (pure_eq_ok_iff.mp hclause).symm⟩

theorem suits_of_clauseFor (hreflects : t.Reflects e)
    (htargets : ∀ id ∈ t.targets, (ctx.lookup id).isSome)
    (h : t.clauseFor target name e kind = .ok clause) :
    clause.Suits ctx name target := by
  cases target with
  | aggregation =>
      obtain ⟨hcontains, -, rfl⟩ := clauseFor_aggregation_eq_ok h
      exact .aggregation (hreflects.fits_aggregation htargets hcontains)
  | filter =>
      obtain ⟨hcontains, rfl⟩ := clauseFor_filter_eq_ok h
      exact .filter (hreflects.fits_row htargets hcontains (by simp))
  | customColumn =>
      obtain ⟨hcontains, written, rfl, rfl⟩ := clauseFor_customColumn_eq_ok h
      exact .customColumn rfl (hreflects.fits_row htargets hcontains (by simp))

theorem compile_eq_ok {compiled : CompiledClause}
    (h : t.compile ctx target name = .ok compiled) :
    ∃ e, t.typed ctx = .ok (e, compiled.kind) ∧
      t.clauseFor target name e compiled.kind = .ok compiled.clause ∧
      compiled.displayName = name.getD (e.labelIn ctx) := by
  unfold compile at h
  split at h
  case h_1 => cases h
  case h_2 e kind htyped =>
      split at h
      case h_1 => cases h
      case h_2 clause hclause =>
          cases h
          exact ⟨e, htyped, hclause, rfl⟩

theorem suits_of_compile (htargets : ∀ id ∈ t.targets, (ctx.lookup id).isSome)
    {compiled : CompiledClause} (h : t.compile ctx target name = .ok compiled) :
    compiled.clause.Suits ctx name target := by
  obtain ⟨e, htyped, hclause, -⟩ := compile_eq_ok h
  exact suits_of_clauseFor (reflects_of_typed htyped) htargets hclause

end Tree

namespace Query

variable {c : Catalog} {options : CompileOptions} {q : Query} {source : String}
  {target : FormulaTarget} {name : Option String} {position : ClausePosition}
  {compiled : CompiledClause}

theorem compileAt_eq_ok_iff :
    q.compileAt c options source target name position = .ok compiled ↔
      ∃ ctx parsed resolved, q.contextAt c position = .ok ctx ∧
        Tree.parseWithin options.maxDepth source = .ok parsed ∧
        parsed.resolve ctx options.separators = .ok resolved ∧
        resolved.compile ctx target name = .ok compiled := by
  constructor
  · intro h
    unfold compileAt at h
    split at h
    case h_1 => cases h
    case h_2 ctx hctx =>
        split at h
        case h_1 => cases h
        case h_2 parsed hparsed =>
            split at h
            case h_1 => cases h
            case h_2 resolved hresolved =>
                exact ⟨ctx, parsed, resolved, hctx, hparsed, hresolved,
                  mapError_eq_ok_iff.mp h⟩
  · rintro ⟨ctx, parsed, resolved, hctx, hparsed, hresolved, hcompile⟩
    simp only [compileAt, hctx, hparsed, hresolved,
      mapError_eq_ok_iff.mpr hcompile]

theorem compileAt_eq_ok
    (h : q.compileAt c options source target name position = .ok compiled) :
    ∃ ctx parsed resolved, q.contextAt c position = .ok ctx ∧
      Tree.resolve ctx options.separators parsed = .ok resolved ∧
      resolved.compile ctx target name = .ok compiled := by
  obtain ⟨ctx, parsed, resolved, hctx, -, hresolved, hcompile⟩ :=
    compileAt_eq_ok_iff.mp h
  exact ⟨ctx, parsed, resolved, hctx, hresolved, hcompile⟩

theorem suits_of_compileAt
    (h : q.compileAt c options source target name position = .ok compiled) :
    ∃ ctx, q.contextAt c position = .ok ctx ∧
      compiled.clause.Suits ctx name target := by
  obtain ⟨ctx, parsed, resolved, hctx, hresolved, hcompile⟩ := compileAt_eq_ok h
  exact ⟨ctx, hctx,
    Tree.suits_of_compile (Tree.targets_of_resolve hresolved) hcompile⟩

end Query

/-! ## What the edits accept -/

namespace Stage

variable {source : List Entry} {s : Stage} {target : FormulaTarget}
  {name : Option String} {index : Nat} {clause : Clause}

theorem Consistent.insert (h : s.Consistent source)
    (hsource : ∀ e ∈ source, e.IsSource)
    (hindex : index ≤ s.count target.clauseKind)
    (hfresh : target = .customColumn → ∀ text ∈ name,
      Text.trimmed text ∉ s.customColumns.map CustomColumn.name)
    (hclause : clause.Suits (s.contextAt source ⟨target.clauseKind, index⟩)
      name target) :
    (s.withInserted index clause).Consistent source := by
  cases hclause with
  | aggregation hfits =>
      exact h.insert_aggregation (fun e he => (hsource e he).aggregationIndex?)
        hindex hfits
  | filter hfits => exact h.insert_filter hfits
  | customColumn hname hfits =>
      exact h.insert_customColumn hsource hindex (hfresh rfl _ hname) hfits

theorem clause?_withInserted {ctx : Context}
    (hindex : index ≤ s.count target.clauseKind)
    (hclause : clause.Suits ctx name target) :
    (s.withInserted index clause).clause? ⟨target.clauseKind, index⟩ =
      some clause := by
  rw [← hclause.kind_eq] at hindex ⊢
  exact clause?_withInserted_kind hindex

end Stage

namespace Draft

theorem addFormula_eq_ok_iff {c : Catalog} {options : CompileOptions}
    {d d' : Draft} {source : String} {target : FormulaTarget}
    {name : Option String} {index : Option Nat} :
    d.addFormula c options source target name index = .ok d' ↔
      ∃ compiled, d.query.compileAt c options source target name
          (d.query.positionFor target index) = .ok compiled ∧
        d.insert c (d.query.positionFor target index) compiled.clause =
          .ok d' := by
  rw [addFormula]
  cases d.query.compileAt c options source target name
    (d.query.positionFor target index) with
  | error e => simp
  | ok compiled => simp [mapError_eq_ok_iff]

section

variable {c : Catalog} {options : CompileOptions} {d : Draft} {source : String}
  {target : FormulaTarget} {name : Option String} {index : Option Nat}
  {compiled : CompiledClause}

theorem index_positionFor_le
    (hindex : ∀ i ∈ index, i ≤ d.query.stage.count target.clauseKind) :
    (d.query.positionFor target index).index ≤
      d.query.stage.count target.clauseKind := by
  cases index with
  | none => exact Nat.le_refl _
  | some i => exact hindex i rfl

theorem addFormula_eq_ok_of_compileAt (hvalid : d.query.validate c = .ok ())
    (hindex : ∀ i ∈ index, i ≤ d.query.stage.count target.clauseKind)
    (hfresh : target = .customColumn → ∀ text ∈ name,
      Text.trimmed text ∉ d.query.stage.customColumns.map CustomColumn.name)
    (hcompile : d.query.compileAt c options source target name
      (d.query.positionFor target index) = .ok compiled) :
    d.addFormula c options source target name index =
        .ok ⟨d.query.withStage (d.query.stage.withInserted
          (d.query.positionFor target index).index compiled.clause),
          d.revision + 1⟩ ∧
      (d.query.withStage (d.query.stage.withInserted
        (d.query.positionFor target index).index compiled.clause)).Valid c := by
  -- The compiler looked at the place where the clause goes, in the query as it
  -- still is.
  obtain ⟨ctx, hctx, hsuits⟩ := Query.suits_of_compileAt hcompile
  obtain ⟨entries, hentries, hctx⟩ := bind_eq_ok_iff.mp hctx
  cases hctx
  have hplace := index_positionFor_le hindex
  have hbefore := Query.validate_eq_ok_iff.mp hvalid
  have hstage := (Stage.valid_ok_iff.mp (hentries ▸ hbefore.stage)).insert
    (fun _ => Query.isSource_of_mem_sourceColumns hentries) hplace hfresh hsuits
  have hafter := hbefore.withStage (hentries ▸ Stage.valid_ok_iff.mpr hstage)
  have hinsert := insert_eq_ok_iff.mpr
    ⟨hsuits.kind_eq, hplace, hbefore, commit_eq_ok_iff.mpr ⟨hafter, rfl⟩⟩
  exact ⟨addFormula_eq_ok_iff.mpr ⟨compiled, hcompile, hinsert⟩, hafter⟩

end

/-- What compiles for a place of a valid query can be added there.  The query
stays valid, has the clause at that place, and counts one more change.  Only the
name of a custom column is left to check, because compiling does not ask which
names are taken. -/
theorem addFormula_of_compileAt {c : Catalog} {options : CompileOptions}
    {d : Draft} {source : String} {target : FormulaTarget}
    {name : Option String} {index : Option Nat} {compiled : CompiledClause}
    (hvalid : d.query.validate c = .ok ())
    (hindex : ∀ i ∈ index, i ≤ d.query.stage.count target.clauseKind)
    (hfresh : target = .customColumn → ∀ text ∈ name,
      Text.trimmed text ∉ d.query.stage.customColumns.map CustomColumn.name)
    (hcompile : d.query.compileAt c options source target name
      (d.query.positionFor target index) = .ok compiled) :
    ∃ d', d.addFormula c options source target name index = .ok d' ∧
      d'.query.validate c = .ok () ∧
      d'.query.stage.clause? (d.query.positionFor target index) =
        some compiled.clause ∧
      d'.revision = d.revision + 1 := by
  obtain ⟨hadd, hafter⟩ :=
    addFormula_eq_ok_of_compileAt hvalid hindex hfresh hcompile
  obtain ⟨ctx, -, hsuits⟩ := Query.suits_of_compileAt hcompile
  refine ⟨_, hadd, Query.validate_eq_ok_iff.mpr hafter, ?_, rfl⟩
  rw [Query.stage_withStage]
  exact Stage.clause?_withInserted (index_positionFor_le hindex) hsuits

def sales : Catalog := ⟨[⟨1, "Sales", [⟨10, "Price", none, .numeric, none⟩]⟩]⟩

def salesCounts : Draft where
  query := .ofTable 1 {
    aggregations :=
      [⟨.call .count [], none, []⟩, ⟨.column (.aggregation 0), none, []⟩]
    orderBy := [⟨.desc, .aggregation 1⟩] }
  revision := 0

def salesTotal : CompiledClause where
  clause := .aggregation ⟨.call .sum [.column (.field 10)], none, []⟩
  displayName := "Sum of Price"
  kind := .numeric
  resolved :=
    .call "Sum" [.reference "Price" (some (.field 10)) ⟨4, 11⟩] ⟨0, 12⟩

theorem parseWithin_salesTotal :
    Tree.parseWithin Tree.defaultMaxDepth "Sum([Price])" =
      .ok (.call "Sum" [.reference "Price" none ⟨4, 11⟩] ⟨0, 12⟩) := by
  have hscan : Token.scan "Sum([Price])" =
      .ok [⟨.word "Sum", ⟨0, 3⟩⟩, ⟨.leftParen, ⟨3, 4⟩⟩,
      ⟨.field "Price", ⟨4, 11⟩⟩, ⟨.rightParen, ⟨11, 12⟩⟩] := by decide +kernel
  rw [Tree.parseWithin, hscan]
  rfl

theorem compileAt_salesCounts :
    salesCounts.query.compileAt sales {} "Sum([Price])" .aggregation none
      ⟨.aggregation, 0⟩ = .ok salesTotal := by
  rw [Query.compileAt, parseWithin_salesTotal]
  rfl

theorem addFormula_of_compileAt_salesCounts :
    ∃ d',
      salesCounts.addFormula sales {} "Sum([Price])" .aggregation none
        (some 0) = .ok d' ∧
      d'.query.validate sales = .ok () ∧
      d'.query.stage.clause? ⟨.aggregation, 0⟩ = some salesTotal.clause ∧
      d'.revision = 1 :=
  addFormula_of_compileAt rfl (by simp) (by simp) compileAt_salesCounts

end Draft

end TableQuery
