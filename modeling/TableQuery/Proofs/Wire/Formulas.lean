import TableQuery.Proofs.Compilation.Drafts
import TableQuery.Proofs.Formula.RoundTrip
import TableQuery.Proofs.Wire.Depth

/-!
# Queries built from formulas

A query that starts empty and takes clauses from formulas alone can always be
stored as text.  The text reads back exactly if no expression nests too deep for
the reader, and the parser is no help there: it counts the levels of parentheses
and calls, but a sum may go on at one level.
-/

namespace TableQuery

/-! ## What formulas compile to -/

namespace Tree

variable {ctx : Context} {separators : List String}

theorem recognized_of_typed {t resolved : Tree} {e : Expression}
    {kind : ValueKind} (h : t.resolve ctx separators = .ok resolved)
    (htyped : resolved.typed ctx = .ok (e, kind)) :
    e.Recognized := by
  induction t using induct generalizing resolved e kind with
  | number value span =>
      cases h
      cases htyped
      exact trivial
  | string value span =>
      cases h
      cases htyped
      exact trivial
  | reference name target span =>
      rcases resolveReference_eq_ok_iff.mp h with ⟨entry, -, rfl⟩ |
        ⟨-, function, hshorthand, rfl⟩
      · cases htyped
        exact trivial
      · obtain ⟨found, es, rfl, hname, hargs⟩ := typed_call_eq_ok htyped
        cases hargs
        rw [Function.ofName?_name, Option.some.injEq] at hname
        subst hname
        exact ⟨acceptsArgCount_of_shorthandCall? hshorthand, trivial⟩
  | call name args span ih =>
      rcases resolve_call_eq_ok_iff.mp h with
        ⟨function, args', -, hcount, hargs, -, rfl⟩
      obtain ⟨found, es, rfl, hname, hes⟩ := typed_call_eq_ok htyped
      rw [Function.ofName?_name, Option.some.injEq] at hname
      subst hname
      constructor
      · -- Resolving has counted the arguments, and typing keeps their number.
        rwa [← hes.length_eq, ← hargs.length_eq]
      · apply Expression.argsRecognized_iff.mpr
        intro x hx
        rcases exists_of_mem_forall₂ hes hx with ⟨arg', harg', _, htyped⟩
        rcases exists_of_mem_forall₂ hargs harg' with ⟨arg, harg, hresolve⟩
        exact ih arg harg hresolve htyped
  | binary op left right span ihLeft ihRight =>
      rcases resolve_binary_eq_ok_iff.mp h with
        ⟨left', right', hleft, hright, rfl⟩
      obtain ⟨l, r, rfl, ⟨_, hl⟩, _, hr⟩ := typed_binary_eq_ok htyped
      exact ⟨ihLeft hleft hl, ihRight hright hr⟩
  | unary op operand span ih =>
      rcases resolve_unary_eq_ok_iff.mp h with ⟨operand', hoperand, rfl⟩
      obtain ⟨x, rfl, _, hx⟩ := typed_unary_eq_ok htyped
      have hrecognized : x.Recognized := ih hoperand hx
      exact hrecognized

end Tree

/-! ## Stages made from formulas -/

theorem Expression.Recognized.known {e : Expression} (h : e.Recognized) :
    e.Known := by
  induction e using Expression.induct with
  | number value => exact .number value
  | string value => exact .string value
  | column id => exact .column id
  | call function args ih =>
      exact .call function fun arg harg =>
        ih arg harg (argsRecognized_iff.mp h.2 arg harg)
  | binary op left right ihLeft ihRight =>
      exact .binary op (ihLeft h.1) (ihRight h.2)
  | unary op operand ih => exact .unary op (ih h)
  | unrecognized stored => exact h.elim

theorem Expression.Recognized.renumber {e : Expression} (h : e.Recognized)
    (f : Nat → Nat) : (e.renumber f).Recognized := by
  induction e using Expression.induct with
  | call function args ih =>
      rw [renumber_call]
      refine ⟨by rw [List.length_map]; exact h.1, argsRecognized_iff.mpr ?_⟩
      exact List.forall_mem_map.mpr fun arg harg =>
        ih arg harg (argsRecognized_iff.mp h.2 arg harg)
  | binary op left right ihLeft ihRight => exact ⟨ihLeft h.1, ihRight h.2⟩
  | unary op operand ih =>
      have hoperand : (operand.renumber f).Recognized := ih h
      exact hoperand
  | column id => exact trivial
  | _ => exact h

def Clause.FromFormula : Clause → Prop
  | .customColumn c => c.expression.Recognized
  | .filter predicate => predicate.Recognized
  | .aggregation a => a.expression.Recognized ∧ a.options = []
  | .breakout _ | .orderBy _ => False

theorem Query.fromFormula_of_compileAt {c : Catalog} {options : CompileOptions}
    {q : Query} {text : String} {target : FormulaTarget} {name : Option String}
    {position : ClausePosition} {compiled : CompiledClause}
    (h : q.compileAt c options text target name position = .ok compiled) :
    compiled.clause.FromFormula := by
  obtain ⟨ctx, parsed, resolved, -, hresolved, hcompile⟩ := compileAt_eq_ok h
  obtain ⟨e, htyped, hclause, -⟩ := Tree.compile_eq_ok hcompile
  have hrecognized := Tree.recognized_of_typed hresolved htyped
  cases target with
  | aggregation =>
      rw [(Tree.clauseFor_aggregation_eq_ok hclause).2.2]
      exact ⟨hrecognized, rfl⟩
  | filter =>
      rw [(Tree.clauseFor_filter_eq_ok hclause).2]
      exact hrecognized
  | customColumn =>
      obtain ⟨-, _, -, hclause⟩ := Tree.clauseFor_customColumn_eq_ok hclause
      rw [hclause]
      exact hrecognized

structure Stage.FromFormulas (s : Stage) : Prop where
  customColumn : ∀ c ∈ s.customColumns, c.expression.Recognized
  filter : ∀ predicate ∈ s.filters, predicate.Recognized
  aggregation : ∀ a ∈ s.aggregations, a.expression.Recognized ∧ a.options = []
  breakouts : s.breakouts = []
  orderBy : s.orderBy = []
  limit : s.limit = none
  extra : s.extra = []

namespace Stage.FromFormulas

variable {s : Stage}

theorem recognized (h : s.FromFormulas) :
    ∀ e ∈ s.expressions, e.Recognized := by
  rw [expressions, List.forall_mem_append, List.forall_mem_append,
    List.forall_mem_map, List.forall_mem_map]
  exact ⟨⟨h.customColumn, h.filter⟩, fun a ha => (h.aggregation a ha).1⟩

theorem withInserted (h : s.FromFormulas) (index : Nat) {clause : Clause}
    (hclause : clause.FromFormula) :
    (s.withInserted index clause).FromFormulas := by
  cases clause with
  | customColumn c =>
      refine ⟨fun c' hc' => ?_, h.filter, h.aggregation, h.breakouts, h.orderBy,
        h.limit, h.extra⟩
      obtain rfl | hmem := List.eq_or_mem_of_mem_insertIdx hc'
      · exact hclause
      · exact h.customColumn c' hmem
  | filter predicate =>
      refine ⟨h.customColumn, fun f hf => ?_, h.aggregation, h.breakouts,
        h.orderBy, h.limit, h.extra⟩
      obtain rfl | hmem := List.eq_or_mem_of_mem_insertIdx hf
      · exact hclause
      · exact h.filter f hmem
  | aggregation a =>
      rw [withInserted_aggregation]
      refine ⟨h.customColumn, h.filter, fun a' ha' => ?_, h.breakouts, ?_,
        h.limit, h.extra⟩
      · obtain rfl | hmem := List.eq_or_mem_of_mem_insertIdx ha'
        · exact hclause
        · obtain ⟨old, hold, rfl⟩ := List.mem_map.mp hmem
          obtain ⟨hrecognized, hoptions⟩ := h.aggregation old hold
          exact ⟨hrecognized.renumber _, hoptions⟩
      · have hkept : s.keptSorts = [] := by simp [keptSorts, h.orderBy]
        simp [hkept]
  | breakout b => exact hclause.elim
  | orderBy o => exact hclause.elim

end Stage.FromFormulas

/-! ## Their stored form -/

/-- Whether no expression nests too deep in the stored form.  Around it stand
the list or object of its clauses and the object of the query, and around a
named aggregation its options as well. -/
structure Stage.Shallow (s : Stage) : Prop where
  expression : ∀ e ∈ s.expressions, e.storedDepth + 2 < Json.depthLimit
  named : ∀ a ∈ s.aggregations, a.name ≠ none →
    a.expression.storedDepth + 3 < Json.depthLimit

theorem Stage.Readable.told {s : Stage} (h : s.Readable)
    (hknown : ∀ e ∈ s.expressions, e.Known) : s.Told where
  known := hknown
  options := h.options
  optionsApart := fun a ha => (h.optionsApart a ha).1
  breakouts := h.breakouts
  targets := h.targets
  names_nodup := h.names_nodup
  extraApart := h.extraApart

namespace Stage.FromFormulas

variable {s : Stage}

theorem storable (h : s.FromFormulas) : s.Storable where
  recognized := h.recognized
  optionsApart := fun a ha => by
    simp [Aggregation.OptionsApart, (h.aggregation a ha).2, Json.Members.keys,
      Json.Members.get?]

theorem fits (h : s.FromFormulas)
    (hids : ∀ e ∈ s.expressions, ∀ id ∈ e.identifiers, id.Fits) : s.Fits where
  identifiers := hids
  breakouts := by simp [h.breakouts]
  targets := by simp [h.orderBy]
  limit := by simp [h.limit]
  options := fun a ha => by
    rw [(h.aggregation a ha).2]
    exact ⟨List.nodup_nil, trivial⟩
  extra := by
    rw [h.extra]
    exact ⟨List.nodup_nil, trivial⟩
  extra_unknown := by simp [h.extra, Json.Members.keys]

theorem proper (h : s.FromFormulas) (p : String → Prop) : s.Proper p where
  options := fun a ha => by
    rw [(h.aggregation a ha).2]
    exact .object List.nodup_nil (List.forall_mem_nil _)
  extra := by
    rw [h.extra]
    exact .object List.nodup_nil (List.forall_mem_nil _)

theorem nesting_queryMembers_le_iff (h : s.FromFormulas)
    (hnames : (s.customColumns.map CustomColumn.name).Nodup) (table : TableId)
    {n : Nat} (hn : 0 < n) :
    (Json.object
      (Wire.queryMembers ("source-table", .ofNat table) s [])).nesting ≤ n + 3 ↔
      (∀ e ∈ s.expressions, e.storedDepth ≤ n + 1) ∧
        ∀ a ∈ s.aggregations, a.name ≠ none → a.expression.storedDepth ≤ n := by
  have hsource : (Json.ofNat table).nesting ≤ n + 2 := Nat.zero_le _
  have haggregation : ∀ a ∈ s.aggregations,
      (Wire.aggregationToJson a).nesting ≤ n + 1 ↔
      a.expression.storedDepth ≤ n + 1 ∧
      (a.name ≠ none → a.expression.storedDepth ≤ n) :=
    fun a ha => Wire.nesting_aggregationToJson_le_iff (h.aggregation a ha).2 hn
  have hempty : ∀ key, Wire.listMember key [] = [] := fun _ => rfl
  have hlimit : Wire.limitMember none = [] := rfl
  rw [Json.nesting, Nat.add_le_add_iff_right, Json.membersNesting_le_iff,
    Wire.queryMembers, Wire.clauseMembers, h.breakouts, h.limit, h.extra,
    List.map_nil, hempty, hempty, hlimit]
  simp only [List.append_nil, List.forall_mem_cons, List.forall_mem_append,
    hsource, true_and, Wire.nesting_expressionsMember_le_iff hnames,
    Wire.nesting_listMember_le_iff, List.forall_mem_map,
    Wire.nesting_expressionToJson, expressions]
  rw [forall₂_congr haggregation, forall₂_and]
  simp only [and_assoc]

theorem shallow_iff (h : s.FromFormulas)
    (hnames : (s.customColumns.map CustomColumn.name).Nodup) (table : TableId) :
    s.Shallow ↔ (Json.object
      (Wire.queryMembers ("source-table", .ofNat table) s [])).nesting <
      Json.depthLimit := by
  have hlimit : Json.depthLimit = 124 + 3 + 1 := rfl
  have hplain : ∀ n, n + 2 < Json.depthLimit ↔ n ≤ 124 + 1 := fun n => by omega
  have hkept : ∀ n, n + 3 < Json.depthLimit ↔ n ≤ 124 := fun n => by omega
  rw [hlimit, Nat.lt_succ_iff,
    h.nesting_queryMembers_le_iff hnames table (by decide)]
  constructor
  · rintro ⟨hexpression, hnamed⟩
    exact ⟨fun e he => (hplain _).mp (hexpression e he),
      fun a ha hname => (hkept _).mp (hnamed a ha hname)⟩
  · rintro ⟨hexpression, hnamed⟩
    exact ⟨fun e he => (hplain _).mpr (hexpression e he),
      fun a ha hname => (hkept _).mpr (hnamed a ha hname)⟩

end Stage.FromFormulas

theorem Wire.queryOfText_of_fromFormulas {table : TableId} {s : Stage}
    (h : s.FromFormulas) {c : Catalog} (hvalid : s.Valid (c.tableEntries table))
    (htable : table < Word.size64)
    (hids : ∀ e ∈ s.expressions, ∀ id ∈ e.identifiers, id.Fits) :
    ∃ text, queryToText (.ofTable table s) = .ok text ∧
      (s.Shallow → ∃ q, queryOfText text = .ok q ∧
        q.same (.ofTable table s) = true) ∧
      (¬s.Shallow → queryOfText text = .error .json) := by
  have hreadable : s.Readable :=
    h.storable.readable hvalid (fun _ => Catalog.sourceEntries_tableEntries)
      (h.fits hids)
  have hstages : ∀ t ∈ (Query.ofTable table s).stages, t.Readable :=
    List.forall_mem_singleton.mpr hreadable
  have horderBy : orderByItems s.breakouts 0 s.orderBy = .ok [] := by
    rw [h.orderBy]
    rfl
  have hj : queryToJson (.ofTable table s) =
      .ok (.object (queryMembers ("source-table", .ofNat table) s [])) :=
    (queryToJson_ofTable_eq_ok_iff hreadable.extraApart).mpr ⟨[], horderBy, rfl⟩
  have htold : ∀ t ∈ (Query.ofTable table s).stages, t.Told :=
    List.forall_mem_singleton.mpr (hreadable.told fun e he =>
      (h.recognized e he).known)
  have hproper : ∀ t ∈ (Query.ofTable table s).stages,
      t.Proper Json.ReadableNumber :=
    List.forall_mem_singleton.mpr (h.proper Json.ReadableNumber)
  have hparse := Json.parse?_pretty
    (proper_queryToJson Json.numberForm_readableNumber htold hproper hj)
  have hnesting := h.shallow_iff hvalid.names_nodup table
  refine ⟨_, by rw [queryToText, hj]; rfl, fun hshallow => ?_, fun hdeep => ?_⟩
  · have hread := queryOfJson_of_queryToJson hstages
      (List.forall_mem_singleton.mpr h.storable.unmistakable) htable hj
    refine ⟨_, ?_, Query.same_reread hstages⟩
    rw [queryOfText, hparse, if_pos (hnesting.mp hshallow)]
    exact hread
  · rw [queryOfText, hparse, if_neg (mt hnesting.mpr hdeep)]

/-! ## Drafts made from formulas -/

namespace Draft

/-- A draft over a table that was built from nothing by adding formulas.  The
catalog may change on the way. -/
inductive Formulated (table : TableId) : Draft → Prop
  | empty : Formulated table ⟨.table table, 0⟩
  | addFormula {d d' : Draft} {c : Catalog} {text : String}
      {target : FormulaTarget} {name : Option String} {index : Option Nat}
      (h : Formulated table d)
      (hedit : d.addFormula c {} text target name index = .ok d') :
      Formulated table d'

theorem Formulated.exists_stage {table : TableId} {d : Draft}
    (h : d.Formulated table) :
    ∃ (s : Stage) (c : Catalog), d.query = .ofTable table s ∧ s.FromFormulas ∧
      s.Valid (c.tableEntries table) := by
  induction h with
  | empty =>
      exact ⟨{}, ⟨[]⟩, rfl, ⟨by simp, by simp, by simp, rfl, rfl, rfl, rfl⟩,
        Stage.check_eq_ok_iff.mp rfl⟩
  | @addFormula d d' c text target name index _ hedit ih =>
      obtain ⟨s, -, hquery, hs, -⟩ := ih
      obtain ⟨compiled, hcompile, hinsert⟩ := addFormula_eq_ok_iff.mp hedit
      obtain ⟨-, -, -, hcommit⟩ := insert_eq_ok_iff.mp hinsert
      obtain ⟨hvalid, rfl⟩ := commit_eq_ok_iff.mp hcommit
      rw [hquery] at hvalid ⊢
      -- The whole stage was checked against the catalog of this step.
      exact ⟨_, c, rfl,
        hs.withInserted _ (Query.fromFormula_of_compileAt hcompile), hvalid⟩

end Draft

/-! ## Sums of many ones -/

namespace Tree

def onesAdded : Nat → Tree
  | 0 => number .one ⟨0, 0⟩
  | n + 1 => binary .add (onesAdded n) (number .one ⟨0, 0⟩) ⟨0, 0⟩

end Tree

namespace Expression

def onesAdded : Nat → Expression
  | 0 => number .one
  | n + 1 => binary .add (onesAdded n) (number .one)

theorem storedDepth_onesAdded (n : Nat) : (onesAdded n).storedDepth = n := by
  induction n with
  | zero => rfl
  | succ n ih =>
      have hchain : (onesAdded n).isChainOf .add = false := by cases n <;> rfl
      rw [onesAdded, storedDepth, hchain, if_neg Bool.false_ne_true, ih,
        storedDepth, Nat.max_zero]

theorem identifiers_onesAdded (n : Nat) : (onesAdded n).identifiers = [] := by
  induction n with
  | zero => rfl
  | succ n ih => rw [onesAdded, identifiers, ih]; rfl

end Expression

namespace Tree

theorem writable_onesAdded (n : Nat) : (onesAdded n).Writable := by
  induction n with
  | zero => exact rfl
  | succ n ih => exact ⟨ih, rfl⟩

theorem unresolved_onesAdded (n : Nat) :
    (onesAdded n).unresolved = onesAdded n := by
  induction n with
  | zero => rfl
  | succ n ih => rw [onesAdded, unresolved, ih, unresolved]

theorem levels_onesAdded_le (n : Nat) : (onesAdded n).levels ≤ 2 := by
  induction n with
  | zero => decide
  | succ n ih =>
      have hparens : needsParens (onesAdded n).precedence .add .left =
          false := by
        cases n <;> rfl
      rw [onesAdded, levels, hparens]
      exact Nat.max_le.mpr ⟨ih, Nat.le_refl 2⟩

theorem exists_of_withoutSpans_binary {op : BinaryOp} {left right t : Tree}
    {span : Span}
    (h : t.withoutSpans = (binary op left right span).withoutSpans) :
    ∃ left' right' span', t = binary op left' right' span' ∧
      left'.withoutSpans = left.withoutSpans ∧
      right'.withoutSpans = right.withoutSpans := by
  cases t <;> simp_all [withoutSpans]

theorem exists_of_withoutSpans_number {value : Decimal} {t : Tree} {span : Span}
    (h : t.withoutSpans = (number value span).withoutSpans) :
    ∃ span', t = number value span' := by
  cases t <;> simp_all [withoutSpans]

theorem typed_onesAdded (ctx : Context) (separators : List String)
    {n : Nat} {t : Tree} (h : t.withoutSpans = (onesAdded n).withoutSpans) :
    t.resolve ctx separators = .ok t ∧
      t.typed ctx = .ok (Expression.onesAdded n, .numeric) ∧
      t.containsAggregate = false := by
  induction n generalizing t with
  | zero =>
      obtain ⟨span, rfl⟩ := exists_of_withoutSpans_number h
      exact ⟨rfl, rfl, rfl⟩
  | succ n ih =>
      obtain ⟨left, right, span, rfl, hleft, hright⟩ :=
        exists_of_withoutSpans_binary h
      obtain ⟨span', rfl⟩ := exists_of_withoutSpans_number hright
      obtain ⟨hresolve, htyped, hplain⟩ := ih hleft
      refine ⟨?_, ?_, ?_⟩
      · rw [resolve, hresolve]
        rfl
      · rw [typed, htyped]
        rfl
      · rw [containsAggregate, hplain]
        rfl

end Tree

namespace Draft

def onesAdded (n : Nat) : Draft :=
  ⟨.ofTable 1 { customColumns := [⟨"Ones", .onesAdded n⟩] }, 1⟩

theorem exists_compileAt_onesAdded (n : Nat) :
    ∃ compiled, (Query.table 1).compileAt sales {}
      (Tree.onesAdded n).render .customColumn
        (some "Ones") ⟨.customColumn, 0⟩ = .ok compiled ∧
      compiled.clause = .customColumn ⟨"Ones", .onesAdded n⟩ := by
  have hlevels : (Tree.onesAdded n).levels ≤ Tree.defaultMaxDepth :=
    Nat.le_trans (Tree.levels_onesAdded_le n) (by decide)
  obtain ⟨parsed, hparse, hsame⟩ :=
    Tree.parseWithin_render (Tree.writable_onesAdded n) hlevels
  rw [Tree.unresolved_onesAdded] at hsame
  obtain ⟨ctx, hctx⟩ :
      ∃ ctx, (Query.table 1).contextAt sales ⟨.customColumn, 0⟩ = .ok ctx :=
      ⟨_, rfl⟩
  obtain ⟨hresolve, htyped, hplain⟩ :=
    Tree.typed_onesAdded ctx defaultSeparators hsame
  have hname : Tree.columnName (some "Ones") = .ok "Ones" := rfl
  have hclause : parsed.clauseFor .customColumn (some "Ones")
      (.onesAdded n) .numeric = .ok (.customColumn ⟨"Ones", .onesAdded n⟩) := by
    rw [Tree.clauseFor, Tree.rejectAggregates_eq_ok_iff.mpr hplain, hname]
    rfl
  rw [Query.compileAt, hctx]
  dsimp only
  rw [hparse]
  dsimp only
  rw [hresolve]
  dsimp only
  rw [Tree.compile, htyped]
  dsimp only
  rw [hclause]
  exact ⟨_, rfl, rfl⟩

theorem formulated_onesAdded (n : Nat) : (onesAdded n).Formulated 1 := by
  obtain ⟨compiled, hcompile, hclause⟩ := exists_compileAt_onesAdded n
  have hvalid : (Query.table 1).validate sales = .ok () := rfl
  have hadd :=
    (@addFormula_eq_ok_of_compileAt sales {} ⟨.table 1, 0⟩ _ .customColumn
    (some "Ones") none compiled hvalid (by simp)
    (by simp [Query.table, Query.stage]) hcompile).1
  rw [hclause] at hadd
  exact .addFormula .empty hadd

theorem fits_onesAdded (n : Nat) :
    ∀ e ∈ (onesAdded n).query.stage.expressions, ∀ id ∈ e.identifiers,
    id.Fits := by
  simp [onesAdded, Query.stage, Stage.expressions,
    Expression.identifiers_onesAdded]

theorem shallow_onesAdded_iff (n : Nat) :
    (onesAdded n).query.stage.Shallow ↔ n < 126 := by
  have hlimit : Json.depthLimit = 128 := rfl
  constructor
  · rintro ⟨hexpression, -⟩
    have hdepth := hexpression (.onesAdded n) List.mem_cons_self
    rw [Expression.storedDepth_onesAdded] at hdepth
    omega
  · intro hn
    refine ⟨fun e he => ?_, fun a ha => absurd ha List.not_mem_nil⟩
    obtain rfl := List.mem_singleton.mp he
    rw [Expression.storedDepth_onesAdded]
    omega

theorem queryOfText_onesAdded (n : Nat) :
    ∃ text, Wire.queryToText (onesAdded n).query = .ok text ∧
      (n < 126 → ∃ q, Wire.queryOfText text = .ok q ∧
        q.same (onesAdded n).query = true) ∧
      (126 ≤ n → Wire.queryOfText text = .error .json) := by
  obtain ⟨s, c, hquery, hs, hvalid⟩ := (formulated_onesAdded n).exists_stage
  cases hquery
  obtain ⟨text, htext, hread, hrefused⟩ :=
    Wire.queryOfText_of_fromFormulas hs hvalid (by decide) (fits_onesAdded n)
  have hshallow := shallow_onesAdded_iff n
  exact ⟨text, htext, fun hn => hread (hshallow.mpr hn),
    fun hn => hrefused (mt hshallow.mp (Nat.not_lt.mpr hn))⟩

/-! ## Reloads -/

/-- A query built from formulas alone can be stored as text, however it was
built.  The text reads back as the query if its expressions are shallow, and
otherwise it is refused as no document. -/
theorem queryOfText_queryToText_of_formulated {table : TableId} {d : Draft}
    (h : d.Formulated table) (htable : table < Word.size64)
    (hids : ∀ e ∈ d.query.stage.expressions, ∀ id ∈ e.identifiers, id.Fits) :
    ∃ text, Wire.queryToText d.query = .ok text ∧
      (d.query.stage.Shallow → ∃ q, Wire.queryOfText text = .ok q ∧
        q.same d.query = true) ∧
      (¬d.query.stage.Shallow → Wire.queryOfText text = .error .json) := by
  obtain ⟨s, c, hquery, hs, hvalid⟩ := h.exists_stage
  rw [hquery] at hids ⊢
  exact Wire.queryOfText_of_fromFormulas hs hvalid htable hids

theorem queryOfText_queryToText_of_formulated_onesAdded :
    (onesAdded 2).Formulated 1 ∧ (onesAdded 2).query.stage.Shallow ∧
      ∃ text, Wire.queryToText (onesAdded 2).query = .ok text ∧
        ((onesAdded 2).query.stage.Shallow →
          ∃ q, Wire.queryOfText text = .ok q ∧
          q.same (onesAdded 2).query = true) ∧
        (¬(onesAdded 2).query.stage.Shallow →
          Wire.queryOfText text = .error .json) :=
  ⟨formulated_onesAdded 2, (shallow_onesAdded_iff 2).mpr (by decide),
    queryOfText_queryToText_of_formulated (formulated_onesAdded 2) (by decide)
      (fits_onesAdded 2)⟩

/-- A sum of 127 ones nests too deep. -/
theorem not_forall_queryOfText_queryToText_of_formulated :
    ¬∀ (table : TableId) (d : Draft), d.Formulated table → table < Word.size64 →
      (∀ e ∈ d.query.stage.expressions, ∀ id ∈ e.identifiers, id.Fits) →
      ∃ text q, Wire.queryToText d.query = .ok text ∧
        Wire.queryOfText text = .ok q ∧ q.same d.query = true := by
  intro h
  obtain ⟨text, q, htext, hq, -⟩ :=
    h 1 (onesAdded 126) (formulated_onesAdded 126) (by decide)
      (fits_onesAdded 126)
  obtain ⟨text', htext', -, hrefused⟩ := queryOfText_onesAdded 126
  cases htext.symm.trans htext'
  cases hq.symm.trans (hrefused (by decide))

end Draft

end TableQuery
