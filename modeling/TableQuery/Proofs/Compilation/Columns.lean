import TableQuery.Context.Label
import TableQuery.Proofs.Compilation.Clause
import TableQuery.Proofs.Evaluation.Safety

/-!
# Aggregations as columns

An aggregation is a column twice: an entry that later aggregations see, and a
column of the result.  Each takes its name and its kind from what it sees, and
the two do not see the same.  They agree on an aggregation that reads no other;
one that does is called by the number of what it reads in the result, and by its
name everywhere else.
-/

namespace TableQuery

/-! ## Labels -/

namespace Expression

theorem argLabels_eq_map (ctx : Context) (args : List Expression) :
    argLabels ctx args = args.map (labelIn ctx) := by
  induction args with
  | nil => rfl
  | cons arg args ih => rw [argLabels, ih, List.map_cons]

/-- The label of an expression hangs only on the columns that it reads. -/
theorem labelIn_congr {ctx ctx' : Context} {e : Expression}
    (h : ∀ id ∈ e.identifiers, ctx.lookup id = ctx'.lookup id) :
    e.labelIn ctx = e.labelIn ctx' := by
  induction e using induct with
  | number value => rfl
  | string value => rfl
  | column id =>
      have hid := h id (by simp [identifiers])
      simp only [labelIn, Identifier.labelIn, hid]
  | call function args ih =>
      rw [identifiers, argIdentifiers_eq_flatMap] at h
      have hargs : args.map (labelIn ctx) = args.map (labelIn ctx') :=
        List.map_congr_left fun arg harg => ih arg harg fun id hid =>
          h id (List.mem_flatMap.mpr ⟨arg, harg, hid⟩)
      rw [labelIn, labelIn, argLabels_eq_map, argLabels_eq_map, hargs]
  | binary op left right ihLeft ihRight =>
      rw [identifiers, List.forall_mem_append] at h
      rw [labelIn, labelIn, ihLeft h.1, ihRight h.2]
  | unary op operand ih => rw [labelIn, labelIn, ih h]
  | unrecognized stored => rfl

/-! ## Kinds -/

def kindColumn? : Expression → Option Identifier
  | column id => some id
  | call function (arg :: _) =>
    match function.returns with
    | .firstArgument => kindColumn? arg
    | .kind _ => none
  | _ => none

theorem kindIn_congr_of_kindColumn? {ctx ctx' : Context} {e : Expression}
    (h : ∀ id, e.kindColumn? = some id → ctx.lookup id = ctx'.lookup id) :
    e.kindIn ctx = e.kindIn ctx' := by
  induction e using induct with
  | number value => rfl
  | string value => rfl
  | column id =>
      have hid := h id rfl
      cases id <;> simp [kindIn, Identifier.kindIn, hid]
  | call function args ih =>
      cases args with
      | nil => rfl
      | cons arg args =>
          rw [kindColumn?] at h
          rw [kindIn, kindIn, Function.resultKind, Function.resultKind]
          split
          case h_1 => rfl
          case h_2 hreturns =>
              simp only [hreturns] at h
              exact ih arg List.mem_cons_self h
  | binary op left right _ _ => rfl
  | unary op operand _ => cases op <;> rfl
  | unrecognized stored => rfl

end Expression

/-! ## Entries of aggregations -/

/-- The column that an aggregation is to those who see as much as it does
itself. -/
def Aggregation.entryIn (ctx : Context) (index : Nat) (a : Aggregation) :
    Entry :=
  ⟨a.nameIn ctx, [], .aggregation index, a.expression.kindIn ctx⟩

namespace Stage

theorem pushAggregations_append (before after : List Aggregation) (index : Nat)
    (ctx : Context) :
    pushAggregations index (before ++ after) ctx =
      pushAggregations (index + before.length) after
        (pushAggregations index before ctx) := by
  induction before generalizing index ctx with
  | nil => rfl
  | cons a before ih =>
      rw [List.cons_append, pushAggregations, ih, pushAggregations,
        List.length_cons, Nat.add_right_comm, Nat.add_assoc]

theorem lookup_pushAggregations_of_eq_none {aggregations : List Aggregation}
    {index : Nat} {ctx : Context} {id : Identifier}
    (h : id.aggregationIndex? = none) :
    (pushAggregations index aggregations ctx).lookup id = ctx.lookup id := by
  induction aggregations generalizing index ctx with
  | nil => rfl
  | cons a aggregations ih =>
      have hother : Context.isEntryOf id ⟨a.nameIn ctx, [], .aggregation index,
          a.expression.kindIn ctx⟩ = false := by
        cases id <;> simp_all [Context.isEntryOf, Identifier.aggregationIndex?]
      rw [pushAggregations, ih, Context.lookup_push, hother]
      simp

theorem lookup_pushAggregations_of_eq_some {aggregations : List Aggregation}
    {index : Nat} {ctx : Context} {id : Identifier} {e : Entry}
    (h : ctx.lookup id = some e) :
    (pushAggregations index aggregations ctx).lookup id = some e := by
  induction aggregations generalizing index ctx with
  | nil => exact h
  | cons a aggregations ih =>
      rw [pushAggregations]
      exact ih (by rw [Context.lookup_push, h, Option.some_or])

variable {source : List Entry} {s : Stage} {i : Nat} {a : Aggregation}

theorem lookup_contextAt_aggregation (hsource : SourceEntries source)
    (ha : s.aggregations[i]? = some a) {index : Nat} (hi : i < index) :
    (s.contextAt source ⟨.aggregation, index⟩).lookup (.aggregation i) =
      some (a.entryIn (s.contextAt source ⟨.aggregation, i⟩) i) := by
  obtain ⟨hlt, hget⟩ := List.getElem?_eq_some_iff.mp ha
  have hlength : (s.aggregations.take i).length = i :=
    List.length_take_of_le (Nat.le_of_lt hlt)
  have hi' : i < (s.aggregations.take index).length := by
    rw [List.length_take]
    omega
  obtain ⟨behind, hsplit⟩ :
      ∃ behind, s.aggregations.take index =
        s.aggregations.take i ++ a :: behind := by
    refine ⟨(s.aggregations.take index).drop (i + 1), ?_⟩
    have hparts := List.take_append_drop i (s.aggregations.take index)
    rw [List.take_take, Nat.min_eq_left (Nat.le_of_lt hi),
      List.drop_eq_getElem_cons hi', List.getElem_take, hget] at hparts
    exact hparts.symm
  have hcontext : s.contextAt source ⟨.aggregation, index⟩ =
      pushAggregations (i + 1) behind
        ((s.contextAt source ⟨.aggregation, i⟩).push
        (a.entryIn (s.contextAt source ⟨.aggregation, i⟩) i)) := by
    change pushAggregations 0 (s.aggregations.take index)
        (pushColumns s.customColumns ⟨source⟩) = _
    rw [hsplit, pushAggregations_append, hlength, Nat.zero_add]
    rfl
  -- Nothing before the aggregation has its number, so the entry found is the
  -- one pushed for it.
  have hfresh : (s.contextAt source ⟨.aggregation, i⟩).lookup (.aggregation i) =
      none := by
    rw [← Option.not_isSome_iff_eq_none]
    exact fun hsome =>
      Nat.lt_irrefl i (lt_of_lookup_aggregation hsource hsome).2
  rw [hcontext]
  refine lookup_pushAggregations_of_eq_some ?_
  rw [Context.lookup_push, hfresh]
  simp [Context.isEntryOf, Aggregation.entryIn]

/-! ## Columns of the result -/

theorem getElem?_aggregationColumns (ctx : Context) (index : Nat)
    (aggs : List Aggregation) (i : Nat) :
    (aggregationColumns ctx index aggs)[i]? =
      aggs[i]?.map (·.entryIn ctx (index + i)) := by
  induction aggs generalizing index i with
  | nil => rfl
  | cons a aggs ih =>
      cases i with
      | zero => rfl
      | succ i =>
          rw [aggregationColumns, List.getElem?_cons_succ, ih,
            List.getElem?_cons_succ, Nat.add_right_comm, Nat.add_assoc]

theorem Consistent.getElem?_outputColumns (h : s.Consistent source)
    (ha : s.aggregations[i]? = some a) :
    (s.outputColumns source)[s.breakouts.length + i]? =
      some (a.entryIn (s.context source) i) := by
  have hs : s.isSummarized = true := by
    have hlt := (List.getElem?_eq_some_iff.mp ha).1
    have hne : s.aggregations ≠ [] := List.ne_nil_of_length_pos (by omega)
    simp [isSummarized, hne]
  have hlength := h.length_breakoutColumns
  rw [outputColumns, if_pos hs, List.getElem?_append_right (by omega), hlength,
    Nat.add_sub_cancel_left, getElem?_aggregationColumns, ha]
  simp

theorem lookup_contextAt_of_eq_none {id : Identifier}
    (h : id.aggregationIndex? = none) (index : Nat) :
    (s.contextAt source ⟨.aggregation, index⟩).lookup id =
      (s.context source).lookup id :=
  lookup_pushAggregations_of_eq_none h

theorem nameIn_context (h : a.name ≠ none ∨ a.expression.aggregationRefs = [])
    (index : Nat) :
    a.nameIn (s.context source) =
      a.nameIn (s.contextAt source ⟨.aggregation, index⟩) := by
  rw [Aggregation.nameIn, Aggregation.nameIn]
  rcases h with hname | hrefs
  · obtain ⟨text, htext⟩ := Option.ne_none_iff_exists'.mp hname
    simp [htext]
  · rw [Expression.aggregationRefs_eq_nil_iff] at hrefs
    rw [Expression.labelIn_congr fun id hid =>
      (lookup_contextAt_of_eq_none (hrefs id hid) index).symm]

theorem kindIn_context {e : Expression}
    (h : ∀ j, e.kindColumn? ≠ some (.aggregation j)) (index : Nat) :
    e.kindIn (s.context source) =
      e.kindIn (s.contextAt source ⟨.aggregation, index⟩) := by
  refine Expression.kindIn_congr_of_kindColumn? fun id hid => ?_
  refine (lookup_contextAt_of_eq_none ?_ index).symm
  cases id with
  | aggregation j => exact absurd hid (h j)
  | _ => rfl

end Stage

/-! ## Aggregations of formulas -/

namespace Query

variable {c : Catalog} {q : Query}

theorem displayName_of_compileAt {options : CompileOptions} {text : String}
    {name : Option String} {position : ClausePosition}
    {compiled : CompiledClause}
    (h : q.compileAt c options text .aggregation name position = .ok compiled) :
    ∃ ctx a, q.contextAt c position = .ok ctx ∧
      compiled.clause = .aggregation a ∧
      compiled.displayName = a.nameIn ctx := by
  obtain ⟨ctx, parsed, resolved, hctx, -, hcompile⟩ := compileAt_eq_ok h
  obtain ⟨e, -, hclause, hname⟩ := Tree.compile_eq_ok hcompile
  obtain ⟨-, -, hclause⟩ := Tree.clauseFor_aggregation_eq_ok hclause
  exact ⟨ctx, _, hctx, hclause, hname⟩

theorem Valid.exists_sourceColumns (h : q.Valid c) {i : Nat} {a : Aggregation}
    (ha : q.stage.aggregations[i]? = some a) :
    ∃ entries, q.sourceColumns c = .ok entries ∧
      q.stage.Consistent entries := by
  obtain ⟨entries, hentries, -⟩ :=
    h.stage.clause_ok ⟨.aggregation, i⟩ (.aggregation a)
      (by simp [Stage.clause?, ha])
  exact ⟨entries, hentries, Stage.valid_ok_iff.mp (hentries ▸ h.stage)⟩

end Query

namespace Draft

theorem query_of_insert_aggregation {c : Catalog} {d d' : Draft}
    {a : Aggregation}
    (h : d.insert c ⟨.aggregation, d.query.stage.aggregations.length⟩
      (.aggregation a) = .ok d') :
    d'.query.sourceColumns c = d.query.sourceColumns c ∧
      d'.query.stage.customColumns = d.query.stage.customColumns ∧
      d'.query.stage.aggregations = d.query.stage.aggregations ++ [a] := by
  obtain ⟨-, -, hvalid, hcommit⟩ := insert_eq_ok_iff.mp h
  obtain ⟨-, rfl⟩ := commit_eq_ok_iff.mp hcommit
  have hkept : ∀ b ∈ d.query.stage.aggregations,
      b.renumber (indexAfterInsert d.query.stage.aggregations.length) = b := by
    intro b hb
    obtain ⟨k, hk⟩ := List.mem_iff_getElem?.mp hb
    have hlt := (List.getElem?_eq_some_iff.mp hk).1
    have hrefs : ∀ j ∈ b.expression.aggregationRefs,
        indexAfterInsert d.query.stage.aggregations.length j = j := by
      intro j hj
      have := hvalid.aggregationRefs_lt hk hj
      exact if_neg (by omega)
    rw [Aggregation.renumber, Expression.renumber_eq_self hrefs]
  rw [Query.sourceColumns_withStage, Query.stage_withStage,
    Stage.withInserted_aggregation, List.map_congr_left hkept, List.map_id']
  simp

theorem nameIn_of_addFormula {c : Catalog} {options : CompileOptions}
    {d d' : Draft} {text : String} {name : Option String}
    {compiled : CompiledClause}
    (hcompile : d.query.compile c options text .aggregation name = .ok compiled)
    (hadd : d.addFormula c options text .aggregation name none = .ok d') :
    ∃ entries a, d'.query.sourceColumns c = .ok entries ∧
      d'.query.stage.aggregations[d.query.stage.aggregations.length]? = some a ∧
      a.nameIn (d'.query.stage.contextAt entries
        ⟨.aggregation, d.query.stage.aggregations.length⟩) =
        compiled.displayName := by
  obtain ⟨compiled', hcompile', hinsert⟩ := addFormula_eq_ok_iff.mp hadd
  cases hcompile'.symm.trans hcompile
  obtain ⟨ctx, a, hctx, hclause, hname⟩ :=
    Query.displayName_of_compileAt hcompile
  obtain ⟨entries, hentries, hctx⟩ := bind_eq_ok_iff.mp hctx
  cases hctx
  rw [hclause] at hinsert
  obtain ⟨hsource, hcolumns, haggregations⟩ :=
    query_of_insert_aggregation hinsert
  refine ⟨entries, a, hsource.trans hentries, by simp [haggregations], ?_⟩
  rw [hname]
  simp [Query.positionFor, FormulaTarget.clauseKind, Stage.count,
    Stage.contextAt, hcolumns, haggregations]

end Draft

/-! ## The two columns of an aggregation -/

namespace Query

/-- What later aggregations see of an aggregation, and what result and next
stage show of it.  They have one name if the user gave it or the expression
reads no other aggregation, and one kind unless the kind is that of another
aggregation.  What later aggregations see has the name that the compiler
showed. -/
theorem aggregation_columns {c : Catalog} {q : Query}
    (hvalid : q.validate c = .ok ()) {i : Nat} {a : Aggregation}
    (ha : q.stage.aggregations[i]? = some a) :
    ∃ ctx columns seen shown,
      q.contextForNew c .aggregation = .ok ctx ∧
      ctx.lookup (.aggregation i) = some seen ∧
      q.outputColumns c = .ok columns ∧
      columns[q.stage.breakouts.length + i]? = some shown ∧
      (a.name ≠ none ∨ a.expression.aggregationRefs = [] →
        shown.name = seen.name) ∧
      ((∀ j, a.expression.kindColumn? ≠ some (.aggregation j)) →
        shown.kind = seen.kind) ∧
      (∀ (db : Database) r, db.catalog = c → db.run q = .ok r →
        r.columns[q.stage.breakouts.length + i]? =
          some (shown.name, shown.kind)) ∧
      (∀ stage, (ofQuery q stage).sourceColumns c =
        .ok (columns.map Entry.asStageColumn)) ∧
      ∀ (options : CompileOptions) (d d' : Draft) text name compiled,
        d.query.compile c options text .aggregation name = .ok compiled →
        d.addFormula c options text .aggregation name none = .ok d' →
        d'.query = q → i = d.query.stage.aggregations.length →
        seen.name = compiled.displayName := by
  obtain ⟨entries, hentries, hconsistent⟩ :=
    (validate_eq_ok_iff.mp hvalid).exists_sourceColumns ha
  have hlt := (List.getElem?_eq_some_iff.mp ha).1
  have houtput : q.outputColumns c = .ok (q.stage.outputColumns entries) := by
    simp [outputColumns, hentries]
  have hshown := hconsistent.getElem?_outputColumns ha
  refine ⟨_, _, _, _, by simp [contextForNew, contextAt, hentries, Stage.count],
    Stage.lookup_contextAt_aggregation (sourceEntries_sourceColumns hentries)
      ha hlt, houtput,
    hshown, fun hname => Stage.nameIn_context hname i, fun hkind =>
    Stage.kindIn_context hkind i,
    ?_, ?_, ?_⟩
  · rintro db r rfl hrun
    obtain ⟨rows, -, hstage⟩ := Database.run_eq_ok_iff.mp hrun
    obtain ⟨columns, hcolumns, hresult⟩ :=
      Database.exists_columns_of_runStage hstage
    cases hcolumns.symm.trans houtput
    rw [hresult, List.getElem?_map, hshown]
    rfl
  · intro stage
    rw [sourceColumns]
    simp [hentries]
  · rintro options d d' text name compiled hcompile hadd rfl rfl
    obtain ⟨entries', a', hentries', ha', hname⟩ :=
      Draft.nameIn_of_addFormula hcompile hadd
    cases hentries'.symm.trans hentries
    cases ha'.symm.trans ha
    exact hname

open Draft (sales salesCounts salesTotal)

/-- The number of sales counts its rows, and its second column reads the first:
later aggregations call that one by its name, and the result by its number. -/
theorem not_forall_aggregation_columns :
    ¬ ∀ (c : Catalog) (q : Query) (i : Nat) a, q.validate c = .ok () →
      q.stage.aggregations[i]? = some a →
      ∃ ctx columns seen shown, q.contextForNew c .aggregation = .ok ctx ∧
        ctx.lookup (.aggregation i) = some seen ∧
        q.outputColumns c = .ok columns ∧
        columns[q.stage.breakouts.length + i]? = some shown ∧
        shown.name = seen.name ∧ shown.kind = seen.kind := by
  intro h
  obtain ⟨ctx, columns, seen, shown, hctx, hseen, hcolumns, hshown, hname, -⟩ :=
    h sales salesCounts.query 1 _ rfl rfl
  cases hctx
  cases hcolumns
  cases hseen
  cases hshown
  exact absurd hname (by decide)

def countOfSales : Draft :=
  .ofQuery (.ofTable 1 { aggregations := [⟨.call .count [], none, []⟩] })

def countAndTotal : Query := .ofTable 1 {
  aggregations :=
    [⟨.call .count [], none, []⟩,
      ⟨.call .sum [.column (.field 10)], none, []⟩] }

theorem aggregation_columns_countAndTotal :
    ∃ ctx columns seen shown,
      countAndTotal.contextForNew sales .aggregation = .ok ctx ∧
      ctx.lookup (.aggregation 1) = some seen ∧
      countAndTotal.outputColumns sales = .ok columns ∧
      columns[1]? = some shown ∧ shown.name = seen.name ∧
      shown.kind = seen.kind ∧ seen.name = "Sum of Price" := by
  have hcompile : countOfSales.query.compile sales
      {} "Sum([Price])" .aggregation none = .ok salesTotal := by
    rw [Query.compile, Query.compileAt, Draft.parseWithin_salesTotal]
    rfl
  have hadd : countOfSales.addFormula sales
      {} "Sum([Price])" .aggregation none none = .ok ⟨countAndTotal, 1⟩ :=
    Draft.addFormula_eq_ok_iff.mpr ⟨salesTotal, hcompile, rfl⟩
  obtain ⟨ctx, columns, seen, shown, hctx, hseen, hcolumns, hshown, hname,
      hkind, -, -, hdisplay⟩ :=
    aggregation_columns (c := sales) (q := countAndTotal) (i := 1) rfl rfl
  have hunread : ∀ j, (Expression.call .sum [.column (.field 10)]).kindColumn? ≠
      some (.aggregation j) := fun j h => by cases h
  exact ⟨ctx, columns, seen, shown, hctx, hseen, hcolumns, hshown,
    hname (.inr rfl), hkind hunread, hdisplay _ _ _ _ _ _ hcompile hadd rfl rfl⟩

end Query

end TableQuery
