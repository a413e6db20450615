import TableQuery.Proofs.Compilation.Evaluable
import TableQuery.Proofs.Formula.RoundTrip

/-!
# Canonical formulas

A formula written out again, as it was read or with its names resolved, compiles
to the same clause.  What a tree compiles to does not depend on its spans, and
resolving a resolved tree changes nothing.
-/

namespace TableQuery

theorem Function.isName_name (f : Function) : Token.IsName f.name := by
  have hall : ∀ f ∈ all, Token.IsName f.name := by
    unfold Token.IsName
    decide +kernel
  apply hall
  cases f <;> decide

namespace Tree

variable {ctx : Context} {separators : List String} {target : FormulaTarget}
  {name : Option String}

/-! ## Spans do not matter -/

@[simp] theorem containsAggregate_withoutSpans (t : Tree) :
    t.withoutSpans.containsAggregate = t.containsAggregate := by
  induction t using induct with
  | number value span => rfl
  | string value span => rfl
  | reference name target span => rfl
  | call function args span ih =>
      have hany : (args.map withoutSpans).any containsAggregate =
          args.any containsAggregate := by
        rw [List.any_map, Bool.eq_iff_iff, List.any_eq_true, List.any_eq_true]
        exact exists_congr fun arg => and_congr_right fun harg =>
          by simp [ih arg harg]
      simp only [withoutSpans, containsAggregate, argsWithoutSpans_eq_map,
        anyContainsAggregate_eq_any, hany]
  | binary op left right span ihLeft ihRight =>
      simp [withoutSpans, containsAggregate, ihLeft, ihRight]
  | unary op operand span ih => simp [withoutSpans, containsAggregate, ih]

theorem columnOutsideAggregation?_withoutSpans (t : Tree) :
    t.withoutSpans.columnOutsideAggregation? = none ↔
      t.columnOutsideAggregation? = none := by
  induction t using induct with
  | number value span => rfl
  | string value span => rfl
  | reference name target span => simp [withoutSpans, columnOutsideAggregation?]
  | call function args span ih =>
      simp only [withoutSpans, columnOutsideAggregation?,
        argsWithoutSpans_eq_map]
      split
      · rfl
      · simp only [argColumnOutsideAggregation?_eq_none_iff,
          List.forall_mem_map]
        exact forall₂_congr ih
  | binary op left right span ihLeft ihRight =>
      simp [withoutSpans, columnOutsideAggregation?, ihLeft, ihRight]
  | unary op operand span ih =>
      simp [withoutSpans, columnOutsideAggregation?, ih]

def ResolvesAlike (ctx : Context) (separators : List String)
    (t t' : Tree) : Prop :=
  Agree (fun r r' => r' = r.withoutSpans) (t.resolve ctx separators)
    (t'.resolve ctx separators)

theorem agree_resolveArgs {args : List Tree}
    (h : ∀ arg ∈ args, ResolvesAlike ctx separators arg arg.withoutSpans) :
    Agree (fun rs rs' => rs' = rs.map withoutSpans)
      (resolveArgs ctx separators args)
      (resolveArgs ctx separators (args.map withoutSpans)) := by
  induction args with
  | nil => exact .ok rfl
  | cons arg args ih =>
      rw [List.map_cons, resolveArgs, resolveArgs]
      rcases (h arg List.mem_cons_self).cases with ⟨r, _, hr, hr', rfl⟩ |
        ⟨e, e', he, he'⟩
      · rw [hr, hr']
        rcases (ih fun a ha => h a (List.mem_cons_of_mem arg ha)).cases with
          ⟨rs, _, hrs, hrs', rfl⟩ | ⟨e, e', he, he'⟩
        · rw [hrs, hrs']
          exact .ok rfl
        · rw [he, he']
          exact .error e e'
      · rw [he, he']
        exact .error e e'

theorem resolvesAlike_reference (name : String) (span : Span) :
    Agree (fun r r' => r' = r.withoutSpans)
      (resolveReference ctx separators name span)
      (resolveReference ctx separators name ⟨0, 0⟩) := by
  unfold resolveReference
  dsimp only
  split
  case h_1 => exact .ok rfl
  case h_2 =>
      split
      case h_1 => exact .ok rfl
      case h_2 => exact .error _ _
  case h_3 => exact .error _ _

theorem resolvesAlike_withoutSpans (t : Tree) :
    ResolvesAlike ctx separators t t.withoutSpans := by
  induction t using induct with
  | number value span => exact .ok rfl
  | string value span => exact .ok rfl
  | reference name target span => exact resolvesAlike_reference name span
  | call function args span ih =>
      have hargs := agree_resolveArgs ih
      simp only [ResolvesAlike, withoutSpans, resolve, argsWithoutSpans_eq_map,
        List.length_map]
      split
      case h_1 => exact .error _ _
      case h_2 f _ =>
          split
          case isTrue => exact .error _ _
          case isFalse =>
              rcases hargs.cases with ⟨rs, _, hrs, hrs', rfl⟩ | ⟨e, e', he, he'⟩
              · have hfind : (rs.map withoutSpans).find? containsAggregate =
                    (rs.find? containsAggregate).map withoutSpans := by
                  rw [List.find?_map]
                  congr 2
                  funext r
                  exact containsAggregate_withoutSpans r
                rw [hrs, hrs']
                simp only [hfind]
                cases f.isAggregate with
                | false =>
                    exact .ok (by simp [withoutSpans, argsWithoutSpans_eq_map])
                | true =>
                    cases rs.find? containsAggregate with
                    | none =>
                        exact .ok (by
                          simp [withoutSpans, argsWithoutSpans_eq_map])
                    | some inner => exact .error _ _
              · rw [he, he']
                exact .error e e'
  | binary op left right span ihLeft ihRight =>
      simp only [ResolvesAlike, withoutSpans, resolve]
      rcases ihLeft.cases with ⟨l, _, hl, hl', rfl⟩ | ⟨e, e', he, he'⟩
      · rw [hl, hl']
        rcases ihRight.cases with ⟨r, _, hr, hr', rfl⟩ | ⟨e, e', he, he'⟩
        · rw [hr, hr']
          exact .ok rfl
        · rw [he, he']
          exact .error e e'
      · rw [he, he']
        exact .error e e'
  | unary op operand span ih =>
      simp only [ResolvesAlike, withoutSpans, resolve]
      rcases ih.cases with ⟨r, _, hr, hr', rfl⟩ | ⟨e, e', he, he'⟩
      · rw [hr, hr']
        exact .ok rfl
      · rw [he, he']
        exact .error e e'

theorem agree_typedArgs {function : Function} {args : List Tree}
    (h : ∀ arg ∈ args, Agree Eq (arg.typed ctx) (arg.withoutSpans.typed ctx))
    (index : Nat) :
    Agree Eq (typedArgs ctx function index args)
      (typedArgs ctx function index (args.map withoutSpans)) := by
  induction args generalizing index with
  | nil => exact .ok rfl
  | cons arg args ih =>
      rw [List.map_cons, typedArgs, typedArgs]
      rcases (h arg List.mem_cons_self).cases with ⟨x, _, hx, hx', rfl⟩ |
        ⟨e, e', he, he'⟩
      · rw [hx, hx']
        dsimp only
        split
        case isTrue => exact .error _ _
        case isFalse =>
            rcases (ih (fun a ha => h a (List.mem_cons_of_mem arg ha))
              (index + 1)).cases with
              ⟨xs, _, hxs, hxs', rfl⟩ | ⟨e, e', he, he'⟩
            · rw [hxs, hxs']
              exact .ok rfl
            · rw [he, he']
              exact .error e e'
      · rw [he, he']
        exact .error e e'

theorem agree_typed_withoutSpans (t : Tree) :
    Agree Eq (t.typed ctx) (t.withoutSpans.typed ctx) := by
  induction t using induct with
  | number value span => exact .ok rfl
  | string value span => exact .ok rfl
  | reference name target span =>
      cases target with
      | none => exact .error _ _
      | some id => exact .ok rfl
  | call name args span ih =>
      simp only [withoutSpans, typed, argsWithoutSpans_eq_map]
      split
      case h_1 => exact .error _ _
      case h_2 f _ =>
          rcases (agree_typedArgs ih 0).cases with ⟨xs, _, hxs, hxs', rfl⟩ |
            ⟨e, e', he, he'⟩
          · rw [hxs, hxs']
            exact .ok rfl
          · rw [he, he']
            exact .error e e'
  | binary op left right span ihLeft ihRight =>
      simp only [withoutSpans, typed]
      rcases ihLeft.cases with ⟨l, _, hl, hl', rfl⟩ | ⟨e, e', he, he'⟩
      · rw [hl, hl']
        rcases ihRight.cases with ⟨r, _, hr, hr', rfl⟩ | ⟨e, e', he, he'⟩
        · rw [hr, hr']
          dsimp only
          cases op.kindOf l.2 r.2 with
          | error fault => exact .error _ _
          | ok kind => exact .ok rfl
        · rw [he, he']
          exact .error e e'
      · rw [he, he']
        exact .error e e'
  | unary op operand span ih =>
      simp only [withoutSpans, typed]
      rcases ih.cases with ⟨x, _, hx, hx', rfl⟩ | ⟨e, e', he, he'⟩
      · rw [hx, hx']
        dsimp only
        cases op.kindOf x.2 with
        | error fault => exact .error _ _
        | ok kind => exact .ok rfl
      · rw [he, he']
        exact .error e e'

theorem agree_clauseFor_withoutSpans (t : Tree) (e : Expression)
    (kind : ValueKind) :
    Agree Eq (t.clauseFor target name e kind)
      (t.withoutSpans.clauseFor target name e kind) := by
  have hcontains := containsAggregate_withoutSpans t
  have hcolumn := columnOutsideAggregation?_withoutSpans t
  cases target with
  | aggregation =>
      simp only [clauseFor, hcontains]
      split
      case isTrue => exact .error _ _
      case isFalse =>
          cases houtside : t.columnOutsideAggregation? with
          | none =>
              rw [hcolumn.mpr houtside]
              exact .ok rfl
          | some column =>
              cases houtside' : t.withoutSpans.columnOutsideAggregation? with
              | none => simp [hcolumn.mp houtside'] at houtside
              | some column' => exact .error _ _
  | filter =>
      simp only [clauseFor, rejectAggregates, hcontains]
      cases t.containsAggregate with
      | true => exact .error _ _
      | false =>
          cases ValueKind.boolean.fits kind with
          | true => exact .ok rfl
          | false => exact .error _ _
  | customColumn =>
      simp only [clauseFor, rejectAggregates, hcontains]
      cases t.containsAggregate with
      | true => exact .error _ _
      | false =>
          cases columnName name with
          | error e => exact .error _ _
          | ok text => exact .ok rfl

end Tree

structure CompiledClause.Same (a b : CompiledClause) : Prop where
  clause : a.clause = b.clause
  kind : a.kind = b.kind
  displayName : a.displayName = b.displayName

namespace Tree

theorem resolved_of_compile {t : Tree} {compiled : CompiledClause}
    (h : t.compile ctx target name = .ok compiled) : compiled.resolved = t := by
  unfold compile at h
  split at h
  case h_1 => cases h
  case h_2 =>
      split at h
      case h_1 => cases h
      case h_2 =>
          cases h
          rfl

theorem agree_compile_withoutSpans (t : Tree) :
    Agree CompiledClause.Same (t.compile ctx target name)
      (t.withoutSpans.compile ctx target name) := by
  unfold compile
  rcases (agree_typed_withoutSpans t).cases with ⟨⟨e, kind⟩, _, hx, hx', rfl⟩ |
    ⟨e, e', he, he'⟩
  · rw [hx, hx']
    dsimp only
    rcases (agree_clauseFor_withoutSpans t e kind).cases with
      ⟨clause, _, hclause, hclause', rfl⟩ | ⟨e, e', he, he'⟩
    · rw [hclause, hclause']
      exact .ok ⟨rfl, rfl, rfl⟩
    · rw [he, he']
      exact .error e e'
  · rw [he, he']
    exact .error _ _

/-- Trees that differ at most in spans compile to the same clause. -/
theorem exists_compile_of_withoutSpans_eq {t t' resolved : Tree}
    {compiled : CompiledClause} (hsame : t'.withoutSpans = t.withoutSpans)
    (h : t.resolve ctx separators = .ok resolved)
    (hcompile : resolved.compile ctx target name = .ok compiled) :
    ∃ resolved' compiled', t'.resolve ctx separators = .ok resolved' ∧
      resolved'.compile ctx target name = .ok compiled' ∧
      compiled'.Same compiled := by
  rcases (resolvesAlike_withoutSpans t).exists_right h with ⟨_, hplain, rfl⟩
  rw [← hsame] at hplain
  rcases (resolvesAlike_withoutSpans t').exists_left hplain with
    ⟨resolved', hresolved', hspans⟩
  rcases (agree_compile_withoutSpans resolved).exists_right hcompile with
    ⟨plain, hplain, hsame⟩
  rw [hspans] at hplain
  rcases (agree_compile_withoutSpans resolved').exists_left hplain with
    ⟨compiled', hcompiled', hsame'⟩
  use resolved', compiled'
  constructor
  · exact hresolved'
  · constructor
    · exact hcompiled'
    · exact ⟨hsame'.clause.trans hsame.clause.symm,
        hsame'.kind.trans hsame.kind.symm,
        hsame'.displayName.trans hsame.displayName.symm⟩

/-! ## Resolved trees -/

theorem resolve_unresolved {t resolved : Tree}
    (h : t.resolve ctx separators = .ok resolved) :
    resolved.unresolved.resolve ctx separators = .ok resolved := by
  induction t using induct generalizing resolved with
  | number value span =>
      cases h
      rfl
  | string value span =>
      cases h
      rfl
  | reference name target span =>
      rcases resolveReference_eq_ok_iff.mp h with ⟨entry, hentry, rfl⟩ |
        ⟨-, function, hshort, rfl⟩
      · exact resolveReference_eq_ok_iff.mpr (.inl ⟨entry, hentry, rfl⟩)
      · -- The short form of a call comes back as a call.
        exact resolve_call_eq_ok_iff.mpr ⟨function, [],
          Function.ofName?_name function,
          acceptsArgCount_of_shorthandCall? hshort, .nil, by simp, rfl⟩
  | call name args span ih =>
      rcases resolve_call_eq_ok_iff.mp h with
        ⟨function, args', -, hcount, hargs, hplain, rfl⟩
      have hagain : List.Forall₂ (fun arg arg' => arg.resolve ctx separators =
            .ok arg')
          (args'.map unresolved) args' := by
        rw [List.forall₂_map_left_iff, List.forall₂_same]
        intro arg' harg'
        rcases exists_of_mem_forall₂ hargs harg' with ⟨arg, harg, hresolve⟩
        exact ih arg harg hresolve
      rw [unresolved, argsUnresolved_eq_map]
      apply resolve_call_eq_ok_iff.mpr
      rw [hargs.length_eq] at hcount
      exact ⟨function, args', Function.ofName?_name function,
        by rwa [List.length_map], hagain, hplain, rfl⟩
  | binary op left right span ihLeft ihRight =>
      rcases resolve_binary_eq_ok_iff.mp h with
        ⟨left', right', hleft, hright, rfl⟩
      exact resolve_binary_eq_ok_iff.mpr ⟨left', right', ihLeft hleft,
        ihRight hright, rfl⟩
  | unary op operand span ih =>
      rcases resolve_unary_eq_ok_iff.mp h with ⟨operand', hoperand, rfl⟩
      exact resolve_unary_eq_ok_iff.mpr ⟨operand', ih hoperand, rfl⟩

/-- Resolving keeps a tree one that can be written: the catalogued names of
functions are words. -/
theorem writable_of_resolve {t resolved : Tree}
    (h : t.resolve ctx separators = .ok resolved) (hwritable : t.Writable) :
    resolved.Writable := by
  induction t using induct generalizing resolved with
  | number value span =>
      cases h
      exact hwritable
  | string value span =>
      cases h
      exact hwritable
  | reference name target span =>
      rcases resolveReference_eq_ok_iff.mp h with ⟨entry, -, rfl⟩ |
        ⟨-, function, -, rfl⟩
      · exact hwritable
      · exact ⟨Function.isName_name function, trivial⟩
  | call name args span ih =>
      rcases resolve_call_eq_ok_iff.mp h with
        ⟨function, args', -, -, hargs, -, rfl⟩
      constructor
      · exact Function.isName_name function
      · apply argsWritable_iff.mpr
        intro arg' harg'
        rcases exists_of_mem_forall₂ hargs harg' with ⟨arg, harg, hresolve⟩
        exact ih arg harg hresolve (argsWritable_iff.mp hwritable.2 arg harg)
  | binary op left right span ihLeft ihRight =>
      rcases resolve_binary_eq_ok_iff.mp h with
        ⟨left', right', hleft, hright, rfl⟩
      exact ⟨ihLeft hleft hwritable.1, ihRight hright hwritable.2⟩
  | unary op operand span ih =>
      rcases resolve_unary_eq_ok_iff.mp h with ⟨operand', hoperand, rfl⟩
      have hoperand' : operand'.Writable := ih hoperand hwritable
      exact hoperand'

end Tree

/-! ## Formulas written out again -/

/-- A formula that compiles does so again when it is written out, as it was read
or with its names resolved, at any depth that is large enough for both texts. -/
theorem Query.compileAt_render {c : Catalog} {options : CompileOptions}
    {q : Query} {source : String} {target : FormulaTarget}
    {name : Option String} {position : ClausePosition}
    {compiled : CompiledClause}
    (h : q.compileAt c options source target name position = .ok compiled) :
    ∃ parsed, Tree.parseWithin options.maxDepth source = .ok parsed ∧
      ∃ n, ∀ depth, n ≤ depth →
        ∀ text ∈ [parsed.render, compiled.resolved.render],
          ∃ again, q.compileAt c { options with maxDepth := depth } text target
              name position = .ok again ∧ again.Same compiled := by
  rcases Query.compileAt_eq_ok_iff.mp h with
    ⟨ctx, parsed, resolved, hctx, hparsed, hresolved, hcompile⟩
  rcases Tree.plain_of_parseWithin hparsed with ⟨hwritable, hunresolved⟩
  have hwritten := Tree.writable_of_resolve hresolved hwritable
  -- A tree that is read back compiles like the tree that was written.
  have hagain : ∀ t : Tree, t.Writable →
      t.unresolved.resolve ctx options.separators = .ok resolved → ∀ depth,
      t.levels ≤ depth →
        ∃ again, q.compileAt c { options with maxDepth := depth } t.render
          target name position = .ok again ∧ again.Same compiled := by
    intro t ht hresolve depth hdepth
    rcases Tree.parseWithin_render ht hdepth with ⟨t', hparse, hspans⟩
    rcases Tree.exists_compile_of_withoutSpans_eq hspans hresolve hcompile with
      ⟨resolved', again, hresolve', hcompile', hsame⟩
    exact ⟨again, Query.compileAt_eq_ok_iff.mpr ⟨ctx, t', resolved', hctx,
      hparse, hresolve', hcompile'⟩, hsame⟩
  use parsed
  constructor
  · exact hparsed
  · use max parsed.levels compiled.resolved.levels
    intro depth hdepth text htext
    rw [Tree.resolved_of_compile hcompile] at htext hdepth
    rcases List.mem_pair.mp htext with rfl | rfl
    · apply hagain parsed hwritable _ depth (by omega)
      rwa [hunresolved]
    · exact hagain resolved hwritten (Tree.resolve_unresolved hresolved) depth
        (by omega)

open Draft (sales salesCounts)

def averagePrice : CompiledClause where
  clause :=
    .aggregation ⟨.binary .div (.call .sum [.column (.field 10)])
    (.call .count []), none,
    []⟩
  displayName := "Sum of Price ÷ Count"
  kind := .numeric
  resolved := .binary .div
    (.call "Sum" [.reference "Price" (some (.field 10)) ⟨4, 9⟩] ⟨0, 10⟩)
    (.call "Count" [] ⟨11, 16⟩) ⟨0, 16⟩

theorem parseWithin_averagePrice :
    Tree.parseWithin Tree.defaultMaxDepth "sum(Price)/count" =
      .ok (.binary .div (.call "sum" [.reference "Price" none ⟨4, 9⟩] ⟨0, 10⟩)
        (.reference "count" none ⟨11, 16⟩) ⟨0, 16⟩) := by
  have hscan : Token.scan "sum(Price)/count" =
      .ok [⟨.word "sum", ⟨0, 3⟩⟩, ⟨.leftParen, ⟨3, 4⟩⟩,
      ⟨.word "Price", ⟨4, 9⟩⟩, ⟨.rightParen, ⟨9, 10⟩⟩,
      ⟨.operator .div, ⟨10, 11⟩⟩, ⟨.word "count", ⟨11, 16⟩⟩] := by
      decide +kernel
  rw [Tree.parseWithin, hscan]
  rfl

theorem compileAt_averagePrice :
    salesCounts.query.compileAt sales {} "sum(Price)/count" .aggregation none
      ⟨.aggregation, 0⟩ = .ok averagePrice := by
  rw [Query.compileAt, parseWithin_averagePrice]
  rfl

theorem Query.compileAt_render_averagePrice :
    ∃ n, ∀ depth, n ≤ depth →
      ∀ text ∈ ["sum([Price]) / [count]", "Sum([Price]) / Count()"],
        ∃ again, salesCounts.query.compileAt sales { maxDepth := depth } text
          .aggregation none ⟨.aggregation, 0⟩ = .ok again ∧
          again.Same averagePrice := by
  rcases compileAt_render compileAt_averagePrice with ⟨parsed, hparsed, n, h⟩
  rw [parseWithin_averagePrice] at hparsed
  cases hparsed
  exact ⟨n, h⟩

end TableQuery
