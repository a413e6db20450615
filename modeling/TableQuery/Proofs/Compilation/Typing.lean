import TableQuery.Compilation.Typing
import TableQuery.Proofs.Formula.Tree
import TableQuery.Proofs.Query.Insertion

/-!
# What a typed tree reads

A tree is read twice on its way into a query: while it is a formula, and once it
is an expression.  The expression of a resolved tree reads the columns to which
the references of the tree were resolved, and it aggregates if the tree does.
-/

namespace TableQuery

namespace Expression

@[simp] theorem isAggregating_call (function : Function)
    (args : List Expression) :
    (call function args).isAggregating =
      (function.isAggregate || args.any isAggregating) := by
  rw [Bool.eq_iff_iff, isAggregating_iff, aggregationRefs_call,
    containsAggregate, anyContainsAggregate_eq_any, ne_eq,
    List.flatMap_eq_nil_iff]
  simp only [Bool.or_eq_true, List.any_eq_true, isAggregating_iff]
  grind

@[simp] theorem isAggregating_binary (op : BinaryOp) (left right : Expression) :
    (binary op left right).isAggregating =
      (left.isAggregating || right.isAggregating) := by
  rw [Bool.eq_iff_iff, isAggregating_iff, aggregationRefs_binary,
    containsAggregate, ne_eq, List.append_eq_nil_iff]
  simp only [Bool.or_eq_true, isAggregating_iff]
  grind

@[simp] theorem isAggregating_unary (op : UnaryOp) (operand : Expression) :
    (unary op operand).isAggregating = operand.isAggregating := rfl

theorem isAggregating_column (id : Identifier) :
    (column id).isAggregating = id.aggregationIndex?.isSome := by
  simp [isAggregating, containsAggregate, identifiers]

end Expression

theorem TypeFault.at_eq_ok_iff {α : Type} {span : Span} {x : Except TypeFault α}
    {a : α} : TypeFault.at span x = .ok a ↔ x = .ok a := by
  cases x <;> simp [TypeFault.at]

namespace Tree

variable {ctx : Context} {separators : List String} {function : Function}

/-! ## Resolved references -/

mutual

def targets : Tree → List Identifier
  | number _ _ | string _ _ => []
  | reference _ target _ => target.toList
  | call _ args _ => argTargets args
  | binary _ left right _ => targets left ++ targets right
  | unary _ operand _ => targets operand

def argTargets : List Tree → List Identifier
  | [] => []
  | arg :: args => targets arg ++ argTargets args

end

theorem argTargets_eq_flatMap (args : List Tree) :
    argTargets args = args.flatMap targets := by
  induction args with
  | nil => rfl
  | cons arg args ih => simp [argTargets, ih]

theorem anyContainsAggregate_eq_any (args : List Tree) :
    anyContainsAggregate args = args.any containsAggregate := by
  induction args with
  | nil => rfl
  | cons arg args ih => simp [anyContainsAggregate, ih]

theorem resolveArgs_eq_mapM (args : List Tree) :
    resolveArgs ctx separators args = args.mapM (resolve ctx separators) := by
  induction args with
  | nil => rfl
  | cons arg args ih =>
      rw [resolveArgs, List.mapM_cons, ih]
      cases resolve ctx separators arg with
      | error e => rfl
      | ok arg' => cases args.mapM (resolve ctx separators) <;> rfl

theorem acceptsArgCount_of_shorthandCall? {parts : List String}
    (h : shorthandCall? parts = some function) :
    function.acceptsArgCount 0 = true := by
  unfold shorthandCall? at h
  split at h
  case h_1 =>
      have hfilter := (Option.filter_eq_some_iff.mp h).2
      exact (Bool.and_eq_true_iff.mp hfilter).2
  case h_2 => cases h

/-- A reference resolves to the only column that it may mean, or else to the
call that it is short for. -/
theorem resolveReference_eq_ok_iff {name : String} {span : Span} {t : Tree} :
    resolveReference ctx separators name span = .ok t ↔
      (∃ entry, ctx.candidates (segments separators name) = [entry] ∧
        t = reference name (some entry.identifier) span) ∨
      (ctx.candidates (segments separators name) = [] ∧
        ∃ function, shorthandCall? (segments separators name) = some function ∧
          t = call function.name [] span) := by
  unfold resolveReference
  dsimp only
  split
  case h_1 entry hentry => simp [hentry, eq_comm]
  case h_2 hnone =>
      cases shorthandCall? (segments separators name) with
      | none => simp [hnone]
      | some function => simp [hnone, eq_comm]
  case h_3 hone hnone =>
      constructor
      · intro h
        cases h
      · rintro (⟨entry, hentry, -⟩ | ⟨hempty, -⟩)
        · exact absurd hentry (hone entry)
        · exact absurd hempty hnone

theorem resolve_call_eq_ok_iff {name : String} {args : List Tree} {span : Span}
    {resolved : Tree} :
    resolve ctx separators (call name args span) = .ok resolved ↔
      ∃ function args', Function.ofName? name = some function ∧
        function.acceptsArgCount args.length = true ∧
        List.Forall₂ (fun arg arg' => resolve ctx separators arg = .ok arg')
            args args' ∧
        (function.isAggregate = true → ∀ arg' ∈ args', arg'.containsAggregate =
          false) ∧
        resolved = call function.name args' span := by
  constructor
  · intro h
    unfold resolve at h
    split at h
    case h_1 => cases h
    case h_2 function hname =>
        split at h
        case isTrue => cases h
        case isFalse hcount =>
            rw [resolveArgs_eq_mapM] at h
            split at h
            case h_1 => cases h
            case h_2 args' hargs =>
                split at h
                case h_1 => cases h
                case h_2 hnone =>
                    cases h
                    refine ⟨function, args', hname, by simpa using hcount,
                      mapM_eq_ok_iff.mp hargs, fun haggregate => ?_, rfl⟩
                    simpa [haggregate] using hnone
  · rintro ⟨function, args', hname, hcount, hargs, hplain, rfl⟩
    have hnone : (if function.isAggregate = true then
        args'.find? containsAggregate else none) =
        none := by
      split
      case isTrue haggregate => simpa using hplain haggregate
      case isFalse => rfl
    rw [← mapM_eq_ok_iff, ← resolveArgs_eq_mapM] at hargs
    simp [resolve, hname, hcount, hargs, hnone]

theorem resolve_binary_eq_ok_iff {op : BinaryOp} {left right : Tree}
    {span : Span} {resolved : Tree} :
    resolve ctx separators (binary op left right span) = .ok resolved ↔
      ∃ left' right', resolve ctx separators left = .ok left' ∧
        resolve ctx separators right = .ok right' ∧
        resolved = binary op left' right' span := by
  rw [resolve]
  cases resolve ctx separators left with
  | error e => simp
  | ok left' => cases resolve ctx separators right <;> simp [eq_comm]

theorem resolve_unary_eq_ok_iff {op : UnaryOp} {operand : Tree} {span : Span}
    {resolved : Tree} :
    resolve ctx separators (unary op operand span) = .ok resolved ↔
      ∃ operand', resolve ctx separators operand = .ok operand' ∧
        resolved = unary op operand' span := by
  rw [resolve]
  cases resolve ctx separators operand <;> simp [eq_comm]

theorem exists_entry_of_resolve {t resolved : Tree}
    (h : t.resolve ctx separators = .ok resolved) :
    ∀ id ∈ resolved.targets, ∃ e ∈ ctx.entries, e.identifier = id := by
  induction t using induct generalizing resolved with
  | number value span =>
      cases h
      simp [targets]
  | string value span =>
      cases h
      simp [targets]
  | reference name target span =>
      rcases resolveReference_eq_ok_iff.mp h with ⟨entry, hentry, rfl⟩ |
        ⟨-, function, -, rfl⟩
      · have hmem : entry ∈ ctx.candidates (segments separators name) := by
          simp [hentry]
        intro id hid
        exact ⟨entry, (List.mem_filter.mp hmem).1,
          (List.mem_singleton.mp hid).symm⟩
      · simp [targets, argTargets]
  | call name args span ih =>
      rcases resolve_call_eq_ok_iff.mp h with
        ⟨function, args', -, -, hargs, -, rfl⟩
      simp only [targets, argTargets_eq_flatMap, List.mem_flatMap]
      rintro id ⟨arg', harg', hid⟩
      rcases exists_of_mem_forall₂ hargs harg' with ⟨arg, harg, hresolve⟩
      exact ih arg harg hresolve id hid
  | binary op left right span ihLeft ihRight =>
      rcases resolve_binary_eq_ok_iff.mp h with
        ⟨left', right', hleft, hright, rfl⟩
      intro id hid
      exact (List.mem_append.mp hid).elim (ihLeft hleft id) (ihRight hright id)
  | unary op operand span ih =>
      rcases resolve_unary_eq_ok_iff.mp h with ⟨operand', hoperand, rfl⟩
      intro id hid
      exact ih hoperand id hid

theorem targets_of_resolve {t resolved : Tree}
    (h : t.resolve ctx separators = .ok resolved) :
    ∀ id ∈ resolved.targets, (ctx.lookup id).isSome := by
  intro id hid
  obtain ⟨e, he, rfl⟩ := exists_entry_of_resolve h id hid
  exact Context.isSome_lookup_of_mem he

/-! ## Typed trees -/

/-- An expression that reads what a resolved tree reads, and aggregates if the
tree does. -/
structure Reflects (t : Tree) (e : Expression) : Prop where
  identifiers : e.identifiers = t.targets
  isAggregating : e.isAggregating = t.containsAggregate

theorem isAggregate_eq_of_ofName? {name : String}
    (h : Function.ofName? name = some function) :
    function.isAggregate = Function.namesAggregate name := by
  rw [Function.namesAggregate, h, Option.any_some]

theorem typedArgs_eq_ok_iff {index : Nat} {args : List Tree}
    {results : List (Expression × ValueKind)} :
    typedArgs ctx function index args = .ok results ↔
      List.Forall₂ (fun arg result => arg.typed ctx = .ok result) args results ∧
        ∀ i result, results[i]? = some result →
          (function.paramKind (index + i)).accepts result.2 = true := by
  induction args generalizing index results with
  | nil =>
      rw [typedArgs, List.forall₂_nil_left_iff]
      constructor
      · intro h
        cases h
        exact ⟨rfl, nofun⟩
      · rintro ⟨rfl, -⟩
        rfl
  | cons arg args ih =>
      have hkinds (result : Expression × ValueKind)
          (rest : List (Expression × ValueKind)) :
          (∀ i r, (result :: rest)[i]? = some r →
            (function.paramKind (index + i)).accepts r.2 = true) ↔
          (function.paramKind index).accepts result.2 = true ∧
            ∀ i r, rest[i]? = some r →
              (function.paramKind (index + 1 + i)).accepts r.2 = true := by
        constructor
        · intro h
          exact ⟨h 0 result rfl, fun i r hr => Nat.add_right_comm index 1 i ▸
            h (i + 1) r hr⟩
        · rintro ⟨hfirst, hrest⟩ i r hr
          cases i with
          | zero =>
              cases hr
              exact hfirst
          | succ i => exact Nat.add_right_comm index 1 i ▸ hrest i r hr
      constructor
      · intro h
        unfold typedArgs at h
        split at h
        case h_1 => cases h
        case h_2 x kind harg =>
            split at h
            case isTrue => cases h
            case isFalse haccepts =>
                split at h
                case h_1 => cases h
                case h_2 rest hrest =>
                    cases h
                    obtain ⟨hforall, hrest⟩ := ih.mp hrest
                    exact ⟨.cons harg hforall,
                      (hkinds _ _).mpr ⟨by simpa using haccepts, hrest⟩⟩
      · rintro ⟨hforall, hall⟩
        cases hforall with
        | cons harg hforall =>
            obtain ⟨hfirst, hrest⟩ := (hkinds _ _).mp hall
            simp [typedArgs, harg, hfirst, ih.mpr ⟨hforall, hrest⟩]

theorem typed_call_eq_ok {name : String} {args : List Tree} {span : Span}
    {e : Expression} {kind : ValueKind}
    (h : (call name args span).typed ctx = .ok (e, kind)) :
    ∃ function es, e = .call function es ∧
      Function.ofName? name = some function ∧
      List.Forall₂ (fun arg x => ∃ kind, arg.typed ctx = .ok (x, kind)) args
        es := by
  unfold typed at h
  split at h
  case h_1 => cases h
  case h_2 function hfunction =>
      split at h
      case h_1 => cases h
      case h_2 results hresults =>
          cases h
          refine ⟨function, _, rfl, hfunction, ?_⟩
          exact List.forall₂_map_right_iff.mpr
            ((typedArgs_eq_ok_iff.mp hresults).1.imp fun _ _ harg => ⟨_, harg⟩)

theorem typed_binary_eq_ok_iff {op : BinaryOp} {left right : Tree} {span : Span}
    {e : Expression} {kind : ValueKind} :
    (binary op left right span).typed ctx = .ok (e, kind) ↔
      ∃ l leftKind r rightKind, left.typed ctx = .ok (l, leftKind) ∧
        right.typed ctx = .ok (r, rightKind) ∧
        op.kindOf leftKind rightKind = .ok kind ∧ e = .binary op l r := by
  constructor
  · intro h
    unfold typed at h
    split at h
    case h_1 => cases h
    case h_2 l leftKind hleft =>
        split at h
        case h_1 => cases h
        case h_2 r rightKind hright =>
            split at h
            case h_1 => cases h
            case h_2 hkind =>
                cases h
                exact ⟨l, leftKind, r, rightKind, hleft, hright,
                  TypeFault.at_eq_ok_iff.mp hkind, rfl⟩
  · rintro ⟨l, leftKind, r, rightKind, hleft, hright, hkind, rfl⟩
    simp [typed, hleft, hright, hkind, TypeFault.at]

theorem typed_unary_eq_ok_iff {op : UnaryOp} {operand : Tree} {span : Span}
    {e : Expression} {kind : ValueKind} :
    (unary op operand span).typed ctx = .ok (e, kind) ↔
      ∃ x operandKind, operand.typed ctx = .ok (x, operandKind) ∧
        op.kindOf operandKind = .ok kind ∧ e = .unary op x := by
  constructor
  · intro h
    unfold typed at h
    split at h
    case h_1 => cases h
    case h_2 x operandKind hoperand =>
        split at h
        case h_1 => cases h
        case h_2 hkind =>
            cases h
            exact ⟨x, operandKind, hoperand,
              TypeFault.at_eq_ok_iff.mp hkind, rfl⟩
  · rintro ⟨x, operandKind, hoperand, hkind, rfl⟩
    simp [typed, hoperand, hkind, TypeFault.at]

theorem typed_binary_eq_ok {op : BinaryOp} {left right : Tree} {span : Span}
    {e : Expression} {kind : ValueKind}
    (h : (binary op left right span).typed ctx = .ok (e, kind)) :
    ∃ l r, e = .binary op l r ∧ (∃ kind, left.typed ctx = .ok (l, kind)) ∧
      ∃ kind, right.typed ctx = .ok (r, kind) := by
  obtain ⟨l, leftKind, r, rightKind, hleft, hright, -, rfl⟩ :=
    typed_binary_eq_ok_iff.mp h
  exact ⟨l, r, rfl, ⟨leftKind, hleft⟩, rightKind, hright⟩

theorem typed_unary_eq_ok {op : UnaryOp} {operand : Tree} {span : Span}
    {e : Expression} {kind : ValueKind}
    (h : (unary op operand span).typed ctx = .ok (e, kind)) :
    ∃ x, e = .unary op x ∧ ∃ kind, operand.typed ctx = .ok (x, kind) := by
  obtain ⟨x, operandKind, hoperand, -, rfl⟩ := typed_unary_eq_ok_iff.mp h
  exact ⟨x, rfl, operandKind, hoperand⟩

theorem Reflects.call {name : String}
    (hname : function.isAggregate = Function.namesAggregate name)
    {args : List Tree} {es : List Expression} {span : Span}
    (h : List.Forall₂ Reflects args es) :
    Reflects (.call name args span) (.call function es) where
  identifiers := by
    rw [Expression.identifiers, targets, Expression.argIdentifiers_eq_flatMap,
      argTargets_eq_flatMap]
    induction h with
    | nil => rfl
    | cons head _ ih =>
        rw [List.flatMap_cons, List.flatMap_cons, head.identifiers, ih]
  isAggregating := by
    rw [Expression.isAggregating_call, containsAggregate, hname,
      anyContainsAggregate_eq_any]
    congr 1
    induction h with
    | nil => rfl
    | cons head _ ih =>
        rw [List.any_cons, List.any_cons, head.isAggregating, ih]

theorem reflects_of_typed {t : Tree} {e : Expression} {kind : ValueKind}
    (h : t.typed ctx = .ok (e, kind)) : t.Reflects e := by
  induction t using induct generalizing e kind with
  | number value span =>
      cases h
      exact ⟨rfl, rfl⟩
  | string value span =>
      cases h
      exact ⟨rfl, rfl⟩
  | reference name target span =>
      cases target with
      | none => cases h
      | some id =>
          cases h
          exact ⟨rfl, Expression.isAggregating_column id⟩
  | call name args span ih =>
      obtain ⟨function, es, rfl, hname, hargs⟩ := typed_call_eq_ok h
      refine Reflects.call (isAggregate_eq_of_ofName? hname) ?_
      exact ((List.forall₂_and_left _ _).mpr ⟨ih, hargs⟩).imp fun arg x harg =>
        harg.2.elim fun _ htyped => harg.1 htyped
  | binary op left right span ihLeft ihRight =>
      obtain ⟨l, r, rfl, ⟨_, hleft⟩, _, hright⟩ := typed_binary_eq_ok h
      refine ⟨?_, ?_⟩
      · simp [Expression.identifiers, targets, (ihLeft hleft).identifiers,
          (ihRight hright).identifiers]
      · simp [containsAggregate, (ihLeft hleft).isAggregating,
          (ihRight hright).isAggregating]
  | unary op operand span ih =>
      obtain ⟨x, rfl, _, hoperand⟩ := typed_unary_eq_ok h
      exact ⟨(ih hoperand).identifiers, (ih hoperand).isAggregating⟩

end Tree

end TableQuery
