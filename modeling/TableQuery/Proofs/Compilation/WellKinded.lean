import TableQuery.Proofs.Evaluation.Kinds

/-!
# Formulas that are typed

Typing makes the expression of a formula and checks the kinds of its operands
and arguments on the way.  Which formulas pass is said here by their expressions
alone, with the kinds that these have once they are stored: the two ways to the
kind of a formula agree.
-/

namespace TableQuery

/-! ## Expressions that fit their kinds -/

def BinaryOp.Takes (op : BinaryOp) (left right : ValueKind) : Prop :=
  if op.isArithmetic then
    ValueKind.numeric.fits left ∧ ValueKind.numeric.fits right
  else if op.isLogical then ValueKind.boolean.fits left ∧
    ValueKind.boolean.fits right
  else left.comparableWith right

def UnaryOp.Takes (op : UnaryOp) (operand : ValueKind) : Prop :=
  op.resultKind.fits operand

namespace Expression

/-- Every operand and every argument is of a kind that is taken where it
stands. -/
inductive WellKinded (ctx : Context) : Expression → Prop
  | number (value : Decimal) : WellKinded ctx (.number value)
  | string (value : String) : WellKinded ctx (.string value)
  | column (id : Identifier) : WellKinded ctx (.column id)
  | call {function : Function} {args : List Expression}
      (hargs : ∀ arg ∈ args, WellKinded ctx arg)
      (hkinds : ∀ i arg, args[i]? = some arg →
        (function.paramKind i).accepts (arg.kindIn ctx) = true) :
      WellKinded ctx (.call function args)
  | binary {op : BinaryOp} {left right : Expression}
      (hleft : WellKinded ctx left) (hright : WellKinded ctx right)
      (hkinds : op.Takes (left.kindIn ctx) (right.kindIn ctx)) :
      WellKinded ctx (.binary op left right)
  | unary {op : UnaryOp} {operand : Expression}
      (hoperand : WellKinded ctx operand)
      (hkind : op.Takes (operand.kindIn ctx)) :
      WellKinded ctx (.unary op operand)

end Expression

theorem BinaryOp.kindOf_eq_ok_iff {op : BinaryOp}
    {left right kind : ValueKind} :
    op.kindOf left right = .ok kind ↔
      op.Takes left right ∧ kind = op.resultKind := by
  have hboth (needed : ValueKind) : [left, right].find?
      (!needed.fits ·) = none ↔ needed.fits left ∧ needed.fits right := by simp
  refine ⟨fun h => ⟨?_, kindOf_eq_ok h⟩, ?_⟩
  · unfold kindOf at h
    unfold Takes
    split
    case isTrue harithmetic =>
        rw [if_pos harithmetic] at h
        split at h <;> cases h
        rwa [← hboth]
    case isFalse harithmetic =>
        rw [if_neg harithmetic] at h
        split
        case isTrue hlogical =>
            rw [if_pos hlogical] at h
            split at h <;> cases h
            rwa [← hboth]
        case isFalse hlogical =>
            rw [if_neg hlogical] at h
            split at h <;> cases h
            assumption
  · rintro ⟨htakes, rfl⟩
    unfold Takes at htakes
    unfold kindOf resultKind
    split
    case isTrue harithmetic =>
        rw [if_pos harithmetic, ← hboth] at htakes
        rw [htakes]
    case isFalse harithmetic =>
        rw [if_neg harithmetic] at htakes
        split
        case isTrue hlogical =>
            rw [if_pos hlogical, ← hboth] at htakes
            rw [htakes]
        case isFalse hlogical =>
            rw [if_neg hlogical] at htakes
            rw [if_pos htakes]

theorem UnaryOp.kindOf_eq_ok_iff {op : UnaryOp} {operand kind : ValueKind} :
    op.kindOf operand = .ok kind ↔ op.Takes operand ∧ kind = op.resultKind := by
  cases op with
  | neg | not =>
      simp only [kindOf, Takes, resultKind]
      split
      case isTrue hfits => simp [hfits, eq_comm]
      case isFalse hfits => simp [hfits]

namespace Tree

variable {ctx : Context} {function : Function}

mutual

def expression? : Tree → Option Expression
  | number value _ => some (.number value)
  | string value _ => some (.string value)
  | reference _ target _ => target.map .column
  | call name args _ =>
    (Function.ofName? name).bind fun function =>
      (argExpressions? args).map (.call function)
  | binary op left right _ =>
    (expression? left).bind fun l => (expression? right).map (.binary op l)
  | unary op operand _ => (expression? operand).map (.unary op)

def argExpressions? : List Tree → Option (List Expression)
  | [] => some []
  | arg :: args => (expression? arg).bind fun x =>
    (argExpressions? args).map (x :: ·)

end

theorem argExpressions?_eq_some_iff {args : List Tree} {es : List Expression} :
    argExpressions? args = some es ↔
      List.Forall₂ (fun arg e => arg.expression? = some e) args es := by
  induction args generalizing es with
  | nil => simp [argExpressions?, eq_comm]
  | cons arg args ih =>
      simp only [argExpressions?, Option.bind_eq_some_iff,
        Option.map_eq_some_iff, ih, List.forall₂_cons_left_iff]
      constructor
      · rintro ⟨e, he, es, hes, rfl⟩
        exact ⟨e, es, he, hes, rfl⟩
      · rintro ⟨e, es, he, hes, rfl⟩
        exact ⟨e, he, es, hes, rfl⟩

theorem typed_call_eq_ok_iff {name : String} {args : List Tree} {span : Span}
    {e : Expression} :
    (∃ kind, (call name args span).typed ctx = .ok (e, kind)) ↔
      ∃ function es, Function.ofName? name = some function ∧
        e = .call function es ∧
        List.Forall₂ (fun arg x => ∃ kind, arg.typed ctx = .ok (x, kind)) args
            es ∧ ∀ i x, es[i]? = some x →
            (function.paramKind i).accepts (x.kindIn ctx) = true := by
  constructor
  · rintro ⟨kind, h⟩
    unfold typed at h
    split at h
    case h_1 => cases h
    case h_2 function hname =>
        split at h
        case h_1 => cases h
        case h_2 results hresults =>
            cases h
            obtain ⟨hforall, hkinds⟩ := typedArgs_eq_ok_iff.mp hresults
            refine ⟨function, _, hname, rfl, List.forall₂_map_right_iff.mpr
              (hforall.imp fun _ _ harg => ⟨_, harg⟩), fun i x hx => ?_⟩
            rw [List.getElem?_map, Option.map_eq_some_iff] at hx
            obtain ⟨result, hresult, rfl⟩ := hx
            obtain ⟨arg, -, harg⟩ :=
              exists_of_mem_forall₂ hforall (List.mem_of_getElem? hresult)
            have haccepts := hkinds i result hresult
            rwa [Nat.zero_add, ← kindIn_of_typed harg] at haccepts
  · rintro ⟨function, es, hname, rfl, hforall, hkinds⟩
    have hresults : typedArgs ctx function 0 args =
        .ok (es.map fun x => (x, x.kindIn ctx)) := by
      refine typedArgs_eq_ok_iff.mpr
        ⟨List.forall₂_map_right_iff.mpr (hforall.imp ?_), ?_⟩
      · rintro arg x ⟨kind, harg⟩
        rw [kindIn_of_typed harg, harg]
      · intro i result hresult
        rw [List.getElem?_map, Option.map_eq_some_iff] at hresult
        obtain ⟨x, hx, rfl⟩ := hresult
        rw [Nat.zero_add]
        exact hkinds i x hx
    have hes : Prod.fst ∘ (fun x : Expression => (x, x.kindIn ctx)) = id := rfl
    simp [typed, hname, hresults, hes]

theorem exists_typed_eq_ok_iff {t : Tree} {e : Expression} :
    (∃ kind, t.typed ctx = .ok (e, kind)) ↔
      t.expression? = some e ∧ e.WellKinded ctx := by
  induction t using induct generalizing e with
  | number value span =>
      constructor
      · rintro ⟨kind, h⟩
        cases h
        exact ⟨rfl, .number value⟩
      · rintro ⟨⟨⟩, -⟩
        exact ⟨_, rfl⟩
  | string value span =>
      constructor
      · rintro ⟨kind, h⟩
        cases h
        exact ⟨rfl, .string value⟩
      · rintro ⟨⟨⟩, -⟩
        exact ⟨_, rfl⟩
  | reference name target span =>
      cases target with
      | none =>
          exact iff_of_false (fun ⟨_, h⟩ => nomatch h) (fun ⟨h, _⟩ => nomatch h)
      | some id =>
          constructor
          · rintro ⟨kind, h⟩
            cases h
            exact ⟨rfl, .column id⟩
          · rintro ⟨⟨⟩, -⟩
            exact ⟨_, rfl⟩
  | call name args span ih =>
      rw [typed_call_eq_ok_iff]
      simp only [expression?, Option.bind_eq_some_iff, Option.map_eq_some_iff,
        argExpressions?_eq_some_iff]
      constructor
      · rintro ⟨function, es, hname, rfl, hforall, hkinds⟩
        have hargs := forall₂_imp_of_mem hforall fun arg harg x _ h =>
          (ih arg harg).mp h
        refine ⟨⟨function, hname, es, hargs.imp fun _ _ h => h.1, rfl⟩,
          .call ?_ hkinds⟩
        intro x hx
        obtain ⟨arg, -, -, hwell⟩ := exists_of_mem_forall₂ hargs hx
        exact hwell
      · rintro ⟨⟨function, hname, es, hforall, rfl⟩, hwell⟩
        cases hwell with
        | call hargs hkinds =>
            exact ⟨function, es, hname, rfl,
              forall₂_imp_of_mem hforall fun arg harg x hx h =>
              (ih arg harg).mpr ⟨h, hargs x hx⟩, hkinds⟩
  | binary op left right span ihLeft ihRight =>
      simp only [typed_binary_eq_ok_iff, BinaryOp.kindOf_eq_ok_iff, expression?,
        Option.bind_eq_some_iff, Option.map_eq_some_iff]
      constructor
      · rintro ⟨kind, l, leftKind, r, rightKind, hleft, hright,
          ⟨htakes, -⟩, rfl⟩
        obtain ⟨hl, hlWell⟩ := ihLeft.mp ⟨leftKind, hleft⟩
        obtain ⟨hr, hrWell⟩ := ihRight.mp ⟨rightKind, hright⟩
        rw [← kindIn_of_typed hleft, ← kindIn_of_typed hright] at htakes
        exact ⟨⟨l, hl, r, hr, rfl⟩, .binary hlWell hrWell htakes⟩
      · rintro ⟨⟨l, hl, r, hr, rfl⟩, hwell⟩
        cases hwell with
        | binary hlWell hrWell htakes =>
            obtain ⟨leftKind, hleft⟩ := ihLeft.mpr ⟨hl, hlWell⟩
            obtain ⟨rightKind, hright⟩ := ihRight.mpr ⟨hr, hrWell⟩
            rw [kindIn_of_typed hleft, kindIn_of_typed hright] at htakes
            exact ⟨_, l, leftKind, r, rightKind, hleft, hright,
              ⟨htakes, rfl⟩, rfl⟩
  | unary op operand span ih =>
      simp only [typed_unary_eq_ok_iff, UnaryOp.kindOf_eq_ok_iff, expression?,
        Option.map_eq_some_iff]
      constructor
      · rintro ⟨kind, x, operandKind, hoperand, ⟨htakes, -⟩, rfl⟩
        obtain ⟨hx, hxWell⟩ := ih.mp ⟨operandKind, hoperand⟩
        rw [← kindIn_of_typed hoperand] at htakes
        exact ⟨⟨x, hx, rfl⟩, .unary hxWell htakes⟩
      · rintro ⟨⟨x, hx, rfl⟩, hwell⟩
        cases hwell with
        | unary hxWell htakes =>
            obtain ⟨operandKind, hoperand⟩ := ih.mpr ⟨hx, hxWell⟩
            rw [kindIn_of_typed hoperand] at htakes
            exact ⟨_, x, operandKind, hoperand, ⟨htakes, rfl⟩, rfl⟩

/-- A formula is typed exactly if it is resolved and the kinds of its operands
and arguments, as they are computed from the stored expression, are taken; its
kind is then the kind that is computed from the stored expression. -/
theorem typed_eq_ok_iff {t : Tree} {e : Expression} {kind : ValueKind} :
    t.typed ctx = .ok (e, kind) ↔
      t.expression? = some e ∧ e.WellKinded ctx ∧ e.kindIn ctx = kind := by
  constructor
  · intro h
    obtain ⟨hexpression, hwell⟩ := exists_typed_eq_ok_iff.mp ⟨kind, h⟩
    exact ⟨hexpression, hwell, kindIn_of_typed h⟩
  · rintro ⟨hexpression, hwell, rfl⟩
    obtain ⟨kind, h⟩ := exists_typed_eq_ok_iff.mpr ⟨hexpression, hwell⟩
    rw [h, kindIn_of_typed h]

end Tree

end TableQuery
