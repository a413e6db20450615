import TableQuery.Proofs.Compilation.Typing
import TableQuery.Proofs.Evaluation.Failure

/-!
# Values have their kinds

Typing gives an expression a kind, and evaluation gives it a value in a row.
Where the columns of a row hold values of their kinds, every operator and every
function gives a value of the kind that typing says, except for `coalesce`,
which takes the kind of its first argument and the value of any of them.
-/

namespace TableQuery

/-! ## Cells of a kind -/

/-- Whether a cell may stand in a column of a kind: a column of any kind may
hold nulls. -/
def ValueKind.holds : ValueKind → Cell → Bool
  | unknown, _ | _, .null => true
  | numeric, .number _ => true
  | text, .string _ => true
  | boolean, .boolean _ => true
  | temporal _, .temporal _ => true
  | _, _ => false

@[simp] theorem ValueKind.holds_null (kind : ValueKind) :
    kind.holds .null = true := by
  cases kind <;> rfl

@[simp] theorem ValueKind.holds_unknown (cell : Cell) :
    unknown.holds cell = true := by
  cases cell <;> rfl

@[simp] theorem ValueKind.holds_number (n : Decimal) :
    numeric.holds (.number n) = true := rfl

@[simp] theorem ValueKind.holds_string (s : String) :
    text.holds (.string s) = true := rfl

@[simp] theorem ValueKind.holds_boolean (b : Bool) :
    boolean.holds (.boolean b) = true := rfl

def Yields (kind : ValueKind) (x : Except EvaluationError Cell) : Prop :=
  ∀ cell, x = .ok cell → kind.holds cell

namespace Yields

variable {α : Type} {kind : ValueKind}

@[simp] theorem ok_iff {cell : Cell} :
    Yields kind (.ok cell) ↔ kind.holds cell := by
  simp [Yields]

@[simp] theorem pure_iff {cell : Cell} : Yields kind (pure cell) ↔
    kind.holds cell := ok_iff

@[simp] theorem error (e : EvaluationError) : Yields kind (.error e) := by
  simp [Yields]

@[simp] theorem bind_iff {x : Except EvaluationError α}
    {f : α → Except EvaluationError Cell} :
    Yields kind (x >>= f) ↔ ∀ a, x = .ok a → Yields kind (f a) := by
  cases x with
  | error e => simp [Yields, Bind.bind, Except.bind]
  | ok a => simp [Yields, Bind.bind, Except.bind]

@[simp] theorem map_iff {x : Except EvaluationError α} {f : α → Cell} :
    Yields kind (f <$> x) ↔ ∀ a, x = .ok a → kind.holds (f a) := by
  cases x with
  | error e => simp [Yields, Functor.map, Except.map]
  | ok a => simp [Yields, Functor.map, Except.map]

@[simp] theorem map_number (x : Except EvaluationError Decimal) :
    Yields .numeric (x.map Cell.number) := by
  cases x <;> simp [Except.map]

@[simp] theorem ite_iff {c : Prop} [Decidable c]
    {x y : Except EvaluationError Cell} :
    Yields kind (if c then x else y) ↔
      (c → Yields kind x) ∧ (¬c → Yields kind y) := by
  split <;> simp_all

end Yields

/-! ## Operators and functions -/

def BinaryOp.resultKind (op : BinaryOp) : ValueKind :=
  if op.isArithmetic then .numeric else .boolean

def UnaryOp.resultKind : UnaryOp → ValueKind
  | neg => .numeric
  | not => .boolean

namespace Scalar

@[simp] theorem holds_ofTruth (b : Option Bool) :
    ValueKind.boolean.holds (ofTruth b) := by
  cases b <;> rfl

theorem arithmetic_yields (op : BinaryOp) (a b : Decimal) :
    Yields .numeric (arithmetic op a b) := by
  cases op <;> simp [arithmetic]

theorem applyBinary_yields (op : BinaryOp) (left right : Cell) :
    Yields op.resultKind (applyBinary op left right) := by
  unfold BinaryOp.resultKind
  by_cases harithmetic : op.isArithmetic
  · have hlogical : op.isLogical = false := by
      cases op <;> first | rfl | cases harithmetic
    have hcomparison : op.isComparison = false := by
      cases op <;> first | rfl | cases harithmetic
    cases left <;> cases right <;>
      simp [applyBinary, harithmetic, hlogical, hcomparison, arithmetic_yields]
  · by_cases hlogical : op.isLogical
    · simp [applyBinary, harithmetic, hlogical]
    · have hcomparison : op.isComparison = true := by
        cases op <;>
          first | rfl | exact absurd rfl harithmetic | exact absurd rfl hlogical
      simp [applyBinary, harithmetic, hlogical, hcomparison]

theorem applyUnary_yields (op : UnaryOp) (operand : Cell) :
    Yields op.resultKind (applyUnary op operand) := by
  cases op with
  | neg => cases operand <;> simp [applyUnary, UnaryOp.resultKind]
  | not => simp [applyUnary, UnaryOp.resultKind]

theorem extract_yields (cs pattern : List Char) :
    Yields .text (extract cs pattern) := by
  unfold extract
  split
  · exact Yields.error _
  · split <;> simp

theorem applyToValues_yields {f : Function} {kind : ValueKind}
    (hreturns : f.returns = .kind kind) (args : List Cell) :
    Yields kind (applyToValues f args) := by
  cases f <;> cases hreturns <;> simp [applyToValues, ofChars]
  case length => exact fun cs _ => rfl
  case regexExtract => exact fun cs _ pattern _ => extract_yields cs pattern
  case sqrt =>
      intro n _
      split <;> simp

theorem applyFunction_yields {f : Function} {kind : ValueKind}
    (hreturns : f.returns = .kind kind) (args : List Cell) :
    Yields kind (applyFunction f args) := by
  unfold applyFunction
  split
  case h_1 result hresult =>
      cases f <;> simp only [nullAware?, Option.some.injEq, reduceCtorEq]
        at hresult
      case coalesce => cases hreturns
      all_goals
        cases hreturns
        subst hresult
        simp [ofChars]
  case h_2 => simp [applyToValues_yields hreturns]

end Scalar

theorem Function.returns_of_scalar {f : Function} (hf : f.isAggregate = false)
    (hcoalesce : f ≠ .coalesce) (first : ValueKind) :
    f.returns = .kind (f.resultKind first) := by
  cases f <;> first | rfl | exact absurd rfl hcoalesce | cases hf

/-! ## Expressions -/

namespace Expression

mutual

/-- The expressions whose value an expression takes over: what its outermost
calls of `coalesce` choose from. -/
def alternatives : Expression → List Expression
  | call .coalesce (arg :: args) => alternatives arg ++ argAlternatives args
  | e => [e]

def argAlternatives : List Expression → List Expression
  | [] => []
  | arg :: args => alternatives arg ++ argAlternatives args

end

theorem argAlternatives_eq_flatMap (args : List Expression) :
    argAlternatives args = args.flatMap alternatives := by
  induction args with
  | nil => rfl
  | cons arg args ih => rw [argAlternatives, ih, List.flatMap_cons]

theorem alternatives_coalesce {args : List Expression} (h : args ≠ []) :
    (call .coalesce args).alternatives = args.flatMap alternatives := by
  cases args with
  | nil => exact absurd rfl h
  | cons arg args =>
      rw [alternatives, argAlternatives_eq_flatMap, List.flatMap_cons]

theorem alternatives_call {f : Function} (h : f ≠ .coalesce)
    (args : List Expression) : (call f args).alternatives = [call f args] := by
  cases f <;> first | rfl | exact absurd rfl h

theorem alternatives_eq_singleton {e : Expression}
    (h : ¬ ∃ args, e = .call .coalesce args) : e.alternatives = [e] := by
  cases e with
  | call f args => exact alternatives_call (fun hf => h ⟨args, by rw [hf]⟩) args
  | _ => rfl

theorem alternatives_ne_nil (e : Expression) : e.alternatives ≠ [] := by
  induction e using induct with
  | call f args ih =>
      by_cases hf : f = .coalesce
      · subst hf
        cases args with
        | nil => simp [alternatives]
        | cons arg args =>
            have harg := ih arg List.mem_cons_self
            simp [alternatives, harg]
      · simp [alternatives_call hf]
  | _ => simp [alternatives]

end Expression

namespace Database

variable {db : Database} {row : Row} {ctx : Context}

/-- A call of `coalesce` takes over the value of an argument, or is null like
all of them. -/
theorem exists_alternative_of_coalesce {args : List Expression}
    {cells : List Cell} {cell : Cell}
    (hcells : args.mapM (db.evalRow row) = .ok cells)
    (h : Scalar.applyFunction .coalesce cells = .ok cell)
    (hargs : ∀ arg ∈ args, ∀ cell, db.evalRow row arg = .ok cell →
      ∃ a ∈ arg.alternatives, (a.kindIn ctx).holds cell) :
    ∃ a ∈ (Expression.call .coalesce args).alternatives,
    (a.kindIn ctx).holds cell := by
  have hcell : (cells.find? (!·.isNull)).getD .null = cell := by
    simpa [Scalar.applyFunction, Scalar.nullAware?] using h
  cases args with
  | nil => exact ⟨_, List.mem_singleton_self _, ValueKind.holds_unknown cell⟩
  | cons arg args =>
      rw [Expression.alternatives_coalesce (List.cons_ne_nil arg args)]
      cases hfind : cells.find? (!·.isNull) with
      | none =>
          rw [hfind] at hcell
          obtain ⟨a, ha⟩ := List.exists_mem_of_ne_nil _ arg.alternatives_ne_nil
          refine ⟨a, List.mem_flatMap.mpr ⟨arg, List.mem_cons_self, ha⟩, ?_⟩
          rw [← hcell]
          exact ValueKind.holds_null _
      | some found =>
          rw [hfind] at hcell
          obtain ⟨chosen, hchosen, heval⟩ :=
            exists_of_mem_mapM hcells (List.mem_of_find?_eq_some hfind)
          obtain ⟨a, ha, hholds⟩ := hargs chosen hchosen found heval
          exact ⟨a, List.mem_flatMap.mpr ⟨chosen, hchosen, ha⟩, hcell ▸ hholds⟩

theorem exists_alternative_of_evalRow {e : Expression}
    (hcolumns : ∀ id ∈ e.identifiers, Yields (id.kindIn ctx) (db.value row id))
    {cell : Cell} (h : db.evalRow row e = .ok cell) :
    ∃ a ∈ e.alternatives, (a.kindIn ctx).holds cell := by
  induction e using Expression.induct generalizing cell with
  | number value =>
      cases h
      exact ⟨_, List.mem_singleton_self _, rfl⟩
  | string value =>
      cases h
      exact ⟨_, List.mem_singleton_self _, rfl⟩
  | column id =>
      exact ⟨_, List.mem_singleton_self _,
        hcolumns id List.mem_cons_self cell h⟩
  | call f args ih =>
      rw [Expression.identifiers, Expression.argIdentifiers_eq_flatMap]
        at hcolumns
      have hargs : ∀ arg ∈ args, ∀ id ∈ arg.identifiers,
          Yields (id.kindIn ctx) (db.value row id) :=
        fun arg harg id hid =>
          hcolumns id (List.mem_flatMap.mpr ⟨arg, harg, hid⟩)
      rw [evalRow] at h
      split at h
      case isTrue => cases h
      case isFalse hscalar =>
          obtain ⟨cells, hcells, happly⟩ := bind_eq_ok_iff.mp h
          rw [evalArgs_eq_mapM] at hcells
          by_cases hf : f = .coalesce
          · subst hf
            exact exists_alternative_of_coalesce hcells happly
              fun arg harg cell hcell => ih arg harg (hargs arg harg) hcell
          · rw [Expression.alternatives_call hf]
            refine ⟨_, List.mem_singleton_self _, ?_⟩
            have hreturns :=
              Function.returns_of_scalar (by simpa using hscalar) hf
            cases args with
            | nil =>
                exact Scalar.applyFunction_yields
                  (hreturns .unknown) cells cell happly
            | cons arg args =>
                exact Scalar.applyFunction_yields (hreturns (arg.kindIn ctx))
                  cells cell happly
  | binary op left right _ _ =>
      obtain ⟨a, -, h⟩ := bind_eq_ok_iff.mp h
      obtain ⟨b, -, h⟩ := bind_eq_ok_iff.mp h
      exact ⟨_, List.mem_singleton_self _,
        Scalar.applyBinary_yields op a b cell h⟩
  | unary op operand _ =>
      obtain ⟨a, -, h⟩ := bind_eq_ok_iff.mp h
      refine ⟨_, List.mem_singleton_self _, ?_⟩
      have hyields := Scalar.applyUnary_yields op a cell h
      cases op <;> exact hyields
  | unrecognized stored => cases h

end Database

/-! ## Formulas -/

theorem BinaryOp.kindOf_eq_ok {op : BinaryOp} {left right kind : ValueKind}
    (h : op.kindOf left right = .ok kind) : kind = op.resultKind := by
  unfold BinaryOp.kindOf at h
  unfold BinaryOp.resultKind
  split at h
  case isTrue harithmetic =>
      rw [if_pos harithmetic]
      split at h <;> cases h
      rfl
  case isFalse harithmetic =>
      rw [if_neg harithmetic]
      split at h
      · split at h <;> cases h
        rfl
      · split at h <;> cases h
        rfl

theorem UnaryOp.kindOf_eq_ok {op : UnaryOp} {operand kind : ValueKind}
    (h : op.kindOf operand = .ok kind) : kind = op.resultKind := by
  cases op <;> simp only [UnaryOp.kindOf] at h <;> split at h <;>
    cases h <;> rfl

theorem Tree.kindIn_of_typed {ctx : Context} {t : Tree} {e : Expression}
    {kind : ValueKind} (h : t.typed ctx = .ok (e, kind)) :
    e.kindIn ctx = kind := by
  induction t using induct generalizing e kind with
  | number value span =>
      cases h
      rfl
  | string value span =>
      cases h
      rfl
  | reference name target span =>
      cases target with
      | none => cases h
      | some id =>
          cases h
          rfl
  | call name args span ih =>
      unfold typed at h
      split at h
      case h_1 => cases h
      case h_2 function hfunction =>
          split at h
          case h_1 => cases h
          case h_2 results hresults =>
              cases h
              cases (typedArgs_eq_ok_iff.mp hresults).1 with
              | nil => rfl
              | cons harg hrest =>
                  rename_i arg result args results
                  have hfirst : result.1.kindIn ctx = result.2 :=
                    ih arg List.mem_cons_self harg
                  simp [Expression.kindIn, hfirst]
  | binary op left right span _ _ =>
      obtain ⟨l, leftKind, r, rightKind, -, -, hkind, rfl⟩ :=
        typed_binary_eq_ok_iff.mp h
      exact (BinaryOp.kindOf_eq_ok hkind).symm
  | unary op operand span _ =>
      obtain ⟨x, operandKind, -, hkind, rfl⟩ := typed_unary_eq_ok_iff.mp h
      rw [UnaryOp.kindOf_eq_ok hkind]
      cases op <;> rfl

/-! ## Rows that fit their columns -/

/-- The cells that a row has for the columns of a context are of their kinds. -/
def Database.RowFits (db : Database) (ctx : Context) (row : Row) : Prop :=
  ∀ e ∈ ctx.entries, Yields e.kind (db.value row e.identifier)

theorem Query.kind_of_stageColumn {c : Catalog} {q : Query}
    {position : ClausePosition} {ctx : Context}
    (hctx : q.contextAt c position = .ok ctx) {e : Entry} (he : e ∈ ctx.entries)
    {name : String} {kind : ValueKind}
    (hid : e.identifier = .stageColumn name kind) : kind = e.kind := by
  obtain ⟨source, hsource, hctx⟩ := bind_eq_ok_iff.mp hctx
  rw [pure_eq_ok_iff] at hctx
  rw [← hctx, Stage.contextAt_eq] at he
  rcases Stage.mem_pushAggregations he with hcolumn | ⟨i, -, hi⟩
  · rcases Stage.mem_pushColumns hcolumn with hentry | ⟨c', -, hc'⟩
    · have hisSource := Query.isSource_of_mem_sourceColumns hsource hentry
      simp only [Entry.IsSource, hid] at hisSource
      exact hisSource.2.2
    · rw [hid] at hc'
      cases hc'
  · rw [hid] at hi
    cases hi

theorem Identifier.kindIn_eq {ctx : Context} {id : Identifier}
    (h : ∀ name kind, id ≠ .stageColumn name kind) :
    id.kindIn ctx = ((ctx.lookup id).map Entry.kind).getD .unknown := by
  cases id with
  | stageColumn name kind => exact absurd rfl (h name kind)
  | _ =>
      simp only [kindIn]
      split <;> simp_all

theorem Database.RowFits.yields {db : Database} {ctx : Context} {row : Row}
    (h : db.RowFits ctx row) {c : Catalog} {q : Query}
    {position : ClausePosition} (hctx : q.contextAt c position = .ok ctx)
    {e : Entry} (he : e ∈ ctx.entries) :
    Yields (e.identifier.kindIn ctx) (db.value row e.identifier) := by
  by_cases hstage : ∃ name kind, e.identifier = .stageColumn name kind
  · obtain ⟨name, kind, hid⟩ := hstage
    have hkind : e.identifier.kindIn ctx = e.kind := by
      rw [hid]
      exact Query.kind_of_stageColumn hctx he hid
    rw [hkind]
    exact h e he
  · have hother : ∀ name kind, e.identifier ≠ .stageColumn name kind :=
      fun name kind hid => hstage ⟨name, kind, hid⟩
    rw [Identifier.kindIn_eq hother]
    cases hlookup : ctx.lookup e.identifier with
    | none => exact fun cell _ => ValueKind.holds_unknown cell
    | some found =>
        -- Look-up may find another entry of the same column, for which the row
        -- fits as well.
        have hfound := h found (List.mem_of_find?_eq_some hlookup)
        rwa [Context.identifier_eq_of_isEntryOf hother
          (List.find?_some hlookup)] at hfound

namespace Database

/-- Kinds are sound but for `coalesce`.  The value that a resolved formula has
in a row that fits is of the kind that typing gives the formula, unless this is
a call of `coalesce` and the value that of an alternative, whose kind it has, of
another kind. -/
theorem holds_of_typed {db : Database} {c : Catalog} {q : Query}
    {position : ClausePosition} {ctx : Context}
    (hctx : q.contextAt c position = .ok ctx) {separators : List String}
    {t resolved : Tree} (hresolve : t.resolve ctx separators = .ok resolved)
    {x : Expression} {kind : ValueKind}
    (htyped : resolved.typed ctx = .ok (x, kind)) {row : Row}
    (hrow : db.RowFits ctx row) {cell : Cell}
    (heval : db.evalRow row x = .ok cell) :
    kind.holds cell ∨
      (∃ args, x = .call .coalesce args) ∧
        ∃ a ∈ x.alternatives, a.kindIn ctx ≠ kind ∧
          (a.kindIn ctx).holds cell := by
  have hcolumns : ∀ id ∈ x.identifiers,
      Yields (id.kindIn ctx) (db.value row id) := by
    intro id hid
    rw [(Tree.reflects_of_typed htyped).identifiers] at hid
    obtain ⟨e, he, rfl⟩ := Tree.exists_entry_of_resolve hresolve id hid
    exact hrow.yields hctx he
  obtain ⟨a, ha, hholds⟩ := exists_alternative_of_evalRow hcolumns heval
  by_cases hkind : a.kindIn ctx = kind
  · exact .inl (hkind ▸ hholds)
  · refine .inr ⟨?_, a, ha, hkind, hholds⟩
    -- Any other expression is its only alternative and has the kind of the
    -- formula.
    by_cases hcoalesce : ∃ args, x = .call .coalesce args
    · exact hcoalesce
    · rw [Expression.alternatives_eq_singleton hcoalesce,
        List.mem_singleton] at ha
      rw [ha] at hkind
      exact absurd (Tree.kindIn_of_typed htyped) hkind

/-! ### Amounts that may be missing -/

def payments : Catalog :=
  ⟨[⟨1, "Payments", [⟨10, "Amount", none, .numeric, none⟩]⟩]⟩

def paymentContext : Context :=
  ⟨[⟨"Amount", ["Payments"], .field 10, .numeric⟩]⟩

def withoutTables : Database := ⟨payments, []⟩

theorem rowFits_paymentContext (fields : Record)
    (h : ValueKind.numeric.holds ((Row.ofRecord fields).field 10)) :
    withoutTables.RowFits paymentContext (.ofRecord fields) := by
  intro e he cell hcell
  rw [List.mem_singleton.mp he] at hcell ⊢
  cases hcell
  exact h

/-- A missing amount is replaced by a text, and the formula still counts as a
number. -/
theorem not_forall_holds_of_typed :
    ¬ ∀ (db : Database) (c : Catalog) (q : Query) (position : ClausePosition)
      (ctx : Context) (separators : List String) (t resolved : Tree)
      (x : Expression) (kind : ValueKind) (row : Row) (cell : Cell),
      q.contextAt c position = .ok ctx →
      t.resolve ctx separators = .ok resolved →
      resolved.typed ctx = .ok (x, kind) → kind ≠ .unknown →
      db.RowFits ctx row → db.evalRow row x = .ok cell → kind.holds cell := by
  intro h
  have hholds :=
    h withoutTables payments (.table 1) ⟨.customColumn, 0⟩ paymentContext
    defaultSeparators
    (.call "coalesce" [.reference "Amount" none ⟨9, 17⟩,
      .string "none" ⟨19, 25⟩] ⟨0, 26⟩) _ _ _
    (.ofRecord []) _ rfl rfl rfl (by decide) (rowFits_paymentContext [] rfl) rfl
  cases hholds

theorem holds_of_typed_amountOrZero :
    ∃ cell, withoutTables.evalRow (.ofRecord [])
        (.call .coalesce [.column (.field 10), .number .zero]) = .ok cell ∧
      withoutTables.RowFits paymentContext (.ofRecord []) ∧
      ValueKind.numeric.holds cell := by
  have hcontext : (Query.table 1).contextAt payments ⟨.customColumn, 0⟩ =
      .ok paymentContext := rfl
  have hresolve : (Tree.call "coalesce"
        [.reference "Amount" none ⟨9, 17⟩, .number .zero ⟨19, 20⟩]
        ⟨0, 21⟩).resolve
      paymentContext defaultSeparators =
      .ok (.call "coalesce"
        [.reference "Amount" (some (.field 10)) ⟨9, 17⟩, .number .zero ⟨19, 20⟩]
        ⟨0, 21⟩) := rfl
  have hrow := rowFits_paymentContext [] rfl
  have heval : withoutTables.evalRow (.ofRecord [])
      (.call .coalesce [.column (.field 10), .number .zero]) =
        .ok (.number .zero) := rfl
  refine ⟨_, heval, hrow, ?_⟩
  rcases holds_of_typed hcontext hresolve rfl hrow heval with hholds |
    ⟨-, a, ha, hkind, -⟩
  · exact hholds
  · -- Both alternatives are numbers.
    rcases List.mem_cons.mp ha with rfl | ha
    · exact absurd rfl hkind
    · rw [List.mem_singleton.mp ha] at hkind
      exact absurd rfl hkind

end Database

end TableQuery
