import TableQuery.Proofs.Decimal.Text
import TableQuery.Proofs.Except
import TableQuery.Proofs.Expression
import TableQuery.Proofs.Json.Members
import TableQuery.Wire.Expression

/-!
# Stored expressions read back

An expression reads back from its stored form as it is, but for the signs of its
zeros.  The operands of a chain are stored flat and joined again from the left,
so the induction carries a statement about chains along with the one about whole
expressions.
-/

namespace TableQuery

/-! ## What can be stored -/

def Identifier.Fits : Identifier → Prop
  | field id => id < Word.size64
  | foreign key id => key < Word.size64 ∧ id < Word.size64
  | customColumn _ | stageColumn _ _ => True
  | aggregation index => index < Word.size64

namespace Expression

mutual

/-- Whether all calls have as many arguments as their functions accept, and
nothing is unrecognized. -/
def Recognized : Expression → Prop
  | number _ | string _ | column _ => True
  | call function args => function.acceptsArgCount args.length = true ∧
    ArgsRecognized args
  | binary _ left right => Recognized left ∧ Recognized right
  | unary _ operand => Recognized operand
  | unrecognized _ => False

def ArgsRecognized : List Expression → Prop
  | [] => True
  | arg :: args => Recognized arg ∧ ArgsRecognized args

end

theorem argsRecognized_iff {args : List Expression} :
    ArgsRecognized args ↔ ∀ arg ∈ args, arg.Recognized := by
  induction args with
  | nil => simp [ArgsRecognized]
  | cons arg args ih => simp [ArgsRecognized, ih]

/-- Whether the stored form of an expression tells it: a form without meaning
has none wherever it stands. -/
inductive Readable : Expression → Prop
  | number (value : Decimal) : Readable (.number value)
  | string (value : String) : Readable (.string value)
  | column {id : Identifier} (hfits : id.Fits) : Readable (.column id)
  | call {function : Function} {args : List Expression}
      (hcount : function.acceptsArgCount args.length = true)
      (hargs : ∀ arg ∈ args, Readable arg) :
      Readable (.call function args)
  | binary (op : BinaryOp) {left right : Expression} (hleft : Readable left)
      (hright : Readable right) : Readable (.binary op left right)
  | unary (op : UnaryOp) {operand : Expression} (hoperand : Readable operand) :
      Readable (.unary op operand)
  | unrecognized {stored : Json} (hkeys : stored.DistinctKeys)
      (hstored : ∀ path, Wire.expressionOfJson path stored =
        .ok (.unrecognized stored)) :
      Readable (.unrecognized stored)

theorem Recognized.readable {e : Expression} (h : e.Recognized)
    (hfits : ∀ id ∈ e.identifiers, id.Fits) : e.Readable := by
  induction e using Expression.induct with
  | number value => exact .number value
  | string value => exact .string value
  | column id => exact .column (hfits id List.mem_cons_self)
  | call function args ih =>
      obtain ⟨hcount, hargs⟩ := h
      rw [argsRecognized_iff] at hargs
      rw [identifiers, argIdentifiers_eq_flatMap] at hfits
      exact .call hcount fun arg harg =>
        ih arg harg (hargs arg harg) fun id hid =>
        hfits id (List.mem_flatMap.mpr ⟨arg, harg, hid⟩)
  | binary op left right ihLeft ihRight =>
      rw [identifiers, List.forall_mem_append] at hfits
      exact .binary op (ihLeft h.1 hfits.1) (ihRight h.2 hfits.2)
  | unary op operand ih => exact .unary op (ih h hfits)
  | unrecognized stored => exact h.elim

/-! ## What is told -/

mutual

def reread : Expression → Expression
  | number value => number value.reread
  | call function args => call function (argsReread args)
  | binary op left right => binary op (reread left) (reread right)
  | unary op operand => unary op (reread operand)
  | string value => string value
  | column id => column id
  | unrecognized stored => unrecognized stored

def argsReread : List Expression → List Expression
  | [] => []
  | arg :: args => reread arg :: argsReread args

end

theorem argsReread_eq_map (args : List Expression) :
    argsReread args = args.map reread := by
  induction args with
  | nil => rfl
  | cons arg args ih => rw [argsReread, ih, List.map_cons]

theorem sameArgs_map {f : Expression → Expression} {args : List Expression}
    (h : ∀ arg ∈ args, (f arg).same arg = true) :
    sameArgs (args.map f) args = true := by
  induction args with
  | nil => rfl
  | cons arg args ih =>
      obtain ⟨hfirst, hrest⟩ := List.forall_mem_cons.mp h
      rw [List.map_cons, sameArgs, hfirst, ih hrest, Bool.and_self]

theorem Readable.same_reread {e : Expression} (h : e.Readable) :
    e.reread.same e = true := by
  induction h with
  | number value => exact value.sameValue_reread
  | string value => exact beq_self_eq_true value
  | column _ => exact beq_self_eq_true _
  | call _ _ ih =>
      rw [reread, argsReread_eq_map, same, sameArgs_map ih, beq_self_eq_true,
        Bool.and_self]
  | binary op _ _ ihLeft ihRight =>
      rw [reread, same, ihLeft, ihRight, beq_self_eq_true, Bool.and_self,
        Bool.and_self]
  | unary op _ ih => rw [reread, same, ih, beq_self_eq_true, Bool.and_self]
  | unrecognized hkeys _ => exact Json.same_self hkeys

end Expression

namespace Wire

/-! ## Numbers -/

theorem isDigit_or_mem_toChars {d : Decimal} {c : Char} (h : c ∈ d.toChars) :
    c.isDigit = true ∨ c = '-' ∨ c = '.' := by
  have habs : ∀ c ∈ d.abs.toChars, c.isDigit = true ∨ c = '.' := by
    obtain ⟨whole, fraction, htext, -, -, hdigits⟩ := d.exists_abs_toChars
    intro c hc
    have hdigit : c ∈ whole ++ fraction → c.isDigit = true :=
      fun hmem => Decimal.isDigit_of_mem_digits (hdigits ▸ hmem)
    rw [htext, List.mem_append] at hc
    obtain hwhole | hrest := hc
    · exact .inl (hdigit (List.mem_append_left fraction hwhole))
    · split at hrest
      · exact absurd hrest List.not_mem_nil
      · obtain rfl | hfraction := List.mem_cons.mp hrest
        · exact .inr rfl
        · exact .inl (hdigit (List.mem_append_right whole hfraction))
  cases hnegative : d.negative with
  | true =>
      rw [Decimal.toChars_of_negative hnegative] at h
      obtain rfl | hmem := List.mem_cons.mp h
      · exact .inr (.inl rfl)
      · exact (habs c hmem).imp_right .inr
  | false =>
      rw [Decimal.toChars_of_not_negative hnegative] at h
      exact (habs c h).imp_right .inr

theorem exactDecimal?_render (d : Decimal) :
    exactDecimal? d.render = some d.reread := by
  have hplain : d.toChars.dropWhile (fun c => !(c == 'e' || c == 'E')) =
      [] := by
    rw [List.dropWhile_eq_nil_iff]
    intro c hc
    obtain hdigit | rfl | rfl := isDigit_or_mem_toChars hc
    · have he : c ≠ 'e' := by
        rintro rfl
        exact absurd hdigit (by decide)
      have hE : c ≠ 'E' := by
        rintro rfl
        exact absurd hdigit (by decide)
      simp [he, hE]
    · decide
    · decide
  rw [exactDecimal?, exactDecimal, Decimal.render, String.toList_ofList]
  dsimp only
  rw [hplain]
  dsimp only
  rw [d.ofChars?_toChars]
  rfl

/-! ## Columns -/

def referenceTags : List String :=
  ["field-id", "fk->", "expression", "field-literal", "aggregation"]

theorem identifier?_taggedArray {tag : String} (h : tag ∉ referenceTags)
    (path : String) (args : List Json) :
    identifier? path (taggedArray tag args) = .ok none := by
  have hcontains : referenceTags.contains tag = false := by simpa using h
  simp only [referenceTags, List.mem_cons, List.not_mem_nil,
    or_false, not_or] at h
  obtain ⟨hfield, hforeign, hexpression, hliteral, haggregation⟩ := h
  simp only [identifier?, taggedArray, tagged?]
  split
  case h_1 => exact absurd rfl hfield
  case h_2 => exact absurd rfl hforeign
  case h_3 => exact absurd rfl hexpression
  case h_4 => exact absurd rfl hliteral
  case h_5 => exact absurd rfl haggregation
  case h_6 =>
      exact if_neg
        (by rw [← referenceTags, hcontains]; exact Bool.false_ne_true)

theorem fieldId_taggedArray {n : Nat} (h : n < Word.size64) (path : String) :
    fieldId path (taggedArray "field-id" [.ofNat n]) = .ok n := by
  simp only [fieldId, taggedArray, tagged?, Json.nat64?_ofNat h]

theorem ofBaseType?_baseType (kind : ValueKind) :
    ValueKind.ofBaseType? kind.baseType = some kind := by
  cases kind with
  | temporal shape => cases shape <;> rfl
  | _ => rfl

theorem identifier?_identifierToJson {id : Identifier} (h : id.Fits)
    (path : String) :
    identifier? path (identifierToJson id) = .ok (some id) := by
  cases id with
  | field id =>
      have hread := fieldId_taggedArray h path
      change (fieldId path (taggedArray "field-id" [.ofNat id])) >>= _ = _
      rw [hread]
      rfl
  | foreign key id =>
      have hkey := fieldId_taggedArray h.1 path
      have hread := fieldId_taggedArray h.2 path
      change fieldId path (taggedArray "field-id" [.ofNat key]) >>= _ = _
      rw [hkey]
      change fieldId path (taggedArray "field-id" [.ofNat id]) >>= _ = _
      rw [hread]
      rfl
  | customColumn name => rfl
  | stageColumn name kind =>
      change Except.ok (some (Identifier.stageColumn name
        ((ValueKind.ofBaseType? kind.baseType).getD .unknown))) = _
      rw [ofBaseType?_baseType]
      rfl
  | aggregation index =>
      simp only [identifier?, identifierToJson, taggedArray, tagged?,
        Json.nat64?_ofNat h]

/-! ## Tags -/

theorem unaryTag_not_mem (op : UnaryOp) : unaryTag op ∉ referenceTags := by
  cases op <;> decide

theorem binaryTag_not_mem (op : BinaryOp) : op.wireTag ∉ referenceTags := by
  cases op <;> decide

theorem binaryTag_ne_not (op : BinaryOp) : op.wireTag ≠ "not" := by
  cases op <;> decide

theorem ofWireTag?_binaryTag (op : BinaryOp) :
    BinaryOp.ofWireTag? op.wireTag = some op := by
  cases op <;> rfl

theorem functionTag_not_mem (function : Function) :
    function.wireTag ∉ referenceTags := by
  cases function <;> decide

theorem functionTag_ne_minus (function : Function) :
    function.wireTag ≠ "-" := by
  cases function <;> decide

theorem functionTag_ne_not (function : Function) :
    function.wireTag ≠ "not" := by
  cases function <;> decide

theorem ofWireTag?_functionTag (function : Function) :
    BinaryOp.ofWireTag? function.wireTag = none ∧
      Function.ofWireTag? function.wireTag = some function := by
  cases function <;> exact ⟨rfl, rfl⟩

/-! ## One node -/

variable {path : String}

theorem argsOfJson_eq_mapM (args : List Json) :
    argsOfJson path args = args.mapM (expressionOfJson path) := by
  induction args with
  | nil => rfl
  | cons arg args ih => rw [argsOfJson, ih, List.mapM_cons]

theorem length_argsOfJson {args : List Json} {es : List Expression}
    (h : argsOfJson path args = .ok es) : args.length = es.length := by
  rw [argsOfJson_eq_mapM, mapM_eq_ok_iff] at h
  exact h.length_eq

theorem expressionOfJson_unary {op : UnaryOp} {j : Json} {e : Expression}
    (h : expressionOfJson path j = .ok e) :
    expressionOfJson path (taggedArray (unaryTag op) [j]) =
      .ok (.unary op e) := by
  have hnone := identifier?_taggedArray (unaryTag_not_mem op) path [j]
  have hargs : argsOfJson path [j] = .ok [e] := by
    rw [argsOfJson, h]
    rfl
  unfold taggedArray at hnone ⊢
  rw [expressionOfJson, hnone]
  cases op with
  | neg =>
      change argsOfJson path [j] >>= _ = _
      rw [hargs]
      rfl
  | not =>
      change argsOfJson path [j] >>= _ = _
      rw [hargs]
      rfl

theorem expressionOfJson_binary {op : BinaryOp} {args : List Json}
    {first second : Expression} {more : List Expression}
    (h : argsOfJson path args = .ok (first :: second :: more))
    (hmore : more = [] ∨ isVariadic op = true) :
    expressionOfJson path (taggedArray op.wireTag args) =
      .ok (foldOperands op first (second :: more)) := by
  have hnone := identifier?_taggedArray (binaryTag_not_mem op) path args
  have hlength : args.length ≠ 1 := by
    rw [length_argsOfJson h]
    simp
  have hcount : ¬(!isVariadic op && !more.isEmpty) = true := by
    obtain rfl | hvariadic := hmore
    · simp
    · simp [hvariadic]
  unfold taggedArray at hnone ⊢
  rw [expressionOfJson, hnone]
  change (if _ then _ else if _ then _ else _) = _
  rw [if_neg (by simp [hlength]), if_neg (binaryTag_ne_not op),
    ofWireTag?_binaryTag]
  change argsOfJson path args >>= _ = _
  rw [h]
  exact if_neg hcount

theorem expressionOfJson_call {function : Function} {args : List Json}
    {es : List Expression} (h : argsOfJson path args = .ok es)
    (hcount : function.acceptsArgCount es.length = true) :
    expressionOfJson path (taggedArray function.wireTag args) =
      .ok (.call function es) := by
  have hnone := identifier?_taggedArray (functionTag_not_mem function) path args
  obtain ⟨hbinary, hfunction⟩ := ofWireTag?_functionTag function
  unfold taggedArray at hnone ⊢
  rw [expressionOfJson, hnone]
  change (if _ then _ else if _ then _ else _) = _
  rw [if_neg (by simp [functionTag_ne_minus]),
    if_neg (functionTag_ne_not function), hbinary]
  dsimp only
  rw [hfunction]
  dsimp only
  rw [length_argsOfJson h, if_pos hcount, h]
  rfl

theorem expressionOfJson_identifierToJson {id : Identifier} (h : id.Fits) :
    expressionOfJson path (identifierToJson id) = .ok (.column id) := by
  have hsome := identifier?_identifierToJson h path
  cases id <;>
  · simp only [identifierToJson, taggedArray] at hsome ⊢
    rw [expressionOfJson, hsome]
    rfl

/-! ## Whole expressions -/

/-- What is stored of the left operand of a chain reads back as operands that
join to it. -/
def ChainReadsBack (path : String) (op : BinaryOp) (e : Expression) : Prop :=
  ∃ first more, argsOfJson path (chainOperands op e (expressionToJson e)) = .ok
    (first :: more) ∧ foldOperands op first more = e.reread

structure ReadsBack (path : String) (e : Expression) : Prop where
  whole : expressionOfJson path (expressionToJson e) = .ok e.reread
  chain : ∀ op : BinaryOp, op.isLogical = true → ChainReadsBack path op e

theorem chainReadsBack_of_whole {op : BinaryOp} {e : Expression}
    (h : expressionOfJson path (expressionToJson e) = .ok e.reread)
    (hchain : chainOperands op e (expressionToJson e) = [expressionToJson e]) :
    ChainReadsBack path op e := by
  refine ⟨e.reread, [], ?_, rfl⟩
  rw [hchain, argsOfJson, h]
  rfl

theorem ReadsBack.of_whole {e : Expression}
    (h : expressionOfJson path (expressionToJson e) = .ok e.reread)
    (hchain : ∀ op, chainOperands op e (expressionToJson e) =
      [expressionToJson e]) :
    ReadsBack path e :=
  ⟨h, fun op _ => chainReadsBack_of_whole h (hchain op)⟩

theorem argsOfJson_append {as bs : List Json} {es es' : List Expression}
    (has : argsOfJson path as = .ok es) (hbs : argsOfJson path bs = .ok es') :
    argsOfJson path (as ++ bs) = .ok (es ++ es') := by
  rw [argsOfJson_eq_mapM] at has hbs ⊢
  rw [List.mapM_append, has, hbs]
  rfl

theorem argsOfJson_argsToJson {args : List Expression}
    (h : ∀ arg ∈ args, ReadsBack path arg) :
    argsOfJson path (argsToJson args) = .ok (args.map Expression.reread) := by
  induction args with
  | nil => rfl
  | cons arg args ih =>
      obtain ⟨hfirst, hrest⟩ := List.forall_mem_cons.mp h
      rw [argsToJson, argsOfJson, hfirst.whole, ih hrest]
      rfl

theorem exists_argsOfJson_append {op : BinaryOp} {left right : Expression}
    (hleft : ChainReadsBack path op left) (hright : ReadsBack path right) :
    ∃ first more,
      argsOfJson path (chainOperands op left (expressionToJson left) ++
        [expressionToJson right]) =
        .ok (first :: (more ++ [right.reread])) ∧
      foldOperands op first (more ++ [right.reread]) =
        (Expression.binary op left right).reread := by
  obtain ⟨first, more, hargs, hfold⟩ := hleft
  have hlast : argsOfJson path [expressionToJson right] =
      .ok [right.reread] := by
    rw [argsOfJson, hright.whole]
    rfl
  refine ⟨first, more, argsOfJson_append hargs hlast, ?_⟩
  rw [foldOperands] at hfold
  rw [foldOperands, List.foldl_append, hfold]
  rfl

theorem isVariadic_of_isLogical {op : BinaryOp} (h : op.isLogical = true) :
    isVariadic op = true := by
  cases op <;> first | rfl | cases h

theorem expressionOfJson_binary_of_operands {op : BinaryOp}
    {left right : Expression} (hleft : ReadsBack path left)
    (hright : ReadsBack path right) :
    expressionOfJson path (expressionToJson (.binary op left right)) =
      .ok (Expression.binary op left right).reread := by
  by_cases hlogical : op.isLogical = true
  · obtain ⟨first, more, hargs, hfold⟩ :=
      exists_argsOfJson_append (hleft.chain op hlogical) hright
    obtain ⟨second, rest, heq⟩ :=
      List.exists_cons_of_ne_nil (List.concat_ne_nil right.reread more)
    rw [heq] at hargs hfold
    rw [expressionToJson, if_pos hlogical, ← hfold]
    exact expressionOfJson_binary hargs
      (.inr (isVariadic_of_isLogical hlogical))
  · have hargs : argsOfJson path [expressionToJson left,
      expressionToJson right] =
        .ok [left.reread, right.reread] := by
      rw [argsOfJson, argsOfJson, hleft.whole, hright.whole]
      rfl
    rw [expressionToJson, if_neg hlogical]
    exact expressionOfJson_binary hargs (.inl rfl)

theorem readsBack_binary {op : BinaryOp} {left right : Expression}
    (hleft : ReadsBack path left) (hright : ReadsBack path right) :
    ReadsBack path (.binary op left right) := by
  have hwhole :=
    @expressionOfJson_binary_of_operands path op left right hleft hright
  refine ⟨hwhole, fun op' hlogical => ?_⟩
  by_cases hop : op = op'
  · subst hop
    obtain ⟨first, more, hargs, hfold⟩ :=
      exists_argsOfJson_append (hleft.chain op hlogical) hright
    refine ⟨first, more ++ [right.reread], ?_, hfold⟩
    rw [expressionToJson, if_pos hlogical, taggedArray, chainOperands,
      if_pos rfl]
    exact hargs
  · refine chainReadsBack_of_whole hwhole ?_
    rw [expressionToJson, taggedArray, chainOperands, if_neg hop]

/-- The induction is over the expression; a chain needs its statement for the
left operand. -/
theorem readsBack {e : Expression} (h : e.Readable) : ReadsBack path e := by
  induction h with
  | number value =>
      refine .of_whole ?_ fun op => rfl
      rw [expressionToJson, expressionOfJson, exactDecimal?_render]
      rfl
  | string value => exact .of_whole rfl fun op => rfl
  | column hfits =>
      exact .of_whole (expressionOfJson_identifierToJson hfits) fun op => rfl
  | call hcount _ ih =>
      refine .of_whole ?_ fun op => rfl
      rw [Expression.reread, Expression.argsReread_eq_map]
      refine expressionOfJson_call (argsOfJson_argsToJson ih) ?_
      rwa [List.length_map]
  | binary op _ _ ihLeft ihRight => exact readsBack_binary ihLeft ihRight
  | unary op _ ih =>
      exact .of_whole (expressionOfJson_unary ih.whole) fun op => rfl
  | unrecognized _ hstored => exact .of_whole (hstored path) fun op => rfl

end Wire

end TableQuery
