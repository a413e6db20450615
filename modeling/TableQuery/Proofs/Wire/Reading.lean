import TableQuery.Proofs.Wire.Expression
import TableQuery.Proofs.Wire.Number

/-!
# Expressions as they are read

What is read from a document as an expression reads back from its stored form as
it is: its ids fit, its zeros have no sign, and what has no meaning has none
wherever it stands.
-/

namespace TableQuery

/-! ## Settled expressions -/

namespace Expression

/-- An expression that storing and reading again leave as it is. -/
structure Settled (e : Expression) : Prop where
  readable : e.Readable
  reread_eq : e.reread = e

theorem settled_call {function : Function} {args : List Expression}
    (hcount : function.acceptsArgCount args.length = true)
    (hargs : ∀ arg ∈ args, arg.Settled) : (call function args).Settled := by
  refine ⟨.call hcount fun arg harg => (hargs arg harg).readable, ?_⟩
  rw [reread, argsReread_eq_map, List.map_congr_left fun arg harg =>
    (hargs arg harg).reread_eq,
    List.map_id']

theorem settled_binary_iff {op : BinaryOp} {left right : Expression} :
    (binary op left right).Settled ↔ left.Settled ∧ right.Settled := by
  constructor
  · rintro ⟨hreadable, hreread⟩
    rw [reread, binary.injEq] at hreread
    cases hreadable with
    | binary _ hleft hright => exact ⟨⟨hleft, hreread.2.1⟩, hright, hreread.2.2⟩
  · rintro ⟨hleft, hright⟩
    exact ⟨.binary op hleft.readable hright.readable, by
      rw [reread, hleft.reread_eq, hright.reread_eq]⟩

theorem settled_unary {op : UnaryOp} {operand : Expression}
    (h : operand.Settled) : (unary op operand).Settled :=
  ⟨.unary op h.readable, by rw [reread, h.reread_eq]⟩

end Expression

namespace Wire

variable {path : String}

/-! ## Numbers -/

theorem reread_of_ofSigned {n : Int} {scale : Nat} {d : Decimal}
    (h : ofSigned n scale = .ok d) : d.reread = d := by
  obtain ⟨hnegative, hcoefficient, -⟩ := ofSigned_eq_ok_iff.mp h
  rw [Decimal.reread_eq_self_iff, hnegative, hcoefficient, decide_eq_true_eq]
  omega

theorem reread_of_exactDecimal? {text : String} {d : Decimal}
    (h : exactDecimal? text = some d) : d.reread = d := by
  rw [exactDecimal?, toOption_eq_some_iff, exactDecimal] at h
  split at h
  case h_1 => exact Decimal.reread_of_ofChars? (orRefused_eq_ok_iff.mp h)
  case h_2 =>
      obtain ⟨m, -, h⟩ := bind_eq_ok_iff.mp h
      obtain ⟨exponent, -, h⟩ := bind_eq_ok_iff.mp h
      rcases scaleBy_eq_ok_iff.mp h with ⟨_, -, h⟩ | ⟨_, -, -, -, h⟩
      · exact reread_of_ofSigned h
      · exact reread_of_ofSigned h

/-! ## Columns -/

theorem lt_of_fieldId {j : Json} {id : FieldId} (h : fieldId path j = .ok id) :
    id < Word.size64 := by
  unfold fieldId at h
  split at h <;> split at h <;> cases h
  case h_1 hid => exact Json.lt_of_nat64? hid
  case h_1 hid => exact Json.lt_of_nat64? hid

theorem fits_of_identifier? {j : Json} {id : Identifier}
    (h : identifier? path j = .ok (some id)) :
    id.Fits ∧
      (id.aggregationIndex? = none ∨ ∃ index, tagged? j =
        some ("aggregation", [index])) := by
  unfold identifier? at h
  split at h
  case h_1 => cases h
  case h_2 tag args htag =>
      split at h
      case h_1 =>
          obtain ⟨id, hid, h⟩ := bind_eq_ok_iff.mp h
          cases h
          exact ⟨lt_of_fieldId hid, .inl rfl⟩
      case h_2 =>
          obtain ⟨key, hkey, h⟩ := bind_eq_ok_iff.mp h
          obtain ⟨id, hid, h⟩ := bind_eq_ok_iff.mp h
          cases h
          exact ⟨⟨lt_of_fieldId hkey, lt_of_fieldId hid⟩, .inl rfl⟩
      case h_3 =>
          split at h <;> cases h
          exact ⟨trivial, .inl rfl⟩
      case h_4 =>
          split at h <;> cases h
          exact ⟨trivial, .inl rfl⟩
      case h_5 index =>
          split at h <;> cases h
          case h_1 hindex =>
              exact ⟨Json.lt_of_nat64? hindex, .inr ⟨index, htag⟩⟩
      case h_6 => split at h <;> cases h

theorem not_mem_of_identifier? {tag : String} {args : List Json}
    (h : identifier? path (taggedArray tag args) = .ok none) :
    tag ∉ referenceTags := by
  simp only [identifier?, taggedArray, tagged?] at h
  split at h
  case h_1 =>
      obtain ⟨_, -, h⟩ := bind_eq_ok_iff.mp h
      cases h
  case h_2 =>
      obtain ⟨_, -, h⟩ := bind_eq_ok_iff.mp h
      obtain ⟨_, -, h⟩ := bind_eq_ok_iff.mp h
      cases h
  case h_3 => split at h <;> cases h
  case h_4 => split at h <;> cases h
  case h_5 => split at h <;> cases h
  case h_6 =>
      split at h
      case isTrue => cases h
      case isFalse hother => simpa [referenceTags] using hother

/-! ## Expressions -/

inductive TaggedReading (path : String) (tag : String) (args : List Json) :
    Expression → Prop
  | column {id : Identifier}
      (hid : identifier? path (taggedArray tag args) = .ok (some id)) :
      TaggedReading path tag args (.column id)
  | unary (op : UnaryOp) {operand : Expression}
      (hargs : argsOfJson path args = .ok [operand]) :
      TaggedReading path tag args (.unary op operand)
  | chain (op : BinaryOp) {first second : Expression} {more : List Expression}
      (hargs : argsOfJson path args = .ok (first :: second :: more)) :
      TaggedReading path tag args (foldOperands op first (second :: more))
  | call {function : Function} {es : List Expression}
      (hcount : function.acceptsArgCount args.length = true)
      (hargs : argsOfJson path args = .ok es) :
      TaggedReading path tag args (.call function es)
  | unrecognized (hpath : ∀ path, expressionOfJson path (taggedArray tag args) =
        .ok (.unrecognized (taggedArray tag args))) :
      TaggedReading path tag args (.unrecognized (taggedArray tag args))

theorem taggedReading_of_expressionOfJson {tag : String} {args : List Json}
    {e : Expression}
    (h : expressionOfJson path (taggedArray tag args) = .ok e) :
    TaggedReading path tag args e := by
  unfold taggedArray at h
  rw [expressionOfJson] at h
  obtain ⟨id?, hid, h⟩ := bind_eq_ok_iff.mp h
  cases id? with
  | some id =>
      cases h
      exact .column hid
  | none =>
      dsimp only at h
      split at h
      case isTrue hminus =>
          obtain ⟨es, hargs, h⟩ := bind_eq_ok_iff.mp h
          split at h <;> cases h
          exact .unary .neg hargs
      case isFalse hminus =>
          split at h
          case isTrue hnot =>
              split at h
              case isFalse => cases h
              case isTrue =>
                  obtain ⟨es, hargs, h⟩ := bind_eq_ok_iff.mp h
                  split at h <;> cases h
                  exact .unary .not hargs
          case isFalse hnot =>
              split at h
              case h_1 op hop =>
                  obtain ⟨es, hargs, h⟩ := bind_eq_ok_iff.mp h
                  split at h
                  case h_2 => cases h
                  case h_1 =>
                      split at h <;> cases h
                      exact .chain op hargs
              case h_2 hop =>
                  split at h
                  case h_1 function hfunction =>
                      split at h
                      case isFalse => cases h
                      case isTrue hcount =>
                          obtain ⟨es, hargs, h⟩ := bind_eq_ok_iff.mp h
                          cases h
                          exact .call hcount hargs
                  case h_2 hfunction =>
                      cases h
                      refine .unrecognized fun path => ?_
                      have hnone :=
                        identifier?_taggedArray
                          (not_mem_of_identifier? hid) path args
                      unfold taggedArray at hnone ⊢
                      rw [expressionOfJson, hnone]
                      change (if _ then _ else if _ then _ else _) = _
                      rw [if_neg hminus, if_neg hnot, hop]
                      dsimp only
                      rw [hfunction]
                      rfl

theorem tagged_or_unrecognized (items : List Json) :
    (∃ tag args, Json.array items = taggedArray tag args) ∨
      ∀ path, expressionOfJson path (.array items) =
        .ok (.unrecognized (.array items)) := by
  cases items with
  | nil => exact .inr fun _ => rfl
  | cons item items =>
      cases item with
      | string tag => exact .inl ⟨tag, items, rfl⟩
      | _ => exact .inr fun _ => rfl

theorem exists_foldOperands_eq (op : BinaryOp) (first second : Expression)
    (more : List Expression) :
    ∃ left right, foldOperands op first (second :: more) =
      .binary op left right := by
  induction more generalizing first second with
  | nil => exact ⟨first, second, rfl⟩
  | cons third more ih => exact ih (.binary op first second) third

/-- What is kept without meaning is the whole of what was read. -/
theorem eq_of_expressionOfJson_unrecognized {j stored : Json}
    (h : expressionOfJson path j = .ok (.unrecognized stored)) :
    stored = j := by
  cases j with
  | array items =>
      obtain ⟨tag, args, htag⟩ | hplain := tagged_or_unrecognized items
      · rw [htag] at h ⊢
        generalize he : Expression.unrecognized stored = e at h
        cases taggedReading_of_expressionOfJson h with
        | unrecognized _ => exact Expression.unrecognized.inj he
        | @chain op first second more _ =>
            obtain ⟨left, right, hfold⟩ :=
              exists_foldOperands_eq op first second more
            cases he.trans hfold
        | _ => cases he
      · rw [hplain] at h
        cases h
        rfl
  | number text =>
      rw [expressionOfJson] at h
      split at h <;> cases h
  | string value => cases h
  | _ =>
      cases h
      rfl

theorem settled_foldOperands {op : BinaryOp} {first : Expression}
    {more : List Expression} (hfirst : first.Settled)
    (hmore : ∀ e ∈ more, e.Settled) : (foldOperands op first more).Settled := by
  induction more generalizing first with
  | nil => exact hfirst
  | cons second more ih =>
      obtain ⟨hsecond, hrest⟩ := List.forall_mem_cons.mp hmore
      exact ih (Expression.settled_binary_iff.mpr ⟨hfirst, hsecond⟩) hrest

theorem settled_of_unrecognized {j : Json} {e : Expression}
    (hkeys : j.DistinctKeys)
    (hstored : ∀ path, expressionOfJson path j = .ok (.unrecognized j))
    (h : expressionOfJson path j = .ok e) : e.Settled := by
  rw [hstored] at h
  cases h
  exact ⟨.unrecognized hkeys hstored, rfl⟩

theorem settled_of_expressionOfJson {j : Json} {e : Expression}
    (hkeys : j.DistinctKeys) (h : expressionOfJson path j = .ok e) :
    e.Settled := by
  induction j using Json.induct generalizing e with
  | null => exact settled_of_unrecognized hkeys (fun _ => rfl) h
  | bool value => exact settled_of_unrecognized hkeys (fun _ => rfl) h
  | number text =>
      rw [expressionOfJson] at h
      split at h <;> cases h
      case h_1 value hvalue =>
          exact ⟨.number value,
            congrArg Expression.number (reread_of_exactDecimal? hvalue)⟩
  | string value =>
      cases h
      exact ⟨.string value, rfl⟩
  | array items ih =>
      obtain ⟨tag, args, htag⟩ | hstored := tagged_or_unrecognized items
      · have hitems := Json.itemsDistinct_iff.mp hkeys
        cases htag
        have hargs : ∀ {es}, argsOfJson path args = .ok es → ∀ e ∈ es,
            e.Settled := by
          intro es hargs e he
          rw [argsOfJson_eq_mapM] at hargs
          obtain ⟨arg, harg, hread⟩ := exists_of_mem_mapM hargs he
          have hmem := List.mem_cons_of_mem (Json.string tag) harg
          exact ih arg hmem (hitems arg hmem) hread
        cases taggedReading_of_expressionOfJson h with
        | column hid => exact ⟨.column (fits_of_identifier? hid).1, rfl⟩
        | unary op hoperand =>
            exact Expression.settled_unary
              (hargs hoperand _ (List.mem_singleton_self _))
        | chain op hoperands =>
            obtain ⟨hfirst, hmore⟩ := List.forall_mem_cons.mp (hargs hoperands)
            exact settled_foldOperands hfirst hmore
        | call hcount hes =>
            exact Expression.settled_call (length_argsOfJson hes ▸ hcount)
              (hargs hes)
        | unrecognized hstored => exact ⟨.unrecognized hkeys hstored, rfl⟩
      · exact settled_of_unrecognized hkeys hstored h
  | object members => exact settled_of_unrecognized hkeys (fun _ => rfl) h

end Wire

end TableQuery
