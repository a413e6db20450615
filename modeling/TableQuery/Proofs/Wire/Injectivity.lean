import TableQuery.Proofs.Json.Injectivity
import TableQuery.Proofs.Wire.Reloading

/-!
# Queries told apart by their stored forms

Queries of one stored form have the same content.  What kind of expression is
stored is told by the tag and, for a minus, by the number of operands; calls may
have any number of arguments here, since nothing is read back.
-/

namespace TableQuery

/-! ## Expressions -/

namespace Expression

inductive Known : Expression → Prop
  | number (value : Decimal) : Known (.number value)
  | string (value : String) : Known (.string value)
  | column (id : Identifier) : Known (.column id)
  | call (function : Function) {args : List Expression}
      (hargs : ∀ arg ∈ args, Known arg) :
      Known (.call function args)
  | binary (op : BinaryOp) {left right : Expression} (hleft : Known left)
      (hright : Known right) : Known (.binary op left right)
  | unary (op : UnaryOp) {operand : Expression} (hoperand : Known operand) :
      Known (.unary op operand)

inductive Form where
  | number
  | string
  | column
  | call
  | unary
  | binary
deriving DecidableEq

def form? : Expression → Option Form
  | number _ => some .number
  | string _ => some .string
  | column _ => some .column
  | call _ _ => some .call
  | unary _ _ => some .unary
  | binary _ _ _ => some .binary
  | unrecognized _ => none

end Expression

namespace Wire

open Expression (Known Form)

def formOf? : Json → Option Form
  | .number _ => some .number
  | .string _ => some .string
  | .array (.string tag :: args) =>
    if tag ∈ referenceTags then some .column
    else if (Function.ofWireTag? tag).isSome then some .call
    else if args.length = 1 then some .unary
    else some .binary
  | _ => none

theorem formOf?_taggedArray {tag : String} (htag : tag ∉ referenceTags)
    (args : List Json) :
    formOf? (taggedArray tag args) =
      if (Function.ofWireTag? tag).isSome then some .call
      else if args.length = 1 then some .unary else some .binary := if_neg htag

theorem chainOperands_ne_nil (op : BinaryOp) (left : Expression) :
    chainOperands op left (expressionToJson left) ≠ [] := by
  cases left with
  | binary op' left right =>
      rw [expressionToJson, taggedArray, chainOperands]
      split <;> simp
  | _ => exact List.cons_ne_nil _ _

def operandsBefore (op : BinaryOp) (left : Expression) : List Json :=
  if op.isLogical then chainOperands op left (expressionToJson left)
  else [expressionToJson left]

theorem expressionToJson_binary (op : BinaryOp) (left right : Expression) :
    expressionToJson (.binary op left right) =
      taggedArray op.wireTag
        (operandsBefore op left ++ [expressionToJson right]) := by
  rw [expressionToJson, operandsBefore]

theorem operandsBefore_ne_nil (op : BinaryOp) (left : Expression) :
    operandsBefore op left ≠ [] := by
  rw [operandsBefore]
  split
  · exact chainOperands_ne_nil op left
  · exact List.cons_ne_nil _ _

theorem formOf?_expressionToJson {e : Expression} (h : e.Known) :
    formOf? (expressionToJson e) = e.form? := by
  cases h with
  | number value => rfl
  | string value => rfl
  | column id => cases id <;> rfl
  | @call function args _ =>
      rw [expressionToJson, formOf?_taggedArray (functionTag_not_mem function),
        (ofWireTag?_functionTag function).2]
      rfl
  | @unary op operand _ =>
      rw [expressionToJson, formOf?_taggedArray (unaryTag_not_mem op)]
      cases op <;> rfl
  | @binary op left right _ _ =>
      have hpos := List.length_pos_iff.mpr (operandsBefore_ne_nil op left)
      have hlength :
          (operandsBefore op left ++ [expressionToJson right]).length ≠ 1 := by
        rw [List.length_append, List.length_singleton]
        omega
      have hfunction : (Function.ofWireTag? op.wireTag).isSome = false := by
        cases op <;> rfl
      rw [expressionToJson_binary, formOf?_taggedArray (binaryTag_not_mem op),
        hfunction, if_neg hlength]
      rfl

theorem form?_eq {e e' : Expression} (h : e.Known) (h' : e'.Known)
    (heq : expressionToJson e = expressionToJson e') : e.form? = e'.form? := by
  rw [← formOf?_expressionToJson h, ← formOf?_expressionToJson h', heq]

theorem taggedArray_inj {tag tag' : String} {args args' : List Json} :
    taggedArray tag args = taggedArray tag' args' ↔
      tag = tag' ∧ args = args' := by
  simp [taggedArray]

theorem baseType_injective {kind kind' : ValueKind}
    (h : kind.baseType = kind'.baseType) : kind = kind' := by
  have hread := congrArg ValueKind.ofBaseType? h
  rw [ofBaseType?_baseType, ofBaseType?_baseType] at hread
  exact Option.some.inj hread

theorem identifierToJson_injective {id id' : Identifier}
    (h : identifierToJson id = identifierToJson id') : id = id' := by
  cases id <;> cases id' <;>
    simp [identifierToJson, taggedArray, Json.ofNat_inj] at h
  case field.field => rw [h]
  case foreign.foreign => rw [h.1, h.2]
  case customColumn.customColumn => rw [h]
  case stageColumn.stageColumn => rw [h.1, baseType_injective h.2]
  case aggregation.aggregation => rw [h]

theorem functionTag_injective {f f' : Function} (h : f.wireTag = f'.wireTag) :
    f = f' := by
  have hread := congrArg Function.ofWireTag? h
  rw [(ofWireTag?_functionTag f).2, (ofWireTag?_functionTag f').2] at hread
  exact Option.some.inj hread

theorem binaryTag_injective {op op' : BinaryOp} (h : op.wireTag = op'.wireTag) :
    op = op' := by
  have hread := congrArg BinaryOp.ofWireTag? h
  rw [ofWireTag?_binaryTag, ofWireTag?_binaryTag] at hread
  exact Option.some.inj hread

theorem unaryTag_injective {op op' : UnaryOp} (h : unaryTag op = unaryTag op') :
    op = op' := by
  cases op <;> cases op' <;> first | rfl | exact absurd h (by decide)

/-- The stored operands of a chain are its own, and those of what is no chain
are one. -/
theorem chainOperands_cases (op : BinaryOp) (e : Expression) :
    (2 ≤ (chainOperands op e (expressionToJson e)).length ∧
        expressionToJson e =
          taggedArray op.wireTag (chainOperands op e (expressionToJson e))) ∨
      chainOperands op e (expressionToJson e) = [expressionToJson e] := by
  cases e with
  | binary op' left right =>
      have hpos := List.length_pos_iff.mpr (operandsBefore_ne_nil op' left)
      rw [expressionToJson_binary, taggedArray, chainOperands]
      split
      case isTrue hop =>
          subst hop
          refine .inl ⟨?_, rfl⟩
          rw [List.length_append, List.length_singleton]
          omega
      case isFalse => exact .inr rfl
  | _ => exact .inr rfl

theorem expressionToJson_eq_of_chainOperands {op : BinaryOp} {e e' : Expression}
    (h : chainOperands op e (expressionToJson e) =
      chainOperands op e' (expressionToJson e')) :
    expressionToJson e = expressionToJson e' := by
  obtain ⟨hlength, hchain⟩ | halone := chainOperands_cases op e
  · obtain ⟨-, hchain'⟩ | halone' := chainOperands_cases op e'
    · rw [hchain, hchain', h]
    · rw [h, halone'] at hlength
      simp at hlength
  · obtain ⟨hlength', -⟩ | halone' := chainOperands_cases op e'
    · rw [← h, halone] at hlength'
      simp at hlength'
    · rw [halone, halone'] at h
      exact List.singleton_inj.mp h

theorem expressionToJson_eq_of_operandsBefore {op : BinaryOp}
    {e e' : Expression} (h : operandsBefore op e = operandsBefore op e') :
    expressionToJson e = expressionToJson e' := by
  rw [operandsBefore, operandsBefore] at h
  split at h
  · exact expressionToJson_eq_of_chainOperands h
  · exact List.singleton_inj.mp h

theorem sameArgs_of_argsToJson_eq {args args' : List Expression}
    (hargs : ∀ arg ∈ args, ∀ arg' ∈ args',
      expressionToJson arg = expressionToJson arg' →
      arg.same arg' = true)
    (h : argsToJson args = argsToJson args') : Expression.sameArgs args args' =
      true := by
  induction args generalizing args' with
  | nil =>
      cases args' with
      | nil => rfl
      | cons arg' args' => cases h
  | cons arg args ih =>
      cases args' with
      | nil => cases h
      | cons arg' args' =>
          obtain ⟨hfirst, hrest⟩ := List.cons.inj h
          have hsame := ih (fun other hother other' hother' => hargs other
            (List.mem_cons_of_mem arg hother) other'
            (List.mem_cons_of_mem arg' hother')) hrest
          rw [Expression.sameArgs,
            hargs arg List.mem_cons_self arg' List.mem_cons_self hfirst, hsame,
            Bool.and_self]

theorem same_of_expressionToJson_eq {e e' : Expression} (h : e.Known)
    (h' : e'.Known) (heq : expressionToJson e = expressionToJson e') :
    e.same e' = true := by
  -- The induction is over the first; the second is of the same kind, since the
  -- form tells it.
  have hform := form?_eq h h' heq
  induction h generalizing e' with
  | number value =>
      cases h' with
      | number value' =>
          have htext := String.ofList_injective (Json.number.inj heq)
          exact Decimal.sameValue_of_toChars_eq htext
      | _ => cases hform
  | string value =>
      cases h' with
      | string value' => exact beq_iff_eq.mpr (Json.string.inj heq)
      | _ => cases hform
  | column id =>
      cases h' with
      | column id' => exact beq_iff_eq.mpr (identifierToJson_injective heq)
      | _ => cases hform
  | call function hargs ih =>
      cases h' with
      | call function' hargs' =>
          obtain ⟨htag, heq⟩ := taggedArray_inj.mp heq
          have hsame :=
            sameArgs_of_argsToJson_eq (fun arg harg arg' harg' heq =>
            ih arg harg (hargs' arg' harg') heq
              (form?_eq (hargs arg harg) (hargs' arg' harg') heq)) heq
          rw [Expression.same, functionTag_injective htag, hsame,
            beq_self_eq_true, Bool.and_self]
      | _ => cases hform
  | binary op hleft hright ihLeft ihRight =>
      cases h' with
      | binary op' hleft' hright' =>
          rw [expressionToJson_binary, expressionToJson_binary] at heq
          obtain ⟨htag, heq⟩ := taggedArray_inj.mp heq
          obtain ⟨hbefore, hlast⟩ := List.append_inj' heq rfl
          obtain rfl := binaryTag_injective htag
          have heqLeft := expressionToJson_eq_of_operandsBefore hbefore
          have heqRight := List.singleton_inj.mp hlast
          rw [Expression.same,
            ihLeft hleft' heqLeft (form?_eq hleft hleft' heqLeft),
            ihRight hright' heqRight (form?_eq hright hright' heqRight),
            beq_self_eq_true, Bool.and_self, Bool.and_self]
      | _ => cases hform
  | unary op hoperand ih =>
      cases h' with
      | unary op' hoperand' =>
          obtain ⟨htag, heq⟩ := taggedArray_inj.mp heq
          have heq := List.singleton_inj.mp heq
          rw [Expression.same, unaryTag_injective htag,
            ih hoperand' heq (form?_eq hoperand hoperand' heq),
            beq_self_eq_true, Bool.and_self]
      | _ => cases hform

/-! ## Clauses -/

theorem sameList_of_map_eq {α β : Type} {same : α → α → Bool} {store : α → β}
    {as as' : List α}
    (h : ∀ a ∈ as, ∀ a' ∈ as', store a = store a' → same a a' = true)
    (heq : as.map store = as'.map store) :
    Stage.sameList same as as' = true := by
  rw [← List.forall₂_eq_eq_eq, List.forall₂_map_left_iff,
    List.forall₂_map_right_iff] at heq
  rw [Stage.sameList, heq.length_eq, beq_self_eq_true, Bool.true_and,
    List.all_eq_true]
  intro pair hpair
  obtain ⟨hleft, hright⟩ := List.of_mem_zip hpair
  exact h pair.1 hleft pair.2 hright (List.forall₂_zip heq hpair)

theorem aggregationToJson_cases (a : Aggregation) :
    (aggregationToJson a = expressionToJson a.expression ∧
      aggregationOptions a = []) ∨
      aggregationToJson a = taggedArray "aggregation-options"
        [expressionToJson a.expression, .object (aggregationOptions a)] := by
  rw [aggregationToJson]
  split
  case isTrue hbare =>
      obtain ⟨hname, hoptions⟩ := Bool.and_eq_true_iff.mp hbare
      rw [Option.isNone_iff_eq_none] at hname
      rw [List.isEmpty_iff] at hoptions
      refine .inl ⟨rfl, ?_⟩
      rw [aggregationOptions, hname, hoptions]
      rfl
  case isFalse => exact .inr rfl

theorem expressionToJson_ne_withOptions {e : Expression} (h : e.Known)
    (args : List Json) :
    expressionToJson e ≠ taggedArray "aggregation-options" args := by
  intro heq
  have htag : tagged? (expressionToJson e) =
      some ("aggregation-options", args) := by
    rw [heq]
    rfl
  have hknown : ∀ stored, e ≠ .unrecognized stored := by
    rintro stored rfl
    cases h
  exact (tag_expressionToJson hknown htag).1 rfl

theorem parts_of_aggregationToJson_eq {a a' : Aggregation}
    (h : a.expression.Known) (h' : a'.expression.Known)
    (heq : aggregationToJson a = aggregationToJson a') :
    expressionToJson a.expression = expressionToJson a'.expression ∧
      aggregationOptions a = aggregationOptions a' := by
  obtain ⟨hstored, hoptions⟩ | hstored := aggregationToJson_cases a
  · obtain ⟨hstored', hoptions'⟩ | hstored' := aggregationToJson_cases a'
    · rw [hstored, hstored'] at heq
      exact ⟨heq, hoptions.trans hoptions'.symm⟩
    · rw [hstored, hstored'] at heq
      exact absurd heq (expressionToJson_ne_withOptions h _)
  · obtain ⟨hstored', -⟩ | hstored' := aggregationToJson_cases a'
    · rw [hstored, hstored'] at heq
      exact absurd heq.symm (expressionToJson_ne_withOptions h' _)
    · rw [hstored, hstored', taggedArray_inj] at heq
      simpa using heq.2

theorem name_and_options_of_aggregationOptions_eq {a a' : Aggregation}
    (hkeys : (Json.Members.keys a.options).Nodup)
    (hkeys' : (Json.Members.keys a'.options).Nodup)
    (happart : "display-name" ∉ Json.Members.keys a.options)
    (happart' : "display-name" ∉ Json.Members.keys a'.options)
    (heq : aggregationOptions a = aggregationOptions a') :
    a.name = a'.name ∧ a.options = a'.options := by
  have hnamed : ∀ {options options' : Json.Members} {name : String},
      "display-name" ∉ Json.Members.keys options →
        options ≠ ("display-name", .string name) :: options' := by
    rintro options options' name hnot rfl
    exact hnot List.mem_cons_self
  cases hname : a.name with
  | none =>
      rw [aggregationOptions_of_name_eq_none hkeys hname] at heq
      cases hname' : a'.name with
      | none =>
          rw [aggregationOptions_of_name_eq_none hkeys' hname'] at heq
          exact ⟨rfl, heq⟩
      | some name' =>
          rw [aggregationOptions_of_name_eq_some hkeys' happart' hname'] at heq
          exact absurd heq (hnamed happart)
  | some name =>
      rw [aggregationOptions_of_name_eq_some hkeys happart hname] at heq
      cases hname' : a'.name with
      | none =>
          rw [aggregationOptions_of_name_eq_none hkeys' hname'] at heq
          exact absurd heq.symm (hnamed happart')
      | some name' =>
          rw [aggregationOptions_of_name_eq_some hkeys' happart' hname'] at heq
          simpa using heq

end Wire

/-! ## Stages -/

structure Stage.Told (s : Stage) : Prop where
  known : ∀ e ∈ s.expressions, e.Known
  options : ∀ a ∈ s.aggregations, (Json.object a.options).DistinctKeys
  optionsApart : ∀ a ∈ s.aggregations,
    "display-name" ∉ Json.Members.keys a.options
  breakouts : ∀ b ∈ s.breakouts, b.column.Fits
  targets : ∀ o ∈ s.orderBy, o.target.Findable s.breakouts
  names_nodup : (s.customColumns.map CustomColumn.name).Nodup
  extraApart : s.ExtraApart

namespace Wire

theorem same_of_aggregationToJson_eq {s s' : Stage} (h : s.Told) (h' : s'.Told)
    {a a' : Aggregation} (ha : a ∈ s.aggregations) (ha' : a' ∈ s'.aggregations)
    (heq : aggregationToJson a = aggregationToJson a') : a.same a' = true := by
  have hknown := h.known _ (Stage.mem_expressions_aggregation ha)
  have hknown' := h'.known _ (Stage.mem_expressions_aggregation ha')
  obtain ⟨hexpression, hoptions⟩ :=
    parts_of_aggregationToJson_eq hknown hknown' heq
  obtain ⟨hname, hoptions⟩ :=
    name_and_options_of_aggregationOptions_eq (h.options a ha).1
      (h'.options a' ha').1 (h.optionsApart a ha)
      (h'.optionsApart a' ha') hoptions
  rw [Aggregation.same, same_of_expressionToJson_eq hknown hknown' hexpression,
    hname, ← hoptions, Json.same_self (h.options a ha), beq_self_eq_true,
    Bool.and_self, Bool.and_self]

theorem arrayMember?_inj {items items' : List Json} :
    arrayMember? items = arrayMember? items' ↔ items = items' := by
  cases items <;> cases items' <;> simp [arrayMember?]

theorem columnMembers_eq {columns columns' : List CustomColumn}
    (h : (if columns = [] then none else
      some (Json.object (columns.map columnMember))) =
      if columns' = [] then none else
      some (Json.object (columns'.map columnMember))) :
    columns.map columnMember = columns'.map columnMember := by
  cases columns <;> cases columns' <;> simp_all

theorem same_of_columnMember_eq {c c' : CustomColumn} (h : c.expression.Known)
    (h' : c'.expression.Known) (heq : columnMember c = columnMember c') :
    c.same c' = true := by
  obtain ⟨hname, hexpression⟩ := Prod.mk.inj heq
  rw [CustomColumn.same, hname, same_of_expressionToJson_eq h h' hexpression,
    beq_self_eq_true, Bool.and_self]

theorem orderBy_eq_of_orderByItems {breakouts : List Breakout}
    {orderBy orderBy' : List OrderBy} {items : List Json}
    (h : ∀ o ∈ orderBy, o.target.Findable breakouts)
    (h' : ∀ o ∈ orderBy', o.target.Findable breakouts)
    (hitems : orderByItems breakouts 0 orderBy = .ok items)
    (hitems' : orderByItems breakouts 0 orderBy' = .ok items) :
    orderBy = orderBy' := by
  obtain ⟨found, hfound, hreads⟩ := exists_orderByItems h 0
  obtain ⟨found', hfound', hreads'⟩ := exists_orderByItems h' 0
  cases hitems.symm.trans hfound
  cases hitems'.symm.trans hfound'
  have hread := itemsOfJson_eq_ok hreads "order-by" 0
  rw [itemsOfJson_eq_ok hreads' "order-by" 0] at hread
  exact (Except.ok.inj hread).symm

theorem breakouts_eq_of_map_eq {breakouts breakouts' : List Breakout}
    (h : ∀ b ∈ breakouts, b.column.Fits) (h' : ∀ b ∈ breakouts', b.column.Fits)
    (heq : breakouts.map breakoutToJson = breakouts'.map breakoutToJson) :
    breakouts = breakouts' := by
  have hread := itemsOfJson_map (f := id)
    (fun b hb path => @breakoutOfJson_breakoutToJson path b (h b hb))
    "breakout" 0
  have hread' := itemsOfJson_map (f := id)
    (fun b hb path => @breakoutOfJson_breakoutToJson path b (h' b hb))
    "breakout" 0
  rw [heq, hread', List.map_id, List.map_id] at hread
  exact (Except.ok.inj hread).symm

section

variable {s s' : Stage} {orderBy orderBy' : List Json}

theorem same_of_holds {members : Json.Members} (h : s.Told) (h' : s'.Told)
    (hholds : Holds members s orderBy) (hholds' : Holds members s' orderBy')
    (hwrite : orderByItems s.breakouts 0 s.orderBy = .ok orderBy)
    (hwrite' : orderByItems s'.breakouts 0 s'.orderBy = .ok orderBy') :
    s.same s' = true := by
  obtain ⟨hknown, hknownFilters, -⟩ :=
    Stage.forall_mem_expressions_iff.mp h.known
  obtain ⟨hknown', hknownFilters', -⟩ :=
    Stage.forall_mem_expressions_iff.mp h'.known
  have hcolumns : Stage.sameList CustomColumn.same s.customColumns
      s'.customColumns = true :=
    sameList_of_map_eq
      (fun c hc c' hc' => same_of_columnMember_eq (hknown c hc) (hknown' c' hc'))
      (columnMembers_eq (hholds.expressions.symm.trans hholds'.expressions))
  have hfilters : Stage.sameList Expression.same s.filters s'.filters = true :=
    sameList_of_map_eq (fun e he e' he' => same_of_expressionToJson_eq
        (hknownFilters e he)
        (hknownFilters' e' he'))
      (arrayMember?_inj.mp (hholds.filters.symm.trans hholds'.filters))
  have haggregations : Stage.sameList Aggregation.same s.aggregations
      s'.aggregations = true :=
    sameList_of_map_eq
      (fun a ha a' ha' => same_of_aggregationToJson_eq h h' ha ha')
      (arrayMember?_inj.mp
        (hholds.aggregations.symm.trans hholds'.aggregations))
  have hbreakouts : s.breakouts = s'.breakouts :=
    breakouts_eq_of_map_eq h.breakouts h'.breakouts
      (arrayMember?_inj.mp (hholds.breakouts.symm.trans hholds'.breakouts))
  have horderBy : s.orderBy = s'.orderBy := by
    obtain rfl :=
      arrayMember?_inj.mp (hholds.orderBy.symm.trans hholds'.orderBy)
    rw [← hbreakouts] at hwrite'
    exact orderBy_eq_of_orderByItems h.targets (hbreakouts ▸ h'.targets)
      hwrite hwrite'
  have hlimit : s.limit = s'.limit :=
    Option.map_injective (fun _ _ => Json.ofNat_inj.mp)
      (hholds.limit.symm.trans hholds'.limit)
  have hextra : s.extra = s'.extra := hholds.extra.symm.trans hholds'.extra
  rw [Stage.same, hcolumns, hfilters, haggregations, hbreakouts, horderBy,
    hlimit, ← hextra, Json.same_self h.extraApart.distinct]
  simp

theorem same_of_queryMembers_eq {source source' : String × Json}
    (hsource : source.1 ∈ sourceKeys) (hsource' : source'.1 ∈ sourceKeys)
    (h : s.Told) (h' : s'.Told)
    (hwrite : orderByItems s.breakouts 0 s.orderBy = .ok orderBy)
    (hwrite' : orderByItems s'.breakouts 0 s'.orderBy = .ok orderBy')
    (heq : queryMembers source s orderBy = queryMembers source' s' orderBy') :
    source = source' ∧ s.same s' = true := by
  have hholds : Holds (queryMembers source s orderBy) s orderBy :=
    holds_queryMembers hsource h.extraApart h.names_nodup
  have hholds' : Holds (queryMembers source' s' orderBy') s' orderBy' :=
    holds_queryMembers hsource' h'.extraApart h'.names_nodup
  rw [heq] at hholds
  exact ⟨(List.cons.inj heq).1,
    same_of_holds h h' hholds hholds' hwrite hwrite'⟩

end

/-! ## Queries -/

/-- Queries of one stored form have the same content, stage by stage. -/
theorem same_of_queryToJson_eq {q q' : Query} {j : Json}
    (h : ∀ s ∈ q.stages, s.Told) (h' : ∀ s ∈ q'.stages, s.Told)
    (hj : queryToJson q = .ok j) (hj' : queryToJson q' = .ok j) :
    q.same q' = true := by
  have hne : "source-table" ≠ "source-query" := by decide
  induction q generalizing q' j with
  | ofTable table s =>
      have hs := h s (List.mem_singleton_self s)
      obtain ⟨orderBy, hwrite, rfl⟩ :=
        (queryToJson_ofTable_eq_ok_iff hs.extraApart).mp hj
      cases q' with
      | ofTable table' s' =>
          have hs' := h' s' (List.mem_singleton_self s')
          obtain ⟨orderBy', hwrite', heq⟩ :=
            (queryToJson_ofTable_eq_ok_iff hs'.extraApart).mp hj'
          obtain ⟨hsource, hsame⟩ :=
            same_of_queryMembers_eq (by simp [sourceKeys])
              (by simp [sourceKeys]) hs hs' hwrite hwrite' (Json.object.inj heq)
          rw [Query.same, hsame, Json.ofNat_inj.mp (Prod.mk.inj hsource).2,
            beq_self_eq_true, Bool.and_self]
      | ofQuery source' s' =>
          obtain ⟨-, hs'⟩ := Query.forall_mem_stages_ofQuery.mp h'
          obtain ⟨inner', orderBy', -, -, heq⟩ :=
            (queryToJson_ofQuery_eq_ok_iff hs'.extraApart).mp hj'
          have hsource := (List.cons.inj (Json.object.inj heq)).1
          exact absurd (Prod.mk.inj hsource).1 hne
  | ofQuery source s ih =>
      obtain ⟨hinner, hs⟩ := Query.forall_mem_stages_ofQuery.mp h
      obtain ⟨inner, orderBy, hsource, hwrite, rfl⟩ :=
        (queryToJson_ofQuery_eq_ok_iff hs.extraApart).mp hj
      cases q' with
      | ofTable table' s' =>
          have hs' := h' s' (List.mem_singleton_self s')
          obtain ⟨orderBy', -, heq⟩ :=
            (queryToJson_ofTable_eq_ok_iff hs'.extraApart).mp hj'
          have hsource := (List.cons.inj (Json.object.inj heq)).1
          exact absurd (Prod.mk.inj hsource).1.symm hne
      | ofQuery source' s' =>
          obtain ⟨hinner', hs'⟩ := Query.forall_mem_stages_ofQuery.mp h'
          obtain ⟨inner', orderBy', hsource', hwrite', heq⟩ :=
            (queryToJson_ofQuery_eq_ok_iff hs'.extraApart).mp hj'
          obtain ⟨hmember, hsame⟩ :=
            same_of_queryMembers_eq (by simp [sourceKeys])
              (by simp [sourceKeys]) hs hs' hwrite hwrite' (Json.object.inj heq)
          obtain rfl := (Prod.mk.inj hmember).2
          rw [Query.same, ih hinner hinner' hsource hsource', hsame,
            Bool.and_self]

end Wire

end TableQuery
