import TableQuery.Proofs.Wire.Injectivity

/-!
# Stored forms as documents

The stored form of a query is a proper document, if what the query keeps of
stored forms is: no object has a key twice, and its numbers are written as
counts and decimals are.  So the compact text tells the content of the query.
-/

namespace TableQuery

structure Stage.Proper (p : String → Prop) (s : Stage) : Prop where
  options : ∀ a ∈ s.aggregations, (Json.object a.options).Proper p
  extra : (Json.object s.extra).Proper p

structure Json.NumberForm (p : String → Prop) : Prop where
  count : ∀ n : Nat, p (toString n)
  decimal : ∀ d : Decimal, p d.render

theorem Json.numberForm_plainNumber : NumberForm PlainNumber :=
  ⟨plainNumber_toString, Decimal.plainNumber_render⟩

theorem Json.numberForm_readableNumber : NumberForm ReadableNumber :=
  ⟨readableNumber_toString, Decimal.readableNumber_render⟩

namespace Wire

variable {p : String → Prop}

theorem proper_taggedArray_iff {tag : String} {args : List Json} :
    (taggedArray tag args).Proper p ↔ ∀ arg ∈ args, arg.Proper p := by
  rw [taggedArray, Json.proper_array_iff, List.forall_mem_cons]
  exact and_iff_right (.string tag)

theorem proper_ofNat (hform : Json.NumberForm p) (n : Nat) :
    (Json.ofNat n).Proper p :=
  .number (hform.count n)

theorem proper_identifierToJson (hform : Json.NumberForm p) (id : Identifier) :
    (identifierToJson id).Proper p := by
  have hfield : ∀ n, (taggedArray "field-id" [.ofNat n]).Proper p := fun n =>
    proper_taggedArray_iff.mpr
      (List.forall_mem_singleton.mpr (proper_ofNat hform n))
  cases id with
  | field id => exact hfield id
  | foreign key id =>
      exact proper_taggedArray_iff.mpr (by simp [hfield])
  | customColumn name =>
      exact proper_taggedArray_iff.mpr
        (List.forall_mem_singleton.mpr (.string name))
  | stageColumn name kind =>
      exact proper_taggedArray_iff.mpr (by simp [Json.Proper.string])
  | aggregation index =>
      exact proper_taggedArray_iff.mpr
        (List.forall_mem_singleton.mpr (proper_ofNat hform index))

theorem proper_operandsBefore {op : BinaryOp} {left : Expression}
    (h : (expressionToJson left).Proper p) :
    ∀ operand ∈ operandsBefore op left, operand.Proper p := by
  rw [operandsBefore]
  split
  case isTrue =>
      obtain ⟨-, hchain⟩ | halone := chainOperands_cases op left
      · rw [hchain] at h
        exact proper_taggedArray_iff.mp h
      · rw [halone]
        exact List.forall_mem_singleton.mpr h
  case isFalse => exact List.forall_mem_singleton.mpr h

theorem argsToJson_eq_map (args : List Expression) :
    argsToJson args = args.map expressionToJson := by
  induction args with
  | nil => rfl
  | cons arg args ih => rw [argsToJson, ih, List.map_cons]

theorem proper_expressionToJson (hform : Json.NumberForm p) {e : Expression}
    (h : e.Known) : (expressionToJson e).Proper p := by
  induction h with
  | number value => exact .number (hform.decimal value)
  | string value => exact .string value
  | column id => exact proper_identifierToJson hform id
  | call function _ ih =>
      rw [expressionToJson, argsToJson_eq_map, proper_taggedArray_iff,
        List.forall_mem_map]
      exact ih
  | binary op _ _ ihLeft ihRight =>
      rw [expressionToJson_binary, proper_taggedArray_iff,
        List.forall_mem_append]
      exact ⟨proper_operandsBefore ihLeft,
        List.forall_mem_singleton.mpr ihRight⟩
  | unary op _ ih =>
      exact proper_taggedArray_iff.mpr (List.forall_mem_singleton.mpr ih)

section

variable {s : Stage}

theorem proper_aggregationToJson (hform : Json.NumberForm p) (h : s.Told)
    (hproper : s.Proper p) {a : Aggregation} (ha : a ∈ s.aggregations) :
    (aggregationToJson a).Proper p := by
  have hexpression :=
    proper_expressionToJson hform
      (h.known _ (Stage.mem_expressions_aggregation ha))
  have hoptions := Json.proper_object_iff.mp (hproper.options a ha)
  have hwritten : (Json.object (aggregationOptions a)).Proper p := by
    rw [Json.proper_object_iff]
    cases hname : a.name with
    | none =>
        rw [aggregationOptions_of_name_eq_none hoptions.1 hname]
        exact hoptions
    | some name =>
        rw [aggregationOptions_of_name_eq_some hoptions.1
          (h.optionsApart a ha) hname]
        exact ⟨List.nodup_cons.mpr ⟨h.optionsApart a ha, hoptions.1⟩,
          List.forall_mem_cons.mpr ⟨.string name, hoptions.2⟩⟩
  obtain ⟨hstored, -⟩ | hstored := aggregationToJson_cases a
  · rwa [hstored]
  · rw [hstored, proper_taggedArray_iff]
    simp [hexpression, hwritten]

theorem proper_breakoutToJson (hform : Json.NumberForm p) (b : Breakout) :
    (breakoutToJson b).Proper p := by
  have hcolumn := proper_identifierToJson hform b.column
  rw [breakoutToJson]
  split
  case h_1 unit _ =>
      rw [proper_taggedArray_iff]
      simp [hcolumn, Json.Proper.string]
  case h_2 => exact hcolumn

theorem proper_orderByToJson (hform : Json.NumberForm p)
    {breakouts : List Breakout} {index : Nat} {o : OrderBy} {j : Json}
    (h : orderByToJson breakouts index o = .ok j) : j.Proper p := by
  have hsort : ∀ {target : Json}, target.Proper p →
      (taggedArray o.direction.name [target]).Proper p := fun htarget =>
    proper_taggedArray_iff.mpr (List.forall_mem_singleton.mpr htarget)
  unfold orderByToJson at h
  split at h
  case h_1 i _ =>
      cases h
      exact hsort (proper_taggedArray_iff.mpr
        (List.forall_mem_singleton.mpr (proper_ofNat hform i)))
  case h_2 =>
      split at h <;> cases h
      exact hsort (proper_breakoutToJson hform _)
  case h_3 id _ =>
      cases h
      exact hsort (proper_identifierToJson hform id)

theorem proper_orderByItems (hform : Json.NumberForm p)
    {breakouts : List Breakout} {index : Nat} {orderBy : List OrderBy}
    {items : List Json} (h : orderByItems breakouts index orderBy = .ok items) :
    ∀ item ∈ items, item.Proper p := by
  induction orderBy generalizing index items with
  | nil =>
      cases h
      exact List.forall_mem_nil _
  | cons o orderBy ih =>
      obtain ⟨item, hitem, h⟩ := bind_eq_ok_iff.mp h
      obtain ⟨rest, hrest, h⟩ := bind_eq_ok_iff.mp h
      cases h
      exact List.forall_mem_cons.mpr ⟨proper_orderByToJson hform hitem,
        ih hrest⟩

theorem proper_listMember {key : String} {items : List Json}
    (h : ∀ item ∈ items, item.Proper p) :
    ∀ member ∈ listMember key items, member.2.Proper p := by
  rw [listMember]
  split
  · exact List.forall_mem_nil _
  · exact List.forall_mem_singleton.mpr (.array h)

theorem proper_expressionsMember (hform : Json.NumberForm p) (h : s.Told) :
    ∀ member ∈ expressionsMember s.customColumns, member.2.Proper p := by
  rw [expressionsMember_eq h.names_nodup]
  split
  case isTrue => exact List.forall_mem_nil _
  case isFalse =>
      rw [List.forall_mem_singleton, Json.proper_object_iff,
        List.forall_mem_map, Json.Members.keys, List.map_map]
      exact ⟨h.names_nodup, fun c hc =>
        proper_expressionToJson hform
          (h.known _ (Stage.mem_expressions_customColumn hc))⟩

theorem proper_limitMember (hform : Json.NumberForm p) (limit : Option Nat) :
    ∀ member ∈ limitMember limit, member.2.Proper p := by
  cases limit with
  | none => exact List.forall_mem_nil _
  | some n => exact List.forall_mem_singleton.mpr (proper_ofNat hform n)

theorem proper_queryMembers (hform : Json.NumberForm p) {source : String × Json}
    {orderBy : List Json} (h : s.Told) (hproper : s.Proper p)
    (hkey : source.1 ∈ sourceKeys) (hsource : source.2.Proper p)
    (hwrite : orderByItems s.breakouts 0 s.orderBy = .ok orderBy) :
    (Json.object (queryMembers source s orderBy)).Proper p := by
  have hfilters : ∀ item ∈ s.filters.map expressionToJson, item.Proper p :=
    List.forall_mem_map.mpr fun e he =>
      proper_expressionToJson hform
        (h.known e (Stage.mem_expressions_filter he))
  have haggregations : ∀ item ∈ s.aggregations.map aggregationToJson,
      item.Proper p :=
    List.forall_mem_map.mpr fun _ ha =>
      proper_aggregationToJson hform h hproper ha
  have hbreakouts : ∀ item ∈ s.breakouts.map breakoutToJson, item.Proper p :=
    List.forall_mem_map.mpr fun b _ => proper_breakoutToJson hform b
  refine Json.proper_object_iff.mpr
    ⟨nodup_keys_queryMembers hkey h.extraApart, ?_⟩
  rw [queryMembers, clauseMembers, List.forall_mem_cons]
  simp only [List.forall_mem_append]
  exact ⟨hsource,
    ⟨⟨⟨⟨⟨proper_expressionsMember hform h, proper_listMember hfilters⟩,
    proper_listMember haggregations⟩, proper_listMember hbreakouts⟩,
    proper_listMember (proper_orderByItems hform hwrite)⟩,
    proper_limitMember hform s.limit⟩,
    (Json.proper_object_iff.mp hproper.extra).2⟩

end

theorem proper_queryToJson (hform : Json.NumberForm p) {q : Query} {j : Json}
    (h : ∀ s ∈ q.stages, s.Told) (hproper : ∀ s ∈ q.stages, s.Proper p)
    (hj : queryToJson q = .ok j) : j.Proper p := by
  induction q generalizing j with
  | ofTable table s =>
      have hs := h s (List.mem_singleton_self s)
      obtain ⟨orderBy, hwrite, rfl⟩ :=
        (queryToJson_ofTable_eq_ok_iff hs.extraApart).mp hj
      exact proper_queryMembers hform hs (hproper s (List.mem_singleton_self s))
        (by simp [sourceKeys]) (proper_ofNat hform table) hwrite
  | ofQuery source s ih =>
      obtain ⟨hinner, hs⟩ := Query.forall_mem_stages_ofQuery.mp h
      obtain ⟨hproperInner, hproper⟩ :=
        Query.forall_mem_stages_ofQuery.mp hproper
      obtain ⟨inner, orderBy, hsource, hwrite, rfl⟩ :=
        (queryToJson_ofQuery_eq_ok_iff hs.extraApart).mp hj
      exact proper_queryMembers hform hs hproper (by simp [sourceKeys])
        (ih hinner hproperInner hsource) hwrite

/-- The compact text of a stored query tells its content. -/
theorem same_of_compact_eq {q q' : Query} {j j' : Json}
    (h : ∀ s ∈ q.stages, s.Told) (h' : ∀ s ∈ q'.stages, s.Told)
    (hproper : ∀ s ∈ q.stages, s.Proper Json.PlainNumber)
    (hproper' : ∀ s ∈ q'.stages, s.Proper Json.PlainNumber)
    (hj : queryToJson q = .ok j) (hj' : queryToJson q' = .ok j')
    (heq : j.compact = j'.compact) : q.same q' = true := by
  have hform := Json.numberForm_plainNumber
  obtain rfl := Json.compact_injective (proper_queryToJson hform h hproper hj)
    (proper_queryToJson hform h' hproper' hj') heq
  exact same_of_queryToJson_eq h h' hj hj'

end Wire

end TableQuery
