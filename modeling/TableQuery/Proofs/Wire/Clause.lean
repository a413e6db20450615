import Mathlib.Data.List.Nodup
import TableQuery.Proofs.Wire.Expression
import TableQuery.Wire.Clause

/-!
# Stored clauses read back

A clause reads back from its stored form.  The name of an aggregation is stored
among its options and taken out again, and a sort on a breakout is stored as
that breakout and searched for.
-/

namespace TableQuery

/-! ## What can be told from its stored form -/

namespace Aggregation

/-- Whether none of the options would be read as the name. -/
def OptionsApart (a : Aggregation) : Prop :=
  "display-name" ∉ Json.Members.keys a.options ∧
    (a.name = none → ∀ name, Json.Members.get? a.options "name" ≠
      some (.string name))

/-- Whether an aggregation without name and options cannot be mistaken for one
that has them.  It is stored as its expression alone, which may be a form
without meaning under their tags. -/
def Unmistakable (a : Aggregation) : Prop :=
  a.name = none → a.options = [] → ∀ stored,
  a.expression = .unrecognized stored →
    ∀ tag args, Wire.tagged? stored = some (tag, args) →
      tag ≠ "aggregation-options" ∧ tag ≠ "named"

def optionsReread (a : Aggregation) : Json.Members :=
  match a.name with
  | some name =>
    Json.Members.remove (("display-name", .string name) :: a.options)
      "display-name"
  | none =>
    match Json.Members.get? a.options "name" with
    | some value =>
      Json.Members.insert (Json.Members.remove a.options "name") "name" value
    | none => a.options

def reread (a : Aggregation) : Aggregation :=
  ⟨a.expression.reread, a.name, a.optionsReread⟩

theorem perm_optionsReread {a : Aggregation}
    (hkeys : (Json.Members.keys a.options).Nodup) :
    a.optionsReread.Perm a.options := by
  rw [optionsReread]
  split
  case h_1 name _ =>
      have hget : Json.Members.get?
          (("display-name", .string name) :: a.options) "display-name" =
            some (.string name) := List.lookup_cons_self
      exact (List.Perm.cons_inv (Json.Members.perm_remove hget)).symm
  case h_2 =>
      split
      case h_1 value hget =>
          have hremove := Json.Members.perm_remove hget
          rw [Json.Members.insert_of_not_mem
            (Json.Members.not_mem_keys_remove hkeys hget)]
          exact (List.perm_append_singleton _ _).trans hremove.symm
      case h_2 => exact .refl _

theorem same_reread {a : Aggregation}
    (hsame : a.expression.reread.same a.expression = true)
    (hkeys : (Json.object a.options).DistinctKeys) :
    a.reread.same a = true := by
  have hoptions := Json.same_object_of_perm (perm_optionsReread hkeys.1) hkeys
  rw [same, reread, hsame, hoptions, beq_self_eq_true, Bool.and_self,
    Bool.and_self]

end Aggregation

/-- Whether the target can be told from what is stored of it: a breakout is
found again at its own place, a column is none of the breakouts, and neither is
taken for an aggregation. -/
def OrderTarget.Findable (breakouts : List Breakout) : OrderTarget → Prop
  | .aggregation i => i < Word.size64
  | .breakout i =>
    ∃ b, breakouts[i]? = some b ∧ breakouts.findIdx? (· == b) = some i ∧
      b.column.Fits ∧ (b.unit = none → b.column.aggregationIndex? = none)
  | .column id => breakouts.findIdx? (· == ⟨id, none⟩) = none ∧ id.Fits ∧
      id.aggregationIndex? = none

namespace Wire

variable {path : String}

/-! ## Aggregations -/

theorem aggregationOptions_of_name_eq_none {a : Aggregation}
    (hkeys : (Json.Members.keys a.options).Nodup) (hname : a.name = none) :
    aggregationOptions a = a.options := by
  rw [aggregationOptions, hname]
  exact Json.Members.foldl_insert hkeys

theorem aggregationOptions_of_name_eq_some {a : Aggregation} {name : String}
    (hkeys : (Json.Members.keys a.options).Nodup)
    (happart : "display-name" ∉ Json.Members.keys a.options)
    (hname : a.name = some name) :
    aggregationOptions a = ("display-name", .string name) :: a.options := by
  rw [aggregationOptions, hname]
  exact Json.Members.foldl_insert (List.nodup_cons.mpr ⟨happart, hkeys⟩)

theorem splitName_aggregationOptions {a : Aggregation}
    (hkeys : (Json.Members.keys a.options).Nodup) (happart : a.OptionsApart) :
    splitName path (aggregationOptions a) = .ok (a.name, a.optionsReread) := by
  obtain ⟨hdisplay, hstring⟩ := happart
  cases hname : a.name with
  | some name =>
      rw [aggregationOptions_of_name_eq_some hkeys hdisplay hname, splitName,
        Aggregation.optionsReread, hname]
      rfl
  | none =>
      rw [aggregationOptions_of_name_eq_none hkeys hname, splitName,
        Aggregation.optionsReread, Json.Members.get?_eq_none_iff.mpr hdisplay,
        hname]
      cases hget : Json.Members.get? a.options "name" with
      | none => rfl
      | some value =>
          cases value with
          | string name' => exact absurd hget (hstring hname name')
          | _ => rfl

theorem aggregationOfJson_of_tag {j : Json}
    (h : ∀ tag args, tagged? j = some (tag, args) →
      tag ≠ "aggregation-options" ∧ tag ≠ "named") :
    aggregationOfJson path j =
      (do return ⟨← expressionOfJson path j, none, []⟩) := by
  unfold aggregationOfJson
  split
  case h_1 htag => exact absurd rfl (h _ _ htag).1
  case h_2 htag => exact absurd rfl (h _ _ htag).2
  case h_3 => rfl

/-- No expression with a meaning is stored like an aggregation with a name or
options. -/
theorem tag_expressionToJson {e : Expression}
    (h : ∀ stored, e ≠ .unrecognized stored) {tag : String} {args : List Json}
    (htag : tagged? (expressionToJson e) = some (tag, args)) :
    tag ≠ "aggregation-options" ∧ tag ≠ "named" := by
  have hother : tag ∈ referenceTags ∨
      (∃ function : Function, tag = function.wireTag) ∨
      (∃ op : BinaryOp, tag = op.wireTag) ∨ ∃ op, tag = unaryTag op := by
    cases e with
    | number value => cases htag
    | string value => cases htag
    | column id =>
        refine .inl ?_
        cases id <;> cases htag <;> decide
    | call function args =>
        cases htag
        exact .inr (.inl ⟨function, rfl⟩)
    | binary op left right =>
        rw [expressionToJson] at htag
        cases htag
        exact .inr (.inr (.inl ⟨op, rfl⟩))
    | unary op operand =>
        cases htag
        exact .inr (.inr (.inr ⟨op, rfl⟩))
    | unrecognized stored => exact absurd rfl (h stored)
  rcases hother with hmem | ⟨function, rfl⟩ | ⟨op, rfl⟩ | ⟨op, rfl⟩
  · have hall : ∀ tag ∈ referenceTags, tag ≠ "aggregation-options" ∧
      tag ≠ "named" := by decide
    exact hall tag hmem
  · cases function <;> decide
  · cases op <;> decide
  · cases op <;> decide

theorem aggregationOfJson_aggregationToJson {a : Aggregation}
    (h : a.expression.Readable) (hkeys : (Json.Members.keys a.options).Nodup)
    (happart : a.OptionsApart) (hplain : a.Unmistakable) :
    aggregationOfJson path (aggregationToJson a) = .ok a.reread := by
  have hread := (@readsBack path _ h).whole
  by_cases hbare : (a.name.isNone && a.options.isEmpty) = true
  · obtain ⟨hname, hoptions⟩ := Bool.and_eq_true_iff.mp hbare
    rw [Option.isNone_iff_eq_none] at hname
    rw [List.isEmpty_iff] at hoptions
    have htag : ∀ tag args,
        tagged? (expressionToJson a.expression) = some (tag, args) →
        tag ≠ "aggregation-options" ∧ tag ≠ "named" := by
      intro tag args htag
      by_cases hstored : ∃ stored, a.expression = .unrecognized stored
      · obtain ⟨stored, hstored⟩ := hstored
        rw [hstored, expressionToJson] at htag
        exact hplain hname hoptions stored hstored tag args htag
      · exact tag_expressionToJson (not_exists.mp hstored) htag
    rw [aggregationToJson, if_pos hbare, aggregationOfJson_of_tag htag, hread,
      Aggregation.reread, Aggregation.optionsReread, hname, hoptions]
    rfl
  · rw [aggregationToJson, if_neg hbare]
    change (splitName path (aggregationOptions a) >>= _) = _
    rw [splitName_aggregationOptions hkeys happart]
    change (expressionOfJson path (expressionToJson a.expression) >>= _) = _
    rw [hread]
    rfl

/-! ## Breakouts -/

theorem identifier_identifierToJson {id : Identifier} (h : id.Fits) :
    identifier path (identifierToJson id) = .ok id := by
  rw [identifier, identifier?_identifierToJson h]
  rfl

theorem ofName?_name (unit : CalendarUnit) :
    CalendarUnit.ofName? unit.name = some unit := by
  cases unit <;> rfl

theorem breakoutOfJson_breakoutToJson {b : Breakout} (h : b.column.Fits) :
    breakoutOfJson path (breakoutToJson b) = .ok b := by
  obtain ⟨column, unit⟩ := b
  have hcolumn : identifier path (identifierToJson column) = .ok column :=
    identifier_identifierToJson h
  cases unit with
  | some unit =>
      simp only [breakoutOfJson, breakoutToJson, taggedArray,
        tagged?, Json.string?, Option.bind_some, ofName?_name, hcolumn]
      rfl
  | none =>
      have hread : breakoutOfJson path (identifierToJson column) =
          (do return ⟨← identifier path (identifierToJson column), none⟩) := by
        cases column <;> rfl
      rw [breakoutToJson, hread, hcolumn]
      rfl

/-! ## Sorts -/

theorem orderTargetOfJson_aggregation {breakouts : List Breakout} {i : Nat}
    (h : i < Word.size64) :
    orderTargetOfJson breakouts path (taggedArray "aggregation" [.ofNat i]) =
      .ok (.aggregation i) := by
  simp only [orderTargetOfJson, taggedArray, tagged?, Json.nat64?_ofNat h]

/-- A breakout is not mistaken for an aggregation unless it groups by one as it
is. -/
theorem orderTargetOfJson_breakoutToJson {breakouts : List Breakout}
    {b : Breakout} (h : b.column.Fits)
    (hcolumn : b.unit = none → b.column.aggregationIndex? = none) :
    orderTargetOfJson breakouts path (breakoutToJson b) =
      (match breakouts.findIdx? (· == b), b.unit with
        | some i, _ => .ok (.breakout i)
        | none, none => .ok (.column b.column)
        | none, some _ =>
          .error (.malformed path
            "bucketed sort does not match any breakout")) := by
  have hread : breakoutOfJson path (breakoutToJson b) = .ok b :=
    breakoutOfJson_breakoutToJson h
  have hunfold : orderTargetOfJson breakouts path (breakoutToJson b) =
      (breakoutOfJson path (breakoutToJson b) >>= fun b =>
        match breakouts.findIdx? (· == b), b.unit with
        | some i, _ => .ok (.breakout i)
        | none, none => .ok (.column b.column)
        | none, some _ =>
          .error (.malformed path
            "bucketed sort does not match any breakout")) := by
    obtain ⟨column, unit⟩ := b
    cases unit with
    | some unit => rfl
    | none =>
        cases column with
        | aggregation index => cases hcolumn rfl
        | _ => rfl
  rw [hunfold, hread]
  rfl

theorem findIdx?_eq_some_of_nodup {breakouts : List Breakout} {b : Breakout}
    {i : Nat} (hnodup : breakouts.Nodup) (hb : breakouts[i]? = some b) :
    breakouts.findIdx? (· == b) = some i := by
  obtain ⟨hi, hget⟩ := List.getElem?_eq_some_iff.mp hb
  rw [List.findIdx?_eq_some_iff_getElem]
  refine ⟨hi, by simp [hget], fun j hji heq => ?_⟩
  have hj : breakouts[j] = breakouts[i] := by simpa [hget] using heq
  have := (List.Nodup.getElem_inj_iff hnodup).mp hj
  omega

theorem exists_orderTargetOfJson {breakouts : List Breakout}
    {target : OrderTarget} (h : target.Findable breakouts)
    (direction : Direction) (index : Nat) :
    ∃ stored, orderByToJson breakouts index ⟨direction, target⟩ =
        .ok (taggedArray direction.name [stored]) ∧
      ∀ path, orderTargetOfJson breakouts path stored = .ok target := by
  cases target with
  | aggregation i => exact ⟨_, rfl, fun path => orderTargetOfJson_aggregation h⟩
  | breakout i =>
      obtain ⟨b, hb, hfound, hfits, hcolumn⟩ := h
      refine ⟨breakoutToJson b, ?_, fun path => ?_⟩
      · simp only [orderByToJson, hb]
        rfl
      · rw [orderTargetOfJson_breakoutToJson hfits hcolumn, hfound]
  | column id =>
      obtain ⟨hfound, hfits, hcolumn⟩ := h
      refine ⟨identifierToJson id, rfl, fun path => ?_⟩
      have hread :=
        @orderTargetOfJson_breakoutToJson path breakouts ⟨id, none⟩ hfits
          fun _ => hcolumn
      rw [hfound] at hread
      exact hread

theorem exists_orderByToJson {breakouts : List Breakout} {o : OrderBy}
    (h : o.target.Findable breakouts) (index : Nat) :
    ∃ j, orderByToJson breakouts index o = .ok j ∧
      ∀ path, orderByOfJson breakouts path j = .ok o := by
  obtain ⟨direction, target⟩ := o
  obtain ⟨stored, hstored, hread⟩ := exists_orderTargetOfJson h direction index
  refine ⟨_, hstored, fun path => ?_⟩
  cases direction with
  | asc =>
      change (orderTargetOfJson breakouts path stored >>= _) = _
      rw [hread]
      rfl
  | desc =>
      change (orderTargetOfJson breakouts path stored >>= _) = _
      rw [hread]
      rfl

end Wire

end TableQuery
