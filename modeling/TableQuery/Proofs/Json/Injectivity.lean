import TableQuery.Proofs.Json.Members
import TableQuery.Proofs.Json.Numbers
import TableQuery.Proofs.Json.Strings

/-!
# Documents told apart by their texts

Different documents have different compact texts.  A text tells a value together
with what stands behind it, since no number goes on behind its own text.
-/

namespace TableQuery.Json

/-! ## Kinds of values -/

/-- What the text of a value starts with, with a zero for all that numbers start
with. -/
def mark : Json → Char
  | null => 'n'
  | bool true => 't'
  | bool false => 'f'
  | number _ => '0'
  | string _ => '"'
  | array _ => '['
  | object _ => Char.ofNat 0x7b

def markOf (c : Char) : Char := if isNumberChar c then '0' else c

theorem head?_toChars {j : Json} (h : j.Proper PlainNumber) (rest : List Char) :
    (j.toChars ++ rest).head?.map markOf = some j.mark := by
  cases h with
  | @number text htext =>
      obtain ⟨c, cs, hcs⟩ := List.exists_cons_of_ne_nil htext.ne_nil
      have hc : isNumberChar c = true :=
        htext.chars c (hcs ▸ List.mem_cons_self)
      rw [toChars, hcs, List.cons_append, List.head?_cons, Option.map_some,
        markOf, if_pos hc, mark]
  | bool value => cases value <;> rfl
  | _ => rfl

theorem mark_eq {j j' : Json} {rest rest' : List Char}
    (h : j.Proper PlainNumber) (h' : j'.Proper PlainNumber)
    (heq : j.toChars ++ rest = j'.toChars ++ rest') : j.mark = j'.mark := by
  have hmark := congrArg (fun cs => cs.head?.map markOf) heq
  rw [head?_toChars h, head?_toChars h'] at hmark
  exact Option.some.inj hmark

theorem bracket_not_mem_head? {j : Json} (h : j.Proper PlainNumber)
    (rest : List Char) : ']' ∉ (j.toChars ++ rest).head? := by
  intro hmem
  have hmark := head?_toChars h rest
  rw [Option.mem_def.mp hmem] at hmark
  cases j with
  | bool value => cases value <;> cases hmark
  | _ => cases hmark

/-! ## Lists of texts -/

section

variable {α : Type} {text : α → List Char} {as as' : List α} {close : Char}
  {rest rest' : List Char}

/-- Texts that tell what they are of, together with what stands behind them. -/
def Tells (text : α → List Char) (as as' : List α) : Prop :=
  ∀ a ∈ as, ∀ a' ∈ as', ∀ rest rest', EndsNumber rest → EndsNumber rest' →
    text a ++ rest = text a' ++ rest' → a = a' ∧ rest = rest'

theorem Tells.tail {a a' : α} (h : Tells text (a :: as) (a' :: as')) :
    Tells text as as' :=
  fun b hb b' hb' =>
    h b (List.mem_cons_of_mem a hb) b' (List.mem_cons_of_mem a' hb')

theorem endsNumber_flatMap (hclose : isNumberChar close = false) (as : List α)
    (rest : List Char) :
    EndsNumber (as.flatMap (fun a => ',' :: text a) ++ close :: rest) := by
  cases as with
  | nil => exact endsNumber_cons hclose rest
  | cons a as => exact endsNumber_cons (by decide) _

theorem flatMap_append_inj (htells : Tells text as as')
    (hclose : isNumberChar close = false) (hcomma : close ≠ ',')
    (heq : as.flatMap (fun a => ',' :: text a) ++ close :: rest =
      as'.flatMap (fun a => ',' :: text a) ++ close :: rest') : as = as' ∧
      rest = rest' := by
  induction as generalizing as' with
  | nil =>
      cases as' with
      | nil => exact ⟨rfl, (List.cons.inj heq).2⟩
      | cons a' as' => exact absurd (List.cons.inj heq).1 hcomma
  | cons a as ih =>
      cases as' with
      | nil => exact absurd (List.cons.inj heq).1.symm hcomma
      | cons a' as' =>
          simp only [List.flatMap_cons, List.cons_append, List.append_assoc,
            List.cons.injEq, true_and] at heq
          obtain ⟨rfl, hbehind⟩ :=
            htells a List.mem_cons_self a' List.mem_cons_self _ _
              (endsNumber_flatMap hclose as rest)
              (endsNumber_flatMap hclose as' rest') heq
          exact (ih htells.tail hbehind).imp_left (congrArg (a :: ·))

theorem intercalate_comma_cons (a : α) (as : List α) :
    [','].intercalate ((a :: as).map text) =
      text a ++ as.flatMap (fun a => ',' :: text a) := by
  induction as generalizing a with
  | nil => simp [List.intercalate_singleton]
  | cons b as ih =>
      rw [List.map_cons, List.map_cons, List.intercalate_cons_cons,
        ← List.map_cons, ih, List.flatMap_cons]
      simp

theorem intercalate_append_inj (htells : Tells text as as')
    (hclose : isNumberChar close = false) (hcomma : close ≠ ',')
    (hhead : ∀ a ∈ as ++ as', ∀ rest, close ∉ (text a ++ rest).head?)
    (heq : [','].intercalate (as.map text) ++ close :: rest =
      [','].intercalate (as'.map text) ++ close :: rest') : as = as' ∧
      rest = rest' := by
  have hopen : ∀ a ∈ as ++ as', ∀ as rest rest', close :: rest ≠
      [','].intercalate ((a :: as).map text) ++ rest' := by
    intro a ha as rest rest' heq
    rw [intercalate_comma_cons, List.append_assoc] at heq
    refine hhead a ha (as.flatMap (fun a => ',' :: text a) ++ rest') ?_
    rw [← heq]
    exact rfl
  cases as with
  | nil =>
      cases as' with
      | nil => exact ⟨rfl, (List.cons.inj heq).2⟩
      | cons a' as' => exact absurd heq (hopen a' (by simp) as' rest _)
  | cons a as =>
      cases as' with
      | nil => exact absurd heq.symm (hopen a (by simp) as rest' _)
      | cons a' as' =>
          rw [intercalate_comma_cons, intercalate_comma_cons, List.append_assoc,
            List.append_assoc] at heq
          obtain ⟨rfl, hbehind⟩ :=
            htells a List.mem_cons_self a' List.mem_cons_self _ _
              (endsNumber_flatMap hclose as rest)
              (endsNumber_flatMap hclose as' rest') heq
          exact (flatMap_append_inj htells.tail hclose hcomma hbehind).imp_left
            (congrArg (a :: ·))

end

/-! ## Whole documents -/

theorem tells_memberText {members members' : Members}
    (h : Tells toChars (members.map Prod.snd) (members'.map Prod.snd)) :
    Tells memberText members members' := by
  intro member hmember member' hmember' rest rest' hrest hrest' heq
  rw [memberText, memberText, List.append_assoc, List.append_assoc] at heq
  obtain ⟨hkey, heq⟩ := stringChars_append_inj heq
  obtain ⟨hvalue, heq⟩ :=
    h _ (List.mem_map_of_mem hmember) _ (List.mem_map_of_mem hmember') _ _
      hrest hrest' (List.cons.inj heq).2
  exact ⟨Prod.ext hkey hvalue, heq⟩

theorem array_append_inj {items items' : List Json} {rest rest' : List Char}
    (htells : Tells toChars items items')
    (hplain : ∀ item ∈ items ++ items', item.Proper PlainNumber)
    (heq : (array items).toChars ++ rest = (array items').toChars ++ rest') :
    array items = array items' ∧ rest = rest' := by
  simp only [toChars, List.cons_append, List.append_assoc, List.cons.injEq,
    true_and, List.nil_append, itemChars_eq_intercalate] at heq
  have hhead : ∀ item ∈ items ++ items', ∀ rest,
      ']' ∉ (item.toChars ++ rest).head? :=
    fun item hitem => bracket_not_mem_head? (hplain item hitem)
  have hitems := intercalate_append_inj htells (by decide) (by decide) hhead heq
  exact hitems.imp_left (congrArg array)

theorem object_append_inj {members members' : Members} {rest rest' : List Char}
    (htells : Tells toChars (members.map Prod.snd) (members'.map Prod.snd))
    (heq : (object members).toChars ++ rest =
      (object members').toChars ++ rest') :
    object members = object members' ∧ rest = rest' := by
  simp only [toChars, List.cons_append, List.append_assoc, List.cons.injEq,
    true_and, List.nil_append, memberChars_eq_intercalate] at heq
  have hhead : ∀ member ∈ members ++ members', ∀ rest,
      Char.ofNat 0x7d ∉ (memberText member ++ rest).head? :=
    fun _ _ _ hmem => absurd (Option.some.inj hmem) (by decide)
  have hmembers :=
    intercalate_append_inj (tells_memberText htells) (by decide)
      (by decide) hhead heq
  exact hmembers.imp_left (congrArg object)

/-- A text tells its value and what stands behind it. -/
theorem toChars_append_inj {j j' : Json} {rest rest' : List Char}
    (h : j.Proper PlainNumber) (h' : j'.Proper PlainNumber)
    (hrest : EndsNumber rest) (hrest' : EndsNumber rest')
    (heq : j.toChars ++ rest = j'.toChars ++ rest') :
    j = j' ∧ rest = rest' := by
  -- The induction is over the first value; the second is of the same kind,
  -- since both start alike.
  have hmark := mark_eq h h' heq
  induction h generalizing j' rest rest' with
  | null =>
      cases h' with
      | null => exact ⟨rfl, List.append_cancel_left heq⟩
      | bool value => cases value <;> cases hmark
      | _ => cases hmark
  | bool value =>
      cases h' with
      | bool value' =>
          obtain rfl : value = value' := by
            cases value <;> cases value' <;> first | rfl | cases hmark
          exact ⟨rfl, List.append_cancel_left heq⟩
      | _ => cases value <;> cases hmark
  | number htext =>
      cases h' with
      | number htext' =>
          rw [toChars, toChars] at heq
          have htake := congrArg (List.takeWhile isNumberChar) heq
          rw [takeWhile_append_of_head? htext.chars hrest,
            takeWhile_append_of_head? htext'.chars hrest'] at htake
          obtain rfl := String.toList_injective htake
          exact ⟨rfl, List.append_cancel_left heq⟩
      | bool value => cases value <;> cases hmark
      | _ => cases hmark
  | string value =>
      cases h' with
      | string value' =>
          exact (stringChars_append_inj heq).imp_left (congrArg string)
      | bool value => cases value <;> cases hmark
      | _ => cases hmark
  | array hitems ih =>
      cases h' with
      | array hitems' =>
          have hplain := List.forall_mem_append.mpr ⟨hitems, hitems'⟩
          refine array_append_inj ?_ hplain heq
          intro item hitem item' hitem' rest rest' hrest hrest' heq
          exact ih item hitem (hitems' item' hitem') hrest hrest' heq
            (mark_eq (hitems item hitem) (hitems' item' hitem') heq)
      | bool value => cases value <;> cases hmark
      | _ => cases hmark
  | object _ hmembers ih =>
      cases h' with
      | object _ hmembers' =>
          refine object_append_inj
            (List.forall_mem_map.mpr fun member hmember =>
            List.forall_mem_map.mpr
              fun member' hmember' rest rest' hrest hrest' heq => ?_) heq
          exact ih member hmember (hmembers' member' hmember') hrest hrest' heq
            (mark_eq (hmembers member hmember) (hmembers' member' hmember') heq)
      | bool value => cases value <;> cases hmark
      | _ => cases hmark

theorem compact_injective {j j' : Json} (h : j.Proper PlainNumber)
    (h' : j'.Proper PlainNumber) (heq : j.compact = j'.compact) : j = j' := by
  have htext : j.toChars ++ [] = j'.toChars ++ [] :=
    congrArg (· ++ []) (String.ofList_injective heq)
  have hend : EndsNumber [] := fun c hc => by cases hc
  exact (toChars_append_inj h h' hend hend htext).1

end TableQuery.Json
