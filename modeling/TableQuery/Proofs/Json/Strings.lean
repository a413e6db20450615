import Mathlib.Data.List.Forall2
import Mathlib.Tactic.IntervalCases
import TableQuery.Json.Reader
import TableQuery.Json.Writer

/-!
# JSON strings read back

A string reads back from its text, whatever stands behind it.  So two texts that
start with different strings are different.
-/

namespace TableQuery.Json

/-! ## Escapes -/

theorem codeUnit?_hexDigits {n : Nat} (h : n < 32) (rest : List Char) :
    codeUnit? (List.replicate (4 - (Text.hexDigits n).length) '0' ++
      Text.hexDigits n ++ rest) =
      some (n, rest) := by
  interval_cases n <;> rfl

theorem codePoint?_hexDigits {c : Char} (h : c.toNat < 32) (rest : List Char) :
    codePoint? (List.replicate (4 - (Text.hexDigits c.toNat).length) '0' ++
      Text.hexDigits c.toNat ++ rest) = some (c, rest) := by
  have hlow : (decide (c.toNat < 0xd800) || decide (0xe000 ≤ c.toNat)) =
      true := by
    rw [Bool.or_eq_true, decide_eq_true_iff]
    exact .inl (by omega)
  rw [codePoint?, codeUnit?_hexDigits h]
  change (if _ then _ else _) = _
  rw [if_pos hlow, Char.ofNat_toNat]

theorem stringBody?_escapeChar (fuel : Nat) (before : List Char) (c : Char)
    (rest : List Char) :
    stringBody? (fuel + 1) before (escapeChar c ++ rest) =
      stringBody? fuel (c :: before) rest := by
  unfold escapeChar
  split
  case h_8 hquote hbackslash _ _ _ _ _ =>
      split
      case isTrue hlow =>
          have hcode := codePoint?_hexDigits hlow rest
          dsimp only
          rw [List.append_assoc] at hcode
          simp only [List.append_assoc, List.cons_append, List.nil_append,
            stringBody?, escape?, hcode]
      case isFalse hhigh =>
          rw [List.singleton_append, stringBody?.eq_5 _ _ _ _ hquote hbackslash,
            if_neg hhigh]
  all_goals rfl

theorem stringBody?_flatMap {fuel : Nat} {cs : List Char} (h : cs.length < fuel)
    (before rest : List Char) :
    stringBody? fuel before (cs.flatMap escapeChar ++ '"' :: rest) =
      some (String.ofList (before.reverse ++ cs), rest) := by
  induction cs generalizing fuel before with
  | nil =>
      obtain ⟨fuel, rfl⟩ := Nat.exists_eq_add_one.mpr h
      rw [List.append_nil]
      rfl
  | cons c cs ih =>
      obtain ⟨fuel, rfl⟩ := Nat.exists_eq_add_one.mpr (Nat.zero_lt_of_lt h)
      rw [List.flatMap_cons, List.append_assoc, stringBody?_escapeChar,
        ih (Nat.lt_of_succ_lt_succ h), List.reverse_cons, List.append_assoc,
        List.singleton_append]

theorem escapeChar_ne_nil (c : Char) : escapeChar c ≠ [] := by
  unfold escapeChar
  split
  case h_8 => split <;> simp
  all_goals simp

theorem length_le_length_flatMap_escapeChar (cs : List Char) :
    cs.length ≤ (cs.flatMap escapeChar).length := by
  induction cs with
  | nil => exact Nat.le_refl 0
  | cons c cs ih =>
      have hpos := List.length_pos_iff.mpr (escapeChar_ne_nil c)
      rw [List.flatMap_cons, List.length_append, List.length_cons]
      omega

theorem readString?_stringChars (s : String) (rest : List Char) :
    readString? (stringChars s ++ rest) = some (s, rest) := by
  have hlength := length_le_length_flatMap_escapeChar s.toList
  have hbody : stringChars s ++ rest =
      '"' :: (s.toList.flatMap escapeChar ++ '"' :: rest) := by
    rw [stringChars, List.append_assoc, List.cons_append, List.singleton_append]
  rw [hbody, readString?, stringBody?_flatMap, List.reverse_nil,
    List.nil_append, String.ofList_toList]
  rw [List.length_append]
  omega

theorem stringChars_append_inj {s s' : String} {rest rest' : List Char}
    (h : stringChars s ++ rest = stringChars s' ++ rest') :
    s = s' ∧ rest = rest' := by
  have hread := congrArg readString? h
  rwa [readString?_stringChars, readString?_stringChars, Option.some.injEq,
    Prod.mk.injEq] at hread

/-! ## Texts that part -/

def Parts (cs cs' : List Char) : Prop :=
  ∃ before s s' rest rest', s ≠ s' ∧ cs = before ++ (stringChars s ++ rest) ∧
    cs' = before ++ (stringChars s' ++ rest')

namespace Parts

variable {cs cs' : List Char}

theorem ne (h : Parts cs cs') : cs ≠ cs' := by
  obtain ⟨before, s, s', rest, rest', hne, rfl, rfl⟩ := h
  exact fun heq => hne (stringChars_append_inj (List.append_cancel_left heq)).1

theorem append_left (h : Parts cs cs') (before : List Char) :
    Parts (before ++ cs) (before ++ cs') := by
  obtain ⟨before', s, s', rest, rest', hne, rfl, rfl⟩ := h
  exact ⟨before ++ before', s, s', rest, rest', hne,
    (List.append_assoc _ _ _).symm, (List.append_assoc _ _ _).symm⟩

theorem append_right (h : Parts cs cs') (after after' : List Char) :
    Parts (cs ++ after) (cs' ++ after') := by
  obtain ⟨before, s, s', rest, rest', hne, rfl, rfl⟩ := h
  exact ⟨before, s, s', rest ++ after, rest' ++ after', hne, by simp, by simp⟩

end Parts

/-- Two values that are told apart by their compact texts, if they differ. -/
def EqOrParts (j j' : Json) : Prop := j = j' ∨ Parts j.toChars j'.toChars

theorem EqOrParts.compact_eq_iff {j j' : Json} (h : EqOrParts j j') :
    j.compact = j'.compact ↔ j = j' := by
  constructor
  · intro hcompact
    refine h.resolve_right fun hparts => hparts.ne ?_
    rw [compact, compact] at hcompact
    exact String.ofList_injective hcompact
  · rintro rfl
    rfl

theorem itemChars_eq_intercalate (items : List Json) :
    itemChars items = [','].intercalate (items.map toChars) := by
  induction items with
  | nil => rfl
  | cons item items ih =>
      cases items with
      | nil => simp [itemChars]
      | cons next items =>
          rw [itemChars, ih]
          · simp [List.intercalate_cons_cons]
          · nofun

def memberText (member : String × Json) : List Char :=
  stringChars member.1 ++ ':' :: toChars member.2

theorem memberChars_eq_intercalate (members : Members) :
    memberChars members = [','].intercalate (members.map memberText) := by
  induction members with
  | nil => rfl
  | cons member members ih =>
      cases members with
      | nil => simp [memberChars, memberText]
      | cons next members =>
          rw [memberChars, ih]
          · simp [memberText, List.intercalate_cons_cons]
          · nofun

theorem eq_or_parts_intercalate {α : Type} {text : α → List Char}
    {as as' : List α}
    (h : List.Forall₂ (fun a a' => a = a' ∨ Parts (text a) (text a')) as as') :
    as = as' ∨ Parts ([','].intercalate (as.map text))
      ([','].intercalate (as'.map text)) := by
  induction h with
  | nil => exact .inl rfl
  | @cons a a' as as' hfirst hrest ih =>
      cases hrest with
      | nil =>
          simp only [List.map_cons, List.map_nil, List.intercalate_singleton]
          exact hfirst.imp_left fun heq => congrArg (fun a => [a]) heq
      | @cons b b' bs bs' _ _ =>
          simp only [List.map_cons, List.intercalate_cons_cons,
            List.append_assoc] at ih ⊢
          obtain rfl | hparts := hfirst
          · refine ih.imp (congrArg (a :: ·)) fun hparts => ?_
            exact (hparts.append_left [',']).append_left (text a)
          · exact .inr (hparts.append_right _ _)

theorem eqOrParts_array {items items' : List Json}
    (h : List.Forall₂ EqOrParts items items') :
    EqOrParts (array items) (array items') := by
  refine (eq_or_parts_intercalate h).imp (congrArg array) fun hparts => ?_
  rw [← itemChars_eq_intercalate, ← itemChars_eq_intercalate] at hparts
  exact (hparts.append_left ['[']).append_right [']'] [']']

theorem parts_array_concat {j j' : Json} (items : List Json)
    (h : Parts j.toChars j'.toChars) :
    Parts (toChars (array (items ++ [j])))
      (toChars (array (items ++ [j']))) := by
  have hitems : List.Forall₂ EqOrParts (items ++ [j]) (items ++ [j']) :=
    List.rel_append (List.forall₂_same.mpr fun _ _ => .inl rfl)
      (.cons (.inr h) .nil)
  refine (eqOrParts_array hitems).resolve_left fun heq => h.ne ?_
  rw [List.head_eq_of_cons_eq (List.append_cancel_left (array.inj heq))]

theorem eqOrParts_object {members members' : Members}
    (h : List.Forall₂ (fun m m' => m = m' ∨
      Parts (memberText m) (memberText m'))
      members members') : EqOrParts (object members) (object members') := by
  refine (eq_or_parts_intercalate h).imp (congrArg object) fun hparts => ?_
  rw [← memberChars_eq_intercalate, ← memberChars_eq_intercalate] at hparts
  exact (hparts.append_left [Char.ofNat 0x7b]).append_right [Char.ofNat 0x7d]
    [Char.ofNat 0x7d]

theorem eq_or_parts_memberText {value value' : Json} (key : String)
    (h : EqOrParts value value') :
    (key, value) = (key, value') ∨
      Parts (memberText (key, value)) (memberText (key, value')) := by
  refine h.imp (congrArg (Prod.mk key)) fun hparts => ?_
  exact (hparts.append_left [':']).append_left (stringChars key)

theorem exists_memberChars_eq (key : String) (value : Json)
    (members : Members) :
    ∃ rest, memberChars ((key, value) :: members) =
      stringChars key ++ rest := by
  cases members with
  | nil => exact ⟨_, rfl⟩
  | cons next members =>
      exact ⟨_, by rw [memberChars, List.append_assoc]; nofun⟩

theorem parts_object_of_key_ne {key key' : String} {value value' : Json}
    {first : String × Json} {members members' : Members} (h : key ≠ key') :
    Parts (toChars (object (first :: (key, value) :: members)))
      (toChars (object (first :: (key', value') :: members'))) := by
  obtain ⟨rest, hrest⟩ := exists_memberChars_eq key value members
  obtain ⟨rest', hrest'⟩ := exists_memberChars_eq key' value' members'
  have hparts : Parts (memberChars ((key, value) :: members))
      (memberChars ((key', value') :: members')) :=
    ⟨[], key, key', rest, rest', h, hrest, hrest'⟩
  have hfirst : ∀ member members, memberChars (first :: member :: members) =
      memberText first ++ ([','] ++ memberChars (member :: members)) := by
    intro member members
    rw [memberChars]
    · simp [memberText]
    · nofun
  rw [toChars, toChars, hfirst, hfirst]
  exact (((hparts.append_left [',']).append_left (memberText first)).append_left
    [Char.ofNat 0x7b]).append_right [Char.ofNat 0x7d] [Char.ofNat 0x7d]

end TableQuery.Json
