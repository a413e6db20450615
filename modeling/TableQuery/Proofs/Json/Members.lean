import Mathlib.Data.List.Perm.Basic
import TableQuery.Json.Reader

/-!
# Members of objects

An object whose keys are distinct is told by its members in any order.  Giving
it a new key adds a member at the end, and removing a key leaves the other
members in some order.
-/

namespace TableQuery.Json

/-! ## Induction -/

@[elab_as_elim]
theorem induct {motive : Json → Prop} (null : motive .null)
    (bool : ∀ value, motive (.bool value))
    (number : ∀ text, motive (.number text))
    (string : ∀ value, motive (.string value))
    (array : ∀ items, (∀ item ∈ items, motive item) → motive (.array items))
    (object : ∀ members, (∀ member ∈ members, motive member.2) →
      motive (.object members)) (j : Json) : motive j :=
  Json.rec (motive_1 := motive)
    (motive_2 := fun items => ∀ item ∈ items, motive item)
    (motive_3 := fun members => ∀ member ∈ members, motive member.2)
    (motive_4 := fun member => motive member.2)
    null bool number string array object
    (fun _ h => absurd h List.not_mem_nil)
    (fun _ _ first rest item h => (List.mem_cons.mp h).elim (fun h => h ▸ first)
      (rest item))
    (fun _ h => absurd h List.not_mem_nil)
    (fun _ _ first rest member h => (List.mem_cons.mp h).elim
      (fun h => h ▸ first) (rest member))
    (fun _ _ h => h) j

namespace Members

variable {members added : Members} {key : String} {value : Json}

/-! ## Looking up -/

theorem get?_append (as bs : Members) (key : String) :
    get? (as ++ bs) key = (get? as key).or (get? bs key) := List.lookup_append

theorem get?_eq_none_iff : get? members key = none ↔ key ∉ keys members := by
  simp only [get?, keys, List.lookup_eq_none_iff, List.mem_map,
    not_exists, not_and]
  constructor
  · intro h member hmember heq
    have := h member hmember
    simp [heq] at this
  · intro h member hmember
    simpa using fun heq => h member hmember heq.symm

theorem get?_eq_some_of_mem (hkeys : (keys members).Nodup)
    (h : (key, value) ∈ members) : get? members key = some value := by
  induction members with
  | nil => exact absurd h List.not_mem_nil
  | cons member members ih =>
      obtain ⟨hnew, hrest⟩ := List.nodup_cons.mp hkeys
      obtain rfl | hmem := List.mem_cons.mp h
      · exact List.lookup_cons_self
      · have hne : key ≠ member.1 := by
          rintro rfl
          exact hnew (List.mem_map.mpr ⟨_, hmem, rfl⟩)
        rw [get?, List.lookup_cons, beq_false_of_ne hne]
        exact ih hrest hmem

/-! ## Adding -/

theorem insert_of_not_mem (h : key ∉ keys members) :
    insert members key value = members ++ [(key, value)] := by
  induction members with
  | nil => rfl
  | cons member members ih =>
      rw [keys, List.map_cons, List.mem_cons, not_or] at h
      rw [insert, if_neg (Ne.symm h.1), ih h.2, List.cons_append]

theorem mem_keys_insert {key' : String}
    (h : key' ∈ keys (insert members key value)) :
    key' = key ∨ key' ∈ keys members := by
  induction members with
  | nil => exact .inl (List.mem_singleton.mp h)
  | cons member members ih =>
      rw [insert] at h
      split at h
      case isTrue => exact .inr h
      case isFalse =>
          obtain rfl | hrest := List.mem_cons.mp h
          · exact .inr List.mem_cons_self
          · exact (ih hrest).imp_right (List.mem_cons_of_mem _)

theorem foldl_insert (h : (keys (members ++ added)).Nodup) :
    added.foldl (fun members (key, value) => insert members key value) members =
      members ++ added := by
  induction added generalizing members with
  | nil => rw [List.foldl_nil, List.append_nil]
  | cons member added ih =>
      obtain ⟨key, value⟩ := member
      have hnew : key ∉ keys members := by
        rw [keys, List.map_append, List.nodup_append] at h
        intro hmem
        exact h.2.2 key hmem key (by simp) rfl
      have hrest : (keys (members ++ [(key, value)] ++ added)).Nodup := by
        simpa using h
      rw [List.foldl_cons]
      dsimp only
      rw [insert_of_not_mem hnew, ih hrest, List.append_assoc,
        List.singleton_append]

/-! ## Removing -/

section

variable {before rest : Members} {last : String × Json}

private theorem findIdx?_append_cons (h : key ∉ keys before) (after : Members) :
    (before ++ (key, value) :: after).findIdx? (·.1 = key) =
      some before.length := by
  have hnone : before.findIdx? (·.1 = key) = none := by
    rw [List.findIdx?_eq_none_iff]
    intro member hmember
    have hne : member.1 ≠ key := by
      rintro rfl
      exact h (List.mem_map_of_mem hmember)
    exact decide_eq_false hne
  rw [List.findIdx?_append, hnone, List.findIdx?_cons]
  simp

theorem remove_append_singleton (h : key ∉ keys before) :
    remove (before ++ [(key, value)]) key = before := by
  rw [remove, findIdx?_append_cons h, List.getLast?_concat]
  simp

theorem remove_append_cons_append (h : key ∉ keys before) :
    remove (before ++ (key, value) :: (rest ++ [last])) key =
      before ++ last :: rest := by
  have hsplit : before ++ (key, value) :: (rest ++ [last]) =
      (before ++ (key, value) :: rest) ++ [last] := by
    rw [List.append_assoc, List.cons_append]
  rw [remove, findIdx?_append_cons h, hsplit, List.getLast?_concat]
  dsimp only
  rw [List.dropLast_concat, if_neg (by simp),
    List.set_append_right _ _ (Nat.le_refl _), Nat.sub_self]
  rfl

theorem remove_cons_self_cases (hkeys : (keys before).Nodup) :
    (before.length ≤ 1 ∧ remove ((key, value) :: before) key = before) ∨
      (1 < before.length ∧ ∃ first others last rest, before = first :: others ∧
        remove ((key, value) :: before) key = last :: rest ∧
        last.1 ≠ first.1) := by
  have hempty : key ∉ keys [] := List.not_mem_nil
  obtain rfl | ⟨rest, last, rfl⟩ := List.eq_nil_or_concat before
  · exact .inl ⟨Nat.zero_le 1, @remove_append_singleton key value [] hempty⟩
  · have hremove := @remove_append_cons_append key value [] rest last hempty
    rw [List.nil_append, List.nil_append] at hremove
    rw [List.concat_eq_append] at hkeys ⊢
    cases rest with
    | nil => exact .inl ⟨Nat.le_refl 1, hremove⟩
    | cons first rest =>
        refine .inr ⟨by simp, first, rest ++ [last], last, first :: rest,
          rfl, hremove, ?_⟩
        intro heq
        simp [keys, heq] at hkeys

end

/-- Removing a key takes out one member; the order of the others may change. -/
theorem perm_remove (h : get? members key = some value) :
    members.Perm ((key, value) :: remove members key) := by
  obtain ⟨before, after, rfl, hbefore⟩ := List.lookup_eq_some_iff.mp h
  have hnew : key ∉ keys before := by
    intro hmem
    obtain ⟨member, hmember, rfl⟩ := List.mem_map.mp hmem
    simpa using hbefore member hmember
  obtain rfl | ⟨rest, last, rfl⟩ := List.eq_nil_or_concat after
  · rw [remove_append_singleton hnew]
    exact List.perm_append_singleton (key, value) before
  · rw [List.concat_eq_append, remove_append_cons_append hnew]
    exact List.perm_middle.trans
      (((List.perm_append_singleton last rest).append_left before).cons
        (key, value))

theorem keys_remove_subset (h : get? members key = some value) :
    keys (remove members key) ⊆ keys members := by
  intro key' hkey'
  have hperm := (perm_remove h).map Prod.fst
  exact hperm.mem_iff.mpr (List.mem_cons_of_mem key hkey')

theorem not_mem_keys_remove (hkeys : (keys members).Nodup)
    (h : get? members key = some value) : key ∉ keys (remove members key) := by
  have hnodup := ((perm_remove h).map Prod.fst).nodup hkeys
  exact (List.nodup_cons.mp hnodup).1

end Members

/-! ## Distinct keys -/

mutual

/-- Whether no object of a value has a key twice. -/
def DistinctKeys : Json → Prop
  | null | bool _ | number _ | string _ => True
  | array items => ItemsDistinct items
  | object members => (Members.keys members).Nodup ∧ MembersDistinct members

def ItemsDistinct : List Json → Prop
  | [] => True
  | item :: items => DistinctKeys item ∧ ItemsDistinct items

def MembersDistinct : Members → Prop
  | [] => True
  | (_, value) :: members => DistinctKeys value ∧ MembersDistinct members

end

theorem itemsDistinct_iff {items : List Json} :
    ItemsDistinct items ↔ ∀ item ∈ items, item.DistinctKeys := by
  induction items with
  | nil => simp [ItemsDistinct]
  | cons item items ih => simp [ItemsDistinct, ih]

theorem membersDistinct_iff {members : Members} :
    MembersDistinct members ↔ ∀ member ∈ members, member.2.DistinctKeys := by
  induction members with
  | nil => simp [MembersDistinct]
  | cons member members ih => simp [MembersDistinct, ih]

theorem DistinctKeys.of_perm {as bs : Members} (h : (object as).DistinctKeys)
    (hperm : as.Perm bs) : (object bs).DistinctKeys := by
  have hmembers := membersDistinct_iff.mp h.2
  exact ⟨(hperm.map Prod.fst).nodup h.1,
    membersDistinct_iff.mpr fun member hmember =>
    hmembers member (hperm.mem_iff.mpr hmember)⟩

theorem DistinctKeys.sublist {as bs : Members} (h : (object as).DistinctKeys)
    (hsublist : bs.Sublist as) : (object bs).DistinctKeys :=
  ⟨(hsublist.map Prod.fst).nodup h.1,
    membersDistinct_iff.mpr fun member hmember =>
    membersDistinct_iff.mp h.2 member (hsublist.subset hmember)⟩

theorem DistinctKeys.remove {members : Members} {key : String} {value : Json}
    (h : (object members).DistinctKeys)
    (hget : Members.get? members key = some value) :
    (object (Members.remove members key)).DistinctKeys := by
  obtain ⟨hnodup, hdistinct⟩ := h.of_perm (Members.perm_remove hget)
  exact ⟨(List.nodup_cons.mp hnodup).2, hdistinct.2⟩

theorem DistinctKeys.get? {members : Members} {key : String} {value : Json}
    (h : (object members).DistinctKeys)
    (hget : Members.get? members key = some value) :
    value.DistinctKeys := by
  obtain ⟨before, after, rfl, -⟩ := List.lookup_eq_some_iff.mp hget
  exact membersDistinct_iff.mp h.2 (key, value)
    (List.mem_append_right _ List.mem_cons_self)

theorem DistinctKeys.insert {members : Members} {key : String} {value : Json}
    (h : (object members).DistinctKeys) (hvalue : value.DistinctKeys) :
    (object (Members.insert members key value)).DistinctKeys := by
  induction members with
  | nil =>
      exact ⟨List.nodup_cons.mpr ⟨List.not_mem_nil, List.nodup_nil⟩,
        hvalue, trivial⟩
  | cons member members ih =>
      obtain ⟨hnodup, hfirst, hdistinct⟩ := h
      obtain ⟨hnew, hrest⟩ := List.nodup_cons.mp hnodup
      rw [Members.insert]
      split
      case isTrue => exact ⟨hnodup, hvalue, hdistinct⟩
      case isFalse hne =>
          obtain ⟨hnodup', hdistinct'⟩ := ih ⟨hrest, hdistinct⟩
          refine ⟨List.nodup_cons.mpr ⟨fun hmem => ?_, hnodup'⟩,
            hfirst, hdistinct'⟩
          obtain heq | hmem := Members.mem_keys_insert hmem
          · exact hne heq
          · exact hnew hmem

theorem distinctKeys_mergedMembers {members : Members}
    (h : ∀ member ∈ members, member.2.merged.DistinctKeys) {before : Members}
    (hbefore : (object before).DistinctKeys) :
    (object (mergedMembers before members)).DistinctKeys := by
  induction members generalizing before with
  | nil => exact hbefore
  | cons member members ih =>
      obtain ⟨hfirst, hrest⟩ := List.forall_mem_cons.mp h
      exact ih hrest (hbefore.insert hfirst)

theorem mergedItems_eq_map (items : List Json) :
    mergedItems items = items.map merged := by
  induction items with
  | nil => rfl
  | cons item items ih => rw [mergedItems, ih, List.map_cons]

theorem distinctKeys_merged (j : Json) : j.merged.DistinctKeys := by
  induction j using induct with
  | array items ih =>
      rw [merged, mergedItems_eq_map, DistinctKeys, itemsDistinct_iff,
        List.forall_mem_map]
      exact ih
  | object members ih =>
      exact distinctKeys_mergedMembers ih ⟨List.nodup_nil, trivial⟩
  | _ => trivial

/-- Every document read from a text has distinct keys. -/
theorem distinctKeys_of_parse? {text : String} {j : Json}
    (h : parse? text = some j) :
    j.DistinctKeys := by
  obtain ⟨raw, -, rfl⟩ := Option.map_eq_some_iff.mp h
  exact distinctKeys_merged raw

/-! ## Proper documents -/

/-- A document in which no object has a key twice and the text of every number
is of some form. -/
inductive Proper (p : String → Prop) : Json → Prop
  | null : Proper p .null
  | bool (value : Bool) : Proper p (.bool value)
  | number {text : String} (htext : p text) : Proper p (.number text)
  | string (value : String) : Proper p (.string value)
  | array {items : List Json} (hitems : ∀ item ∈ items, Proper p item) :
      Proper p (.array items)
  | object {members : Members} (hkeys : (Members.keys members).Nodup)
      (hmembers : ∀ member ∈ members, Proper p member.2) :
      Proper p (.object members)

theorem proper_array_iff {p : String → Prop} {items : List Json} :
    (array items).Proper p ↔ ∀ item ∈ items, item.Proper p := by
  constructor
  · rintro (_ | _ | _ | _ | hitems)
    exact hitems
  · exact .array

theorem proper_object_iff {p : String → Prop} {members : Members} :
    (object members).Proper p ↔
      (Members.keys members).Nodup ∧ ∀ member ∈ members, member.2.Proper p := by
  constructor
  · rintro (_ | _ | _ | _ | _ | ⟨hkeys, hmembers⟩)
    exact ⟨hkeys, hmembers⟩
  · rintro ⟨hkeys, hmembers⟩
    exact .object hkeys hmembers

/-! ## Sameness -/

theorem sameItems_self {items : List Json}
    (h : ∀ item ∈ items, item.same item = true) :
    sameItems items items = true := by
  induction items with
  | nil => rfl
  | cons item items ih =>
      have hfirst := h item List.mem_cons_self
      have hrest :=
        ih fun other hother => h other (List.mem_cons_of_mem item hother)
      rw [sameItems, hfirst, hrest, Bool.and_self]

theorem sameMembers_of_forall {as bs : Members}
    (h : ∀ a ∈ as, ∃ b, Members.get? bs a.1 = some b ∧ a.2.same b = true) :
    sameMembers as bs = true := by
  induction as with
  | nil => rfl
  | cons a as ih =>
      obtain ⟨b, hget, hsame⟩ := h a List.mem_cons_self
      have hrest :=
        ih fun other hother => h other (List.mem_cons_of_mem a hother)
      simp [sameMembers, hget, hsame, hrest]

private theorem same_object_of_forall {as bs : Members} (hperm : as.Perm bs)
    (hkeys : (Members.keys bs).Nodup) (hsame : ∀ b ∈ bs, b.2.same b.2 = true) :
    (object as).same (object bs) = true := by
  have hmembers : sameMembers as bs = true := by
    refine sameMembers_of_forall fun a ha =>
      ⟨a.2, ?_, hsame a (hperm.mem_iff.mp ha)⟩
    exact Members.get?_eq_some_of_mem hkeys (hperm.mem_iff.mp ha)
  rw [same, hperm.length_eq, hmembers, beq_self_eq_true, Bool.and_self]

theorem same_self {j : Json} (h : j.DistinctKeys) : j.same j = true := by
  induction j using induct with
  | null => rfl
  | bool value => exact beq_self_eq_true value
  | number text => exact beq_self_eq_true text
  | string value => exact beq_self_eq_true value
  | array items ih =>
      have hitems := itemsDistinct_iff.mp h
      exact sameItems_self fun item hitem => ih item hitem (hitems item hitem)
  | object members ih =>
      have hmembers := membersDistinct_iff.mp h.2
      exact same_object_of_forall (List.Perm.refl members) h.1
        fun member hmember =>
        ih member hmember (hmembers member hmember)

theorem same_object_of_perm {as bs : Members} (hperm : as.Perm bs)
    (h : (object bs).DistinctKeys) : (object as).same (object bs) = true := by
  have hmembers := membersDistinct_iff.mp h.2
  exact same_object_of_forall hperm h.1 fun b hb => same_self (hmembers b hb)

/-! ## Counts -/

theorem lt_of_nat64? {j : Json} {n : Nat} (h : j.nat64? = some n) :
    n < Word.size64 := by
  cases j with
  | number text =>
      rw [nat64?, digits64?] at h
      dsimp only at h
      split at h
      case isTrue =>
          split at h
          case isTrue hlt => exact Option.some.inj h ▸ hlt
          case isFalse => cases h
      case isFalse => cases h
  | _ => cases h

theorem nat64?_ofNat {n : Nat} (h : n < Word.size64) :
    (ofNat n).nat64? = some n := by
  have htext : (toString n).toList = Nat.toDigits 10 n := Nat.toList_repr
  have hdigits : (Nat.toDigits 10 n).all Char.isDigit = true :=
    List.all_eq_true.mpr fun c hc =>
      Nat.isDigit_of_mem_toDigits (by decide) (by decide) hc
  have hvalue : (Nat.toDigits 10 n).foldl
      (fun n c => 10 * n + (c.toNat - '0'.toNat)) 0 = n :=
    Nat.ofDigitChars_ten_toDigits
  have hne : (Nat.toDigits 10 n).isEmpty = false := by
    simp [Nat.toDigits_ne_nil]
  rw [ofNat, nat64?, digits64?, htext]
  dsimp only
  rw [hvalue, hne, hdigits, Bool.not_false, Bool.and_self, if_pos rfl, if_pos h]

end TableQuery.Json
