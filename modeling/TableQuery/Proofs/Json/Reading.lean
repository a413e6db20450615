import TableQuery.Proofs.Json.Members
import TableQuery.Proofs.Json.Numbers
import TableQuery.Proofs.Json.Strings

/-!
# Indented documents read back

A document reads back from its indented text if it nests less deep than the
reader's limit, and is refused otherwise.  The induction is over the document;
the reader's limit and the indentation go along with it.
-/

namespace TableQuery.Json

/-! ## Nesting -/

mutual

def nesting : Json → Nat
  | null | bool _ | number _ | string _ => 0
  | array items => itemsNesting items + 1
  | object members => membersNesting members + 1

def itemsNesting : List Json → Nat
  | [] => 0
  | item :: items => max (nesting item) (itemsNesting items)

def membersNesting : Members → Nat
  | [] => 0
  | (_, value) :: members => max (nesting value) (membersNesting members)

end

/-! ## Blanks -/

theorem skipBlanks_append {blanks : List Char}
    (h : ∀ c ∈ blanks, isBlank c = true) (cs : List Char) :
    skipBlanks (blanks ++ cs) = skipBlanks cs :=
  List.dropWhile_append_of_pos h

theorem skipBlanks_cons {c : Char} (h : isBlank c = false) (cs : List Char) :
    skipBlanks (c :: cs) = c :: cs :=
    List.dropWhile_cons_of_neg (by rw [h]; decide)

theorem isBlank_of_mem_newline {level : Nat} {c : Char}
    (h : c ∈ newline level) : isBlank c = true := by
  obtain rfl | hmem := List.mem_cons.mp h
  · rfl
  · rw [List.eq_of_mem_replicate hmem]
    rfl

theorem skipBlanks_newline (level : Nat) (cs : List Char) :
    skipBlanks (newline level ++ cs) = skipBlanks cs :=
  skipBlanks_append (fun _ => isBlank_of_mem_newline) cs

theorem endsNumber_newline (level : Nat) (cs : List Char) :
    EndsNumber (newline level ++ cs) :=
  endsNumber_cons (by decide) _

theorem endsNumber_comma (cs : List Char) : EndsNumber (',' :: cs) :=
  endsNumber_cons (by decide) cs

theorem isBlank_of_isNumberChar {c : Char} (h : isNumberChar c = true) :
    isBlank c = false := by
  by_contra hblank
  rw [Bool.not_eq_false, isBlank] at hblank
  simp only [Bool.or_eq_true, beq_iff_eq] at hblank
  rcases hblank with ((rfl | rfl) | rfl) | rfl <;> exact absurd h (by decide)

/-! ## One value -/

variable {limit : Nat}

theorem readValue?_blanks {cs cs' : List Char}
    (h : skipBlanks cs = skipBlanks cs') :
    readValue? limit cs = readValue? limit cs' := by
  rw [readValue?, readValue?, h]

theorem readValue?_string (s : String) (rest : List Char) :
    readValue? limit (stringChars s ++ rest) = some (string s, rest) := by
  have hread := readString?_stringChars s rest
  have hskip : skipBlanks (stringChars s ++ rest) = stringChars s ++ rest :=
    skipBlanks_cons (by decide) _
  rw [readValue?, hskip]
  change (readString? (stringChars s ++ rest)).map _ = _
  rw [hread]
  rfl

theorem readValue?_of_isNumberChar {c : Char} (h : isNumberChar c = true)
    (cs : List Char) :
    readValue? limit (c :: cs) =
      (readNumber? (c :: cs)).map fun (text, rest) => (number text, rest) := by
  have hbrace : ¬(c.toNat == 0x7b) = true := by
    intro hbrace
    have hc : c = Char.ofNat 0x7b := by
      rw [← beq_iff_eq.mp hbrace, Char.ofNat_toNat]
    exact absurd (hc ▸ h) (by decide)
  rw [readValue?, skipBlanks_cons (isBlank_of_isNumberChar h)]
  split
  case h_7 heq =>
      obtain ⟨rfl, rfl⟩ := List.cons.inj heq
      exact if_neg hbrace
  case h_1 heq => cases heq
  all_goals
    next heq =>
      obtain ⟨rfl, -⟩ := List.cons.inj heq
      exact absurd h (by decide)

theorem readValue?_number {text : String} {rest : List Char}
    (h : ReadableNumber text) (hrest : EndsNumber rest) :
    readValue? limit (text.toList ++ rest) = some (number text, rest) := by
  have hread := h.read rest hrest
  obtain ⟨c, cs, hcs⟩ := List.exists_cons_of_ne_nil h.ne_nil
  have hc : isNumberChar c = true := h.chars c (hcs ▸ List.mem_cons_self)
  rw [hcs, List.cons_append] at hread ⊢
  rw [readValue?_of_isNumberChar hc, hread]
  rfl

theorem readValue?_bracket (rest : List Char) :
    readValue? (limit + 1) ('[' :: rest) =
      if limit = 0 then none
      else
        match skipBlanks rest with
        | ']' :: rest => some (array [], rest)
        | _ => (items? (readValue? limit) (rest.length + 1) rest).map
            fun (items, rest) => (array items, rest) := by
  rw [readValue?, skipBlanks_cons (by decide)]
  cases limit with
  | zero => rfl
  | succ limit => rfl

theorem readValue?_brace (rest : List Char) :
    readValue? (limit + 1) (Char.ofNat 0x7b :: rest) =
      if limit = 0 then none
      else
        match skipBlanks rest with
        | [] => none
        | c :: tail =>
          if c.toNat == 0x7d then some (object [], tail)
          else (members? (readValue? limit) (rest.length + 1) rest).map
            fun (members, rest) => (object members, rest) := by
  rw [readValue?, skipBlanks_cons (by decide)]
  cases limit with
  | zero => rfl
  | succ limit => rfl

/-! ## Lists of values -/

/-- Whether the indented texts of a value read back within the limit, and only
then. -/
def Reads (limit : Nat) (j : Json) : Prop :=
  ∀ level rest, EndsNumber rest →
  readValue? limit (prettyChars level j ++ rest) =
    if j.nesting < limit then some (j, rest) else none

section

variable {j : Json} {rest : List Char}

theorem Reads.newline (h : Reads limit j) (level : Nat)
    (hrest : EndsNumber rest) :
    readValue? limit (Json.newline level ++ (prettyChars level j ++ rest)) =
      if j.nesting < limit then some (j, rest) else none := by
  rw [readValue?_blanks (skipBlanks_newline level _), h level rest hrest]

theorem Reads.space (h : Reads limit j) (level : Nat)
    (hrest : EndsNumber rest) :
    readValue? limit (' ' :: (prettyChars level j ++ rest)) =
      if j.nesting < limit then some (j, rest) else none := by
  have hskip : skipBlanks (' ' :: (prettyChars level j ++ rest)) =
      skipBlanks (prettyChars level j ++ rest) := rfl
  rw [readValue?_blanks hskip, h level rest hrest]

end

theorem prettyItems_append (level : Nat) (item : Json) (items : List Json)
    (rest : List Char) :
    prettyItems level (item :: items) ++ rest =
      newline level ++ (prettyChars level item ++
      (if items = [] then rest else
        ',' :: (prettyItems level items ++ rest))) := by
  cases items with
  | nil => simp [prettyItems]
  | cons next items => simp [prettyItems]

theorem prettyMembers_append (level : Nat) (key : String) (value : Json)
    (members : Members) (rest : List Char) :
    prettyMembers level ((key, value) :: members) ++ rest =
      newline level ++ (stringChars key ++
      (':' :: ' ' :: (prettyChars level value ++
        (if members = [] then rest else
          ',' :: (prettyMembers level members ++ rest))))) := by
  cases members with
  | nil => simp [prettyMembers]
  | cons next members => simp [prettyMembers]

section

variable {read? : List Char → Option (Json × List Char)} {fuel : Nat}
  {key : String} {value : Json} {cs rest rest' : List Char}

theorem items?_none (h : read? cs = none) :
    items? read? (fuel + 1) cs = none := by
  rw [items?, h]

theorem items?_comma (h : read? cs = some (value, ',' :: rest)) :
    items? read? (fuel + 1) cs =
      (items? read? fuel rest).map fun (items, rest) =>
        (value :: items, rest) := by
  rw [items?, h]
  rfl

theorem items?_bracket (h : read? cs = some (value, rest))
    (hclose : skipBlanks rest = ']' :: rest') :
    items? read? (fuel + 1) cs = some ([value], rest') := by
  rw [items?, h]
  dsimp only
  rw [hclose]
  rfl

private theorem members?_key (level : Nat) :
    members? read? (fuel + 1)
      (newline level ++ (stringChars key ++ ':' :: cs)) = match read? cs with
      | none => none
      | some (value, rest) =>
        match skipBlanks rest with
        | ',' :: rest =>
          (members? read? fuel rest).map fun (members, rest) =>
            ((key, value) :: members, rest)
        | c :: rest =>
            if c.toNat == 0x7d then some ([(key, value)], rest)
            else none
        | [] => none := by
  have hquote : skipBlanks (stringChars key ++ ':' :: cs) =
      stringChars key ++ ':' :: cs :=
    skipBlanks_cons (by decide) _
  rw [members?, skipBlanks_newline, hquote, readString?_stringChars]
  rfl

theorem members?_none (h : read? cs = none) (level : Nat) :
    members? read? (fuel + 1)
        (newline level ++ (stringChars key ++ ':' :: cs)) = none := by
  rw [members?_key, h]

theorem members?_comma (h : read? cs = some (value, ',' :: rest))
    (level : Nat) :
    members? read? (fuel + 1)
        (newline level ++ (stringChars key ++ ':' :: cs)) =
      (members? read? fuel rest).map fun (members, rest) =>
        ((key, value) :: members, rest) := by
  rw [members?_key, h]
  rfl

theorem members?_brace (h : read? cs = some (value, rest))
    (hclose : skipBlanks rest = Char.ofNat 0x7d :: rest') (level : Nat) :
    members? read? (fuel + 1)
        (newline level ++ (stringChars key ++ ':' :: cs)) =
      some ([(key, value)], rest') := by
  rw [members?_key, h]
  dsimp only
  rw [hclose]
  rfl

end

theorem items?_prettyItems {items : List Json} {level fuel : Nat}
    {rest : List Char} (hreads : ∀ item ∈ items, Reads limit item)
    (hne : items ≠ []) (hfuel : items.length ≤ fuel) :
    items? (readValue? limit) fuel
        (prettyItems (level + 1) items ++ (newline level ++ ']' :: rest)) =
      if itemsNesting items < limit then some (items, rest) else none := by
  induction items generalizing fuel with
  | nil => exact absurd rfl hne
  | cons item items ih =>
      obtain ⟨hfirst, hrest⟩ := List.forall_mem_cons.mp hreads
      rw [List.length_cons] at hfuel
      obtain ⟨fuel, rfl⟩ : ∃ n, fuel = n + 1 :=
        Nat.exists_eq_add_one.mpr (by omega)
      rw [prettyItems_append, itemsNesting]
      cases items with
      | nil =>
          have hread :=
            hfirst.newline (level + 1) (endsNumber_newline level (']' :: rest))
          rw [if_pos rfl, itemsNesting, Nat.max_zero]
          split at hread
          case isTrue hdeep =>
              rw [items?_bracket hread (skipBlanks_newline level _),
                if_pos hdeep]
          case isFalse hdeep => rw [items?_none hread, if_neg hdeep]
      | cons next items =>
          have hlength : (next :: items).length ≤ fuel := by omega
          have hitems := ih hrest (List.cons_ne_nil next items) hlength
          have hread := hfirst.newline (level + 1)
            (endsNumber_comma (prettyItems (level + 1) (next :: items) ++
              (newline level ++ ']' :: rest)))
          rw [if_neg (List.cons_ne_nil next items)]
          split at hread
          case isTrue hdeep =>
              rw [items?_comma hread, hitems]
              split
              case isTrue hdeeper =>
                  rw [if_pos (Nat.max_lt.mpr ⟨hdeep, hdeeper⟩)]; rfl
              case isFalse hdeeper =>
                  rw [if_neg fun h => hdeeper (Nat.max_lt.mp h).2]; rfl
          case isFalse hdeep =>
              rw [items?_none hread, if_neg fun h => hdeep (Nat.max_lt.mp h).1]

theorem members?_prettyMembers {members : Members} {level fuel : Nat}
    {rest : List Char} (hreads : ∀ member ∈ members, Reads limit member.2)
    (hne : members ≠ []) (hfuel : members.length ≤ fuel) :
    members? (readValue? limit) fuel
        (prettyMembers (level + 1) members ++
          (newline level ++ Char.ofNat 0x7d :: rest)) =
      if membersNesting members < limit then some (members, rest)
      else none := by
  induction members generalizing fuel with
  | nil => exact absurd rfl hne
  | cons member members ih =>
      obtain ⟨key, value⟩ := member
      obtain ⟨hfirst, hrest⟩ := List.forall_mem_cons.mp hreads
      rw [List.length_cons] at hfuel
      obtain ⟨fuel, rfl⟩ : ∃ n, fuel = n + 1 :=
        Nat.exists_eq_add_one.mpr (by omega)
      rw [prettyMembers_append, membersNesting]
      cases members with
      | nil =>
          have hread := hfirst.space (level + 1)
            (endsNumber_newline level (Char.ofNat 0x7d :: rest))
          rw [if_pos rfl, membersNesting, Nat.max_zero]
          split at hread
          case isTrue hdeep =>
              rw [members?_brace hread (skipBlanks_newline level _),
                if_pos hdeep]
          case isFalse hdeep => rw [members?_none hread, if_neg hdeep]
      | cons next members =>
          have hlength : (next :: members).length ≤ fuel := by omega
          have hmembers := ih hrest (List.cons_ne_nil next members) hlength
          have hread := hfirst.space (level + 1)
            (endsNumber_comma (prettyMembers (level + 1) (next :: members) ++
              (newline level ++ Char.ofNat 0x7d :: rest)))
          rw [if_neg (List.cons_ne_nil next members)]
          split at hread
          case isTrue hdeep =>
              rw [members?_comma hread, hmembers]
              split
              case isTrue hdeeper =>
                  rw [if_pos (Nat.max_lt.mpr ⟨hdeep, hdeeper⟩)]; rfl
              case isFalse hdeeper =>
                  rw [if_neg fun h => hdeeper (Nat.max_lt.mp h).2]; rfl
          case isFalse hdeep =>
              rw [members?_none hread,
                if_neg fun h => hdeep (Nat.max_lt.mp h).1]

/-! ## Documents -/

theorem length_le_length_prettyItems (level : Nat) (items : List Json) :
    items.length ≤ (prettyItems level items).length := by
  induction items with
  | nil => exact Nat.zero_le _
  | cons item items ih =>
      have hlength :=
        congrArg List.length (prettyItems_append level item items [])
      rw [List.append_nil, newline, List.cons_append, List.length_cons]
        at hlength
      cases items with
      | nil => exact hlength ▸ Nat.le_add_left 1 _
      | cons next items =>
          simp only [reduceCtorEq, if_false, List.length_append,
            List.length_cons] at hlength ih ⊢
          omega

theorem length_le_length_prettyMembers (level : Nat) (members : Members) :
    members.length ≤ (prettyMembers level members).length := by
  induction members with
  | nil => exact Nat.zero_le _
  | cons member members ih =>
      obtain ⟨key, value⟩ := member
      have hlength :=
        congrArg List.length (prettyMembers_append level key value members [])
      rw [List.append_nil, newline, List.cons_append, List.length_cons]
        at hlength
      cases members with
      | nil => exact hlength ▸ Nat.le_add_left 1 _
      | cons next members =>
          simp only [reduceCtorEq, if_false, List.length_append,
            List.length_cons] at hlength ih ⊢
          omega

theorem exists_prettyChars_cons {j : Json} (h : j.Proper ReadableNumber)
    (level : Nat) :
    ∃ c cs, prettyChars level j = c :: cs ∧ isBlank c = false ∧ c ≠ ']' := by
  cases h with
  | number htext =>
      obtain ⟨c, cs, hcs⟩ := List.exists_cons_of_ne_nil htext.ne_nil
      have hc : isNumberChar c = true :=
        htext.chars c (hcs ▸ List.mem_cons_self)
      refine ⟨c, cs, hcs, isBlank_of_isNumberChar hc, ?_⟩
      rintro rfl
      exact absurd hc (by decide)
  | null => exact ⟨_, _, rfl, by decide⟩
  | bool value => cases value <;> exact ⟨_, _, rfl, by decide⟩
  | string value => exact ⟨_, _, rfl, by decide⟩
  | @array items hitems => cases items <;> exact ⟨_, _, rfl, by decide⟩
  | @object members hkeys hmembers =>
      cases members <;> exact ⟨_, _, rfl, by decide⟩

theorem readValue?_array {item : Json} {items : List Json}
    (h : item.Proper ReadableNumber)
    (hreads : 0 < limit → ∀ other ∈ item :: items, Reads limit other)
    (level : Nat) (rest : List Char) :
    readValue? (limit + 1) (prettyChars level (array (item :: items)) ++ rest) =
      if itemsNesting (item :: items) < limit then
        some (array (item :: items), rest)
      else none := by
  obtain rfl | hlimit := Nat.eq_zero_or_pos limit
  · rfl
  have htext : prettyChars level (array (item :: items)) ++ rest =
      '[' :: (prettyItems (level + 1) (item :: items) ++
        (newline level ++ ']' :: rest)) := by
    simp [prettyChars]
  have hlength := length_le_length_prettyItems (level + 1) (item :: items)
  have hitems := @items?_prettyItems limit (item :: items) level
    ((prettyItems (level + 1) (item :: items) ++
      (newline level ++ ']' :: rest)).length + 1) rest
    (hreads hlimit) (List.cons_ne_nil item items)
      (by rw [List.length_append]; omega)
  obtain ⟨c, cs, hcs, hblank, hc⟩ := exists_prettyChars_cons h (level + 1)
  rw [htext, readValue?_bracket, if_neg (Nat.ne_of_gt hlimit)]
  split
  case h_1 heq =>
      -- The first item does not start with the bracket that would close an
      -- empty array.
      rw [prettyItems_append, skipBlanks_newline, hcs, List.cons_append,
        skipBlanks_cons hblank] at heq
      exact absurd (List.cons.inj heq).1 hc
  case h_2 =>
      rw [hitems]
      split <;> rfl

theorem readValue?_object {member : String × Json} {members : Members}
    (hreads : 0 < limit → ∀ other ∈ member :: members, Reads limit other.2)
    (level : Nat) (rest : List Char) :
    readValue? (limit + 1)
        (prettyChars level (object (member :: members)) ++ rest) =
      if membersNesting (member :: members) < limit then
        some (object (member :: members), rest)
      else none := by
  obtain rfl | hlimit := Nat.eq_zero_or_pos limit
  · rfl
  have htext : prettyChars level (object (member :: members)) ++ rest =
      Char.ofNat 0x7b :: (prettyMembers (level + 1) (member :: members) ++
        (newline level ++ Char.ofNat 0x7d :: rest)) := by
    simp [prettyChars]
  have hlength := length_le_length_prettyMembers (level + 1) (member :: members)
  have hmembers := @members?_prettyMembers limit (member :: members) level
    ((prettyMembers (level + 1) (member :: members) ++
      (newline level ++ Char.ofNat 0x7d :: rest)).length + 1) rest
    (hreads hlimit) (List.cons_ne_nil member members)
      (by rw [List.length_append]; omega)
  have hquote : ∃ cs,
      skipBlanks (prettyMembers (level + 1) (member :: members) ++
      (newline level ++ Char.ofNat 0x7d :: rest)) = '"' :: cs := by
    rw [prettyMembers_append, skipBlanks_newline]
    exact ⟨_, skipBlanks_cons (by decide) _⟩
  obtain ⟨cs, hcs⟩ := hquote
  rw [htext, readValue?_brace, if_neg (Nat.ne_of_gt hlimit), hcs]
  dsimp only
  rw [if_neg (by decide), hmembers]
  split <;> rfl

theorem reads {j : Json} (h : j.Proper ReadableNumber) (hlimit : 0 < limit) :
    Reads limit j := by
  -- Each container leaves one level less to its items, down to none at all.
  induction h generalizing limit with
  | null =>
      intro level rest _
      rw [nesting, if_pos hlimit, readValue?]
      rfl
  | bool value =>
      intro level rest _
      rw [nesting, if_pos hlimit, readValue?]
      cases value <;> rfl
  | number htext =>
      intro level rest hrest
      rw [nesting, if_pos hlimit]
      exact readValue?_number htext hrest
  | string value =>
      intro level rest _
      rw [nesting, if_pos hlimit]
      exact readValue?_string value rest
  | @array items hitems ih =>
      intro level rest _
      obtain ⟨limit, rfl⟩ := Nat.exists_eq_add_one.mpr hlimit
      simp only [nesting, Nat.add_lt_add_iff_right]
      cases items with
      | nil =>
          change readValue? (limit + 1) ('[' :: ']' :: rest) = _
          rw [readValue?_bracket, skipBlanks_cons (by decide)]
          cases limit <;> rfl
      | cons item items =>
          exact readValue?_array (hitems item List.mem_cons_self)
            (fun hlimit other hother => ih other hother hlimit) level rest
  | @object members hkeys hmembers ih =>
      intro level rest _
      obtain ⟨limit, rfl⟩ := Nat.exists_eq_add_one.mpr hlimit
      simp only [nesting, Nat.add_lt_add_iff_right]
      cases members with
      | nil =>
          change readValue? (limit + 1)
              (Char.ofNat 0x7b :: Char.ofNat 0x7d :: rest) = _
          rw [readValue?_brace, skipBlanks_cons (by decide)]
          cases limit <;> rfl
      | cons member members =>
          exact readValue?_object
            (fun hlimit other hother => ih other hother hlimit) level rest

/-! ## Keys that are not repeated -/

theorem mergedMembers_eq_foldl {before members : Members}
    (h : ∀ member ∈ members, member.2.merged = member.2) :
    mergedMembers before members =
      members.foldl
        (fun members (key, value) => Members.insert members key value)
        before := by
  induction members generalizing before with
  | nil => rfl
  | cons member members ih =>
      obtain ⟨hfirst, hrest⟩ := List.forall_mem_cons.mp h
      rw [mergedMembers, hfirst, ih hrest, List.foldl_cons]

theorem merged_eq_self {p : String → Prop} {j : Json} (h : j.Proper p) :
    j.merged = j := by
  induction h with
  | @array items hitems ih =>
      rw [merged, mergedItems_eq_map, List.map_congr_left ih, List.map_id']
  | @object members hkeys hmembers ih =>
      have hinsert := @Members.foldl_insert [] members hkeys
      rw [merged, mergedMembers_eq_foldl ih, hinsert, List.nil_append]
  | _ => rfl

/-! ## Whole texts -/

/-- A document reads back from its indented text if it nests less deep than
stored documents may, and is refused otherwise. -/
theorem parse?_pretty {j : Json} (h : j.Proper ReadableNumber) :
    parse? j.pretty = if j.nesting < depthLimit then some j else none := by
  have hread :=
    @reads depthLimit j h (by decide) 0 [] (fun c hc => absurd hc (by simp))
  rw [List.append_nil] at hread
  rw [parse?, parseWithin?, parseRaw?, pretty, String.toList_ofList, hread]
  by_cases hnesting : j.nesting < depthLimit
  · rw [if_pos hnesting, if_pos hnesting]
    exact congrArg some (merged_eq_self h)
  · rw [if_neg hnesting, if_neg hnesting]
    rfl

end TableQuery.Json
