import TableQuery.Proofs.Wire.Query
import TableQuery.Proofs.Wire.Reading

/-!
# Queries as they are read

What is read from a document as a query can be stored: no option is left that
would be read as the name, every sort is on the first breakout that is equal to
what was written, and the members kept aside are those without meaning.
-/

namespace TableQuery

/-! ## Settled stages -/

/-- An aggregation that storing and reading again leave as it is, but for the
order of the options of a named one. -/
structure Aggregation.Settled (a : Aggregation) : Prop where
  expression : a.expression.Settled
  options : (Json.object a.options).DistinctKeys
  optionsApart : a.OptionsApart
  optionsReread_eq : a.name = none → a.optionsReread = a.options

structure Stage.Settled (s : Stage) : Prop where
  readable : s.Readable
  expressions : ∀ e ∈ s.expressions, e.reread = e
  aggregations : ∀ a ∈ s.aggregations, a.Settled

theorem Stage.forall_mem_expressions_iff {s : Stage} {p : Expression → Prop} :
    (∀ e ∈ s.expressions, p e) ↔ (∀ c ∈ s.customColumns, p c.expression) ∧
      (∀ e ∈ s.filters, p e) ∧ ∀ a ∈ s.aggregations, p a.expression := by
  simp only [Stage.expressions, List.forall_mem_append, List.forall_mem_map,
    and_assoc]

theorem Stage.Settled.reread_eq {s : Stage} (h : s.Settled) :
    s.reread = { s
      with aggregations := s.aggregations.map Aggregation.reread } := by
  obtain ⟨hcolumns, hfilters, -⟩ := forall_mem_expressions_iff.mp h.expressions
  have hcolumns : s.customColumns.map CustomColumn.reread =
      s.customColumns := by
    refine (List.map_congr_left fun c hc => ?_).trans (List.map_id' _)
    rw [CustomColumn.reread, hcolumns c hc]
  have hfilters : s.filters.map Expression.reread = s.filters :=
    (List.map_congr_left hfilters).trans (List.map_id' _)
  rw [reread, hcolumns, hfilters]

namespace Wire

variable {path : String}

/-! ## Clauses -/

theorem eq_of_tagged? {j : Json} {tag : String} {args : List Json}
    (h : tagged? j = some (tag, args)) : j = taggedArray tag args := by
  unfold tagged? at h
  split at h <;> cases h
  rfl

theorem distinctKeys_of_tagged? {j : Json} {tag : String} {args : List Json}
    (h : tagged? j = some (tag, args)) (hkeys : j.DistinctKeys) :
    ∀ arg ∈ args, arg.DistinctKeys := by
  rw [eq_of_tagged? h] at hkeys
  exact (List.forall_mem_cons.mp (Json.itemsDistinct_iff.mp hkeys)).2

theorem settled_of_options_eq_nil {e : Expression} (h : e.Settled)
    (name : Option String) : Aggregation.Settled ⟨e, name, []⟩ where
  expression := h
  options := ⟨List.nodup_nil, trivial⟩
  optionsApart := ⟨List.not_mem_nil, fun _ _ => nofun⟩
  optionsReread_eq := by
    rintro rfl
    rfl

theorem settled_of_name_last {e : Expression} {members : Json.Members}
    {value : Json} (he : e.Settled)
    (hkeys : (Json.object (members ++ [("name", value)])).DistinctKeys)
    (hdisplay : "display-name" ∉ Json.Members.keys
      (members ++ [("name", value)])) (hvalue : ∀ name, value ≠ .string name) :
    Aggregation.Settled ⟨e, none, members ++ [("name", value)]⟩ := by
  have hnew : "name" ∉ Json.Members.keys members := by
    have hnodup := hkeys.1
    rw [Json.Members.keys, List.map_append, List.nodup_append] at hnodup
    exact fun hmem => hnodup.2.2 "name" hmem "name" List.mem_cons_self rfl
  have hget : Json.Members.get? (members ++ [("name", value)]) "name" =
      some value := by
    rw [Json.Members.get?_append, Json.Members.get?_eq_none_iff.mpr hnew]
    rfl
  refine ⟨he, hkeys, ⟨hdisplay, fun _ name heq => ?_⟩, fun _ => ?_⟩
  · exact hvalue name (Option.some.inj (hget.symm.trans heq))
  · rw [Aggregation.optionsReread, hget]
    dsimp only
    rw [Json.Members.remove_append_singleton hnew,
      Json.Members.insert_of_not_mem hnew]

theorem settled_of_splitName {e : Expression} {options rest : Json.Members}
    {name : Option String} (he : e.Settled)
    (hkeys : (Json.object options).DistinctKeys)
    (h : splitName path options = .ok (name, rest)) :
    Aggregation.Settled ⟨e, name, rest⟩ := by
  unfold splitName at h
  split at h
  case h_1 display hdisplay =>
      cases h
      refine ⟨he, hkeys.remove hdisplay, ⟨?_, nofun⟩, nofun⟩
      exact Json.Members.not_mem_keys_remove hkeys.1 hdisplay
  case h_2 => cases h
  case h_3 hdisplay =>
      rw [Json.Members.get?_eq_none_iff] at hdisplay
      split at h
      case h_1 legacy hname =>
          cases h
          refine ⟨he, hkeys.remove hname, ⟨fun hmem => ?_, nofun⟩, nofun⟩
          exact hdisplay (Json.Members.keys_remove_subset hname hmem)
      case h_2 other hother hname =>
          cases h
          have hperm := (Json.Members.perm_remove hname).trans
            (List.perm_append_singleton _
              (Json.Members.remove options "name")).symm
          have hnew := Json.Members.not_mem_keys_remove hkeys.1 hname
          rw [Json.Members.insert_of_not_mem hnew]
          refine settled_of_name_last he (hkeys.of_perm hperm)
            (fun hmem => ?_) hother
          exact hdisplay ((hperm.map Prod.fst).mem_iff.mpr hmem)
      case h_3 hname =>
          cases h
          refine ⟨he, hkeys, ⟨hdisplay, fun _ name heq => ?_⟩, fun _ => ?_⟩
          · rw [hname] at heq
            cases heq
          · rw [Aggregation.optionsReread, hname]

theorem settled_of_aggregationOfJson {j : Json} {a : Aggregation}
    (hkeys : j.DistinctKeys) (h : aggregationOfJson path j = .ok a) :
    a.Settled := by
  unfold aggregationOfJson at h
  split at h
  case h_1 args htag =>
      split at h
      case h_1 expression options =>
          obtain ⟨⟨name, rest⟩, hsplit, h⟩ := bind_eq_ok_iff.mp h
          obtain ⟨e, he, h⟩ := bind_eq_ok_iff.mp h
          cases h
          have hargs := distinctKeys_of_tagged? htag hkeys
          have hexpression :=
            settled_of_expressionOfJson (hargs expression (by simp)) he
          exact settled_of_splitName hexpression
            (hargs (.object options) (by simp)) hsplit
      case h_2 => cases h
      case h_3 => cases h
  case h_2 args htag =>
      split at h
      case h_1 expression name =>
          obtain ⟨e, he, h⟩ := bind_eq_ok_iff.mp h
          cases h
          have hargs := distinctKeys_of_tagged? htag hkeys
          have hexpression :=
            settled_of_expressionOfJson (hargs expression (by simp)) he
          exact settled_of_options_eq_nil hexpression name.string?
      case h_2 => cases h
  case h_3 =>
      obtain ⟨e, he, h⟩ := bind_eq_ok_iff.mp h
      cases h
      exact settled_of_options_eq_nil
        (settled_of_expressionOfJson hkeys he) none

theorem fits_of_identifier {j : Json} {id : Identifier}
    (h : identifier path j = .ok id) :
    id.Fits ∧
      (id.aggregationIndex? = none ∨ ∃ index, tagged? j =
        some ("aggregation", [index])) := by
  obtain ⟨id?, hid, h⟩ := bind_eq_ok_iff.mp h
  cases id? with
  | some id =>
      cases h
      exact fits_of_identifier? hid
  | none => cases h

theorem fits_of_breakoutOfJson {j : Json} {b : Breakout}
    (h : breakoutOfJson path j = .ok b) :
    b.column.Fits ∧ (b.unit = none → b.column.aggregationIndex? = none ∨
      ∃ index, tagged? j = some ("aggregation", [index])) := by
  unfold breakoutOfJson at h
  split at h
  case h_1 =>
      split at h
      case h_1 =>
          obtain ⟨id, hid, h⟩ := bind_eq_ok_iff.mp h
          cases h
          exact ⟨(fits_of_identifier hid).1, nofun⟩
      case h_2 => cases h
  case h_2 =>
      obtain ⟨id, hid, h⟩ := bind_eq_ok_iff.mp h
      cases h
      exact ⟨(fits_of_identifier hid).1, fun _ => (fits_of_identifier hid).2⟩

theorem findable_of_orderTargetOfJson {breakouts : List Breakout} {j : Json}
    {target : OrderTarget}
    (h : orderTargetOfJson breakouts path j = .ok target) :
    target.Findable breakouts := by
  unfold orderTargetOfJson at h
  split at h
  case h_1 index htag =>
      split at h <;> cases h
      case h_1 hindex => exact Json.lt_of_nat64? hindex
  case h_2 htag =>
      obtain ⟨b, hb, h⟩ := bind_eq_ok_iff.mp h
      obtain ⟨hfits, hcolumn⟩ := fits_of_breakoutOfJson hb
      have hplain : b.unit = none → b.column.aggregationIndex? = none := by
        intro hunit
        obtain hnone | ⟨index, htag'⟩ := hcolumn hunit
        · exact hnone
        · exact absurd htag' (htag index)
      split at h
      case h_1 i hfound =>
          cases h
          obtain ⟨hi, heq, -⟩ := List.findIdx?_eq_some_iff_getElem.mp hfound
          have hb : breakouts[i]? = some b := by
            rw [List.getElem?_eq_getElem hi, eq_of_beq heq]
          exact ⟨b, hb, hfound, hfits, hplain⟩
      case h_2 hfound hunit =>
          cases h
          obtain ⟨column, unit⟩ := b
          cases hunit
          exact ⟨hfound, hfits, hplain rfl⟩
      case h_3 => cases h

theorem findable_of_orderByOfJson {breakouts : List Breakout}
    {j : Json} {o : OrderBy} (h : orderByOfJson breakouts path j = .ok o) :
    o.target.Findable breakouts := by
  unfold orderByOfJson at h
  split at h
  case h_2 => cases h
  case h_1 =>
      split at h
      case h_3 => cases h
      all_goals
        obtain ⟨target, htarget, h⟩ := bind_eq_ok_iff.mp h
        cases h
        exact findable_of_orderTargetOfJson htarget

/-! ## Stages -/

theorem forall₂_of_itemsOfJson {α : Type}
    {read : String → Json → Except WireError α} {index : Nat}
    {items : List Json} {as : List α}
    (h : itemsOfJson read path index items = .ok as) :
    List.Forall₂ (fun item a => ∃ path, read path item = .ok a) items as := by
  induction items generalizing index as with
  | nil =>
      cases h
      exact .nil
  | cons item items ih =>
      obtain ⟨first, hfirst, h⟩ := bind_eq_ok_iff.mp h
      obtain ⟨rest, hrest, h⟩ := bind_eq_ok_iff.mp h
      cases h
      exact .cons ⟨_, hfirst⟩ (ih hrest)

variable {members : Json.Members}

theorem exists_of_mem_listOfMember {α : Type}
    {read : String → Json → Except WireError α} {key : String} {as : List α}
    (hkeys : (Json.object members).DistinctKeys)
    (h : listOfMember read key members = .ok as) {a : α} (ha : a ∈ as) :
    ∃ item path, item.DistinctKeys ∧ read path item = .ok a := by
  unfold listOfMember at h
  split at h
  case h_1 =>
      cases h
      cases ha
  case h_2 j hj =>
      obtain ⟨items, hitems, h⟩ := bind_eq_ok_iff.mp h
      unfold arrayAt at hitems
      split at hitems <;> cases hitems
      obtain ⟨item, hitem, path, hread⟩ :=
        exists_of_mem_forall₂ (forall₂_of_itemsOfJson h) ha
      exact ⟨item, path, Json.itemsDistinct_iff.mp (hkeys.get? hj) item hitem,
        hread⟩

theorem forall₂_of_columnsOfMembers {columns : List CustomColumn}
    (h : columnsOfMembers members = .ok columns) :
    List.Forall₂
      (fun (member : String × Json) (c : CustomColumn) =>
        member.1 = c.name ∧
          ∃ path, expressionOfJson path member.2 = .ok c.expression)
      members columns := by
  induction members generalizing columns with
  | nil =>
      cases h
      exact .nil
  | cons member members ih =>
      obtain ⟨expression, hexpression, h⟩ := bind_eq_ok_iff.mp h
      obtain ⟨rest, hrest, h⟩ := bind_eq_ok_iff.mp h
      cases h
      exact .cons ⟨rfl, _, hexpression⟩ (ih hrest)

theorem settled_of_customColumnsOfMember {columns : List CustomColumn}
    (hkeys : (Json.object members).DistinctKeys)
    (h : customColumnsOfMember members = .ok columns) :
    (columns.map CustomColumn.name).Nodup ∧ ∀ c ∈ columns,
    c.expression.Settled := by
  unfold customColumnsOfMember at h
  split at h
  case h_1 =>
      cases h
      exact ⟨List.nodup_nil, fun _ hc => nomatch hc⟩
  case h_2 stored hstored =>
      have hdistinct := hkeys.get? hstored
      have hread := forall₂_of_columnsOfMembers h
      constructor
      · have hnames : Json.Members.keys stored =
          columns.map CustomColumn.name := by
          rw [← List.forall₂_eq_eq_eq, Json.Members.keys,
            List.forall₂_map_left_iff, List.forall₂_map_right_iff]
          exact hread.imp fun _ _ hc => hc.1
        exact hnames ▸ hdistinct.1
      · intro c hc
        obtain ⟨member, hmember, -, path, he⟩ := exists_of_mem_forall₂ hread hc
        exact settled_of_expressionOfJson
          (Json.membersDistinct_iff.mp hdistinct.2 _ hmember) he
  case h_3 => cases h

theorem settled_of_mem_conjuncts {e e' : Expression} (h : e.Settled)
    (he' : e' ∈ conjuncts e) :
    e'.Settled := by
  induction e using conjuncts.induct with
  | case1 left right ihLeft ihRight =>
      obtain ⟨hleft, hright⟩ := Expression.settled_binary_iff.mp h
      rw [conjuncts] at he'
      exact (List.mem_append.mp he').elim (ihLeft hleft) (ihRight hright)
  | case2 e hother =>
      rw [conjuncts.eq_2 _ hother, List.mem_singleton] at he'
      exact he' ▸ h

theorem settled_of_filtersOfMember {filters : List Expression}
    (hkeys : (Json.object members).DistinctKeys)
    (h : filtersOfMember members = .ok filters) : ∀ e ∈ filters, e.Settled := by
  intro e he
  unfold filtersOfMember at h
  split at h
  case h_1 =>
      obtain ⟨item, path, hitem, hread⟩ := exists_of_mem_listOfMember hkeys h he
      exact settled_of_expressionOfJson hitem hread
  case h_2 =>
      split at h
      case h_1 =>
          cases h
          cases he
      case h_2 j hj =>
          obtain ⟨conjunction, hread, h⟩ := bind_eq_ok_iff.mp h
          cases h
          exact settled_of_mem_conjuncts
            (settled_of_expressionOfJson (hkeys.get? hj) hread) he

theorem lt_of_limitOfMember {limit : Option Nat}
    (h : limitOfMember members = .ok limit) {n : Nat} (hn : limit = some n) :
    n < Word.size64 := by
  subst hn
  unfold limitOfMember at h
  split at h
  case h_1 => cases h
  case h_2 => 
      split at h <;> cases h
      case h_1 hlimit => exact Json.lt_of_nat64? hlimit

structure ReadsStage (members : Json.Members) (s : Stage) : Prop where
  customColumns : customColumnsOfMember members = .ok s.customColumns
  filters : filtersOfMember members = .ok s.filters
  aggregations : listOfMember aggregationOfJson "aggregation" members =
    .ok s.aggregations
  breakouts : listOfMember breakoutOfJson "breakout" members = .ok s.breakouts
  orderBy : listOfMember (orderByOfJson s.breakouts) "order-by" members =
    .ok s.orderBy
  limit : limitOfMember members = .ok s.limit
  extra : s.extra = members.filter fun (key, _) => !knownKeys.contains key

theorem readsStage_of_stageOfMembers {s : Stage}
    (h : stageOfMembers members = .ok s) : ReadsStage members s := by
  obtain ⟨customColumns, hcolumns, h⟩ := bind_eq_ok_iff.mp h
  obtain ⟨filters, hfilters, h⟩ := bind_eq_ok_iff.mp h
  obtain ⟨aggregations, haggregations, h⟩ := bind_eq_ok_iff.mp h
  obtain ⟨breakouts, hbreakouts, h⟩ := bind_eq_ok_iff.mp h
  obtain ⟨orderBy, horderBy, h⟩ := bind_eq_ok_iff.mp h
  obtain ⟨limit, hlimit, h⟩ := bind_eq_ok_iff.mp h
  cases h
  exact ⟨hcolumns, hfilters, haggregations, hbreakouts, horderBy, hlimit, rfl⟩

theorem settled_of_stageOfMembers {s : Stage}
    (hkeys : (Json.object members).DistinctKeys)
    (h : stageOfMembers members = .ok s) : s.Settled := by
  have hreads := readsStage_of_stageOfMembers h
  obtain ⟨hnames, hcolumns⟩ :=
    settled_of_customColumnsOfMember hkeys hreads.customColumns
  have haggregations : ∀ a ∈ s.aggregations, a.Settled := by
    intro a ha
    obtain ⟨item, path, hitem, hread⟩ :=
      exists_of_mem_listOfMember hkeys hreads.aggregations ha
    exact settled_of_aggregationOfJson hitem hread
  have hexpressions : ∀ e ∈ s.expressions, e.Settled :=
    Stage.forall_mem_expressions_iff.mpr ⟨hcolumns,
      settled_of_filtersOfMember hkeys hreads.filters, fun a ha =>
      (haggregations a ha).expression⟩
  have hbreakouts : ∀ b ∈ s.breakouts, b.column.Fits := by
    intro b hb
    obtain ⟨item, path, -, hread⟩ :=
      exists_of_mem_listOfMember hkeys hreads.breakouts hb
    exact (fits_of_breakoutOfJson hread).1
  have htargets : ∀ o ∈ s.orderBy, o.target.Findable s.breakouts := by
    intro o ho
    obtain ⟨item, path, -, hread⟩ :=
      exists_of_mem_listOfMember hkeys hreads.orderBy ho
    exact findable_of_orderByOfJson hread
  have hextra : s.ExtraApart := by
    refine ⟨hreads.extra ▸ hkeys.sublist List.filter_sublist,
      fun key hkey => ?_⟩
    rw [hreads.extra] at hkey
    obtain ⟨member, hmember, rfl⟩ := List.mem_map.mp hkey
    simpa using (List.mem_filter.mp hmember).2
  exact {
    readable := {
      expressions := fun e he => (hexpressions e he).readable
      options := fun a ha => (haggregations a ha).options
      optionsApart := fun a ha => (haggregations a ha).optionsApart
      breakouts := hbreakouts
      targets := htargets
      limit := fun n hn => lt_of_limitOfMember hreads.limit hn
      names_nodup := hnames
      extraApart := hextra }
    expressions := fun e he => (hexpressions e he).reread_eq
    aggregations := haggregations }

/-! ## Queries -/

theorem queryOfJson_eq_ok {v : Json} {q : Query} (h : queryOfJson v = .ok q) :
    ∃ members s, v = .object members ∧ stageOfMembers members = .ok s ∧
      ((∃ id table, Json.Members.get? members "source-table" = some id ∧
          id.nat64? = some table ∧ q = .ofTable table s) ∨
        ∃ inner source, Json.Members.get? members "source-query" = some inner ∧
          queryOfJson inner = .ok source ∧ q = .ofQuery source s) := by
  unfold queryOfJson at h
  split at h
  case h_2 => cases h
  case h_1 members =>
      split at h
      case h_1 id hid =>
          split at h
          case h_2 => cases h
          case h_1 table htable =>
              obtain ⟨s, hs, h⟩ := bind_eq_ok_iff.mp h
              cases h
              exact ⟨members, s, rfl, hs, .inl ⟨id, table, hid, htable, rfl⟩⟩
      case h_2 =>
          split at h
          case h_2 => cases h
          case h_1 inner hinner =>
              obtain ⟨source, hsource, h⟩ := bind_eq_ok_iff.mp h
              obtain ⟨s, hs, h⟩ := bind_eq_ok_iff.mp h
              cases h
              exact ⟨members, s, rfl, hs,
                .inr ⟨inner, source, hinner, hsource, rfl⟩⟩

theorem settled_of_queryOfJson {v : Json} {q : Query} (hkeys : v.DistinctKeys)
    (h : queryOfJson v = .ok q) : q.rootTable < Word.size64 ∧ ∀ s ∈ q.stages,
    s.Settled := by
  -- From the last stage to the innermost one; the source is read from a part of
  -- the document.
  induction q generalizing v with
  | ofTable table stage =>
      obtain ⟨members, s, rfl, hs, ⟨id, table, -, htable, heq⟩ |
          ⟨_, _, -, -, heq⟩⟩ :=
        queryOfJson_eq_ok h
      · cases heq
        refine ⟨Json.lt_of_nat64? htable, fun s' hs' => ?_⟩
        rw [List.mem_singleton.mp hs']
        exact settled_of_stageOfMembers hkeys hs
      · cases heq
  | ofQuery source stage ih =>
      obtain ⟨members, s, rfl, hs, ⟨_, _, -, -, heq⟩ |
          ⟨inner, _, hinner, hsource, heq⟩⟩ :=
        queryOfJson_eq_ok h
      · cases heq
      · cases heq
        obtain ⟨htable, hstages⟩ := ih (hkeys.get? hinner) hsource
        refine ⟨htable, fun s' hs' => ?_⟩
        obtain hmem | hmem := List.mem_append.mp hs'
        · exact hstages s' hmem
        · rw [List.mem_singleton.mp hmem]
          exact settled_of_stageOfMembers hkeys hs

end Wire

end TableQuery
