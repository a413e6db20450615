import TableQuery.Fingerprint.Basic
import TableQuery.Proofs.Json.Strings
import TableQuery.Proofs.Wire.Settled

/-!
# Queries stored and read again

Whatever is read from a document can be stored.  Two things are lost on the way
back.  An aggregation without name and options is stored as its expression
alone, which may be a form without meaning that has the tag of an aggregation.
And taking the name out of the options moves the last of them to the front, so
that they are stored in another order each time.
-/

namespace TableQuery

/-! ## What is told -/

/-- Whether the options keep their order when the name is taken out of them. -/
def Aggregation.KeepsOrder (a : Aggregation) : Prop :=
  a.name ≠ none → a.options.length ≤ 1

namespace Query

def reread : Query → Query
  | ofTable table s => ofTable table s.reread
  | ofQuery source s => ofQuery source.reread s.reread

theorem forall_mem_stages_ofQuery {source : Query} {s : Stage}
    {p : Stage → Prop} :
    (∀ t ∈ (ofQuery source s).stages, p t) ↔
      (∀ t ∈ source.stages, p t) ∧ p s := by
  rw [stages, List.forall_mem_append, List.forall_mem_singleton]

theorem same_reread {q : Query} (h : ∀ s ∈ q.stages, s.Readable) :
    q.reread.same q = true := by
  induction q with
  | ofTable table s =>
      rw [reread, same, (h s (List.mem_singleton_self s)).same_reread,
        beq_self_eq_true, Bool.and_self]
  | ofQuery source s ih =>
      obtain ⟨hsource, hs⟩ := forall_mem_stages_ofQuery.mp h
      rw [reread, same, ih hsource, hs.same_reread, Bool.and_self]

end Query

namespace Wire

/-! ## Storing -/

section

variable {source : Query} {s : Stage} {j : Json}

theorem queryToJson_ofTable_eq_ok_iff {table : TableId}
    (hextra : s.ExtraApart) :
    queryToJson (.ofTable table s) = .ok j ↔
      ∃ orderBy, orderByItems s.breakouts 0 s.orderBy = .ok orderBy ∧
        j = .object (queryMembers ("source-table", .ofNat table) s orderBy) :=
  queryObject_eq_ok_iff (by simp [sourceKeys]) hextra

theorem queryToJson_ofQuery_eq_ok_iff (hextra : s.ExtraApart) :
    queryToJson (.ofQuery source s) = .ok j ↔
      ∃ inner orderBy, queryToJson source = .ok inner ∧
        orderByItems s.breakouts 0 s.orderBy = .ok orderBy ∧
        j = .object (queryMembers ("source-query", inner) s orderBy) := by
  have hobject : ∀ inner, queryObject ("source-query", inner) s = .ok j ↔
      ∃ orderBy, orderByItems s.breakouts 0 s.orderBy = .ok orderBy ∧
        j = .object (queryMembers ("source-query", inner) s orderBy) :=
    fun inner => queryObject_eq_ok_iff (by simp [sourceKeys]) hextra
  rw [queryToJson, bind_eq_ok_iff]
  simp only [hobject, exists_and_left]

end

theorem exists_queryToJson_of_findable {q : Query}
    (hextra : ∀ s ∈ q.stages, s.ExtraApart)
    (htargets : ∀ s ∈ q.stages, ∀ o ∈ s.orderBy,
      o.target.Findable s.breakouts) :
    ∃ j, queryToJson q = .ok j := by
  induction q with
  | ofTable table s =>
      have hmem := List.mem_singleton_self s
      obtain ⟨orderBy, hwrite, -⟩ := exists_orderByItems (htargets s hmem) 0
      exact ⟨_, (queryToJson_ofTable_eq_ok_iff (hextra s hmem)).mpr
        ⟨orderBy, hwrite, rfl⟩⟩
  | ofQuery source s ih =>
      obtain ⟨hextraSource, hextra⟩ := Query.forall_mem_stages_ofQuery.mp hextra
      obtain ⟨htargetsSource, htargets⟩ :=
        Query.forall_mem_stages_ofQuery.mp htargets
      obtain ⟨inner, hinner⟩ := ih hextraSource htargetsSource
      obtain ⟨orderBy, hwrite, -⟩ := exists_orderByItems htargets 0
      exact ⟨_, (queryToJson_ofQuery_eq_ok_iff hextra).mpr
        ⟨inner, orderBy, hinner, hwrite, rfl⟩⟩

theorem exists_queryToJson {q : Query} (h : ∀ s ∈ q.stages, s.Readable) :
    ∃ j, queryToJson q = .ok j :=
  exists_queryToJson_of_findable (fun s hs => (h s hs).extraApart) fun s hs =>
    (h s hs).targets

/-! ## Reading again -/

theorem queryOfJson_of_queryToJson {q : Query} {j : Json}
    (h : ∀ s ∈ q.stages, s.Readable)
    (hplain : ∀ s ∈ q.stages, ∀ a ∈ s.aggregations, a.Unmistakable)
    (htable : q.rootTable < Word.size64) (hj : queryToJson q = .ok j) :
    queryOfJson j = .ok q.reread := by
  induction q generalizing j with
  | ofTable table s =>
      have hmem : s ∈ (Query.ofTable table s).stages :=
        List.mem_singleton_self s
      obtain ⟨orderBy, hwrite, rfl⟩ :=
        (queryToJson_ofTable_eq_ok_iff (h s hmem).extraApart).mp hj
      exact queryOfJson_ofTable htable
        (stageOfMembers_queryMembers (by simp [sourceKeys]) (h s hmem)
          (hplain s hmem) hwrite)
  | ofQuery source s ih =>
      obtain ⟨hsource, hs⟩ := Query.forall_mem_stages_ofQuery.mp h
      obtain ⟨hplainSource, hplain⟩ := Query.forall_mem_stages_ofQuery.mp hplain
      obtain ⟨inner, orderBy, hinner, hwrite, rfl⟩ :=
        (queryToJson_ofQuery_eq_ok_iff hs.extraApart).mp hj
      exact queryOfJson_of_get?
        (get?_sourceTable_queryMembers orderBy hs.extraApart)
        List.lookup_cons_self (ih hsource hplainSource htable hinner)
        (stageOfMembers_queryMembers (by simp [sourceKeys]) hs hplain hwrite)

/-! ## Mistaken aggregations -/

theorem exists_of_sameItems_cons {items bs : List Json} {b : Json}
    (h : Json.sameItems items (b :: bs) = true) :
    ∃ a as, items = a :: as ∧ a.same b = true ∧
      Json.sameItems as bs = true := by
  cases items with
  | nil => cases h
  | cons a as => exact ⟨a, as, rfl, Bool.and_eq_true_iff.mp h⟩

theorem not_same_taggedArray (j : Json) (tag : String) (other : Json) :
    ¬j.same (taggedArray tag [j, other]) = true := by
  induction j using Json.induct generalizing tag other with
  | array items ih =>
      intro hsame
      obtain ⟨first, as, rfl, hfirst, hsame⟩ := exists_of_sameItems_cons hsame
      obtain ⟨second, as, rfl, hsecond, hsame⟩ := exists_of_sameItems_cons hsame
      obtain ⟨third, as, rfl, -, hnil⟩ := exists_of_sameItems_cons hsame
      have htag : ∃ tag', first = .string tag' := by
        cases first with
        | string tag' => exact ⟨tag', rfl⟩
        | _ => cases hfirst
      have has : as = [] := by
        cases as with
        | nil => rfl
        | cons _ _ => cases hnil
      obtain ⟨tag', rfl⟩ := htag
      subst has
      exact ih second (by simp) tag' third hsecond
  | _ => nofun

theorem exists_of_same_unrecognized {e : Expression} {stored : Json}
    (h : e.same (.unrecognized stored) = true) :
    ∃ stored', e = .unrecognized stored' ∧ stored'.same stored = true := by
  cases e with
  | unrecognized stored' => exact ⟨stored', rfl, h⟩
  | _ => cases h

theorem exists_of_aggregationOfJson {path tag : String} {args : List Json}
    {a : Aggregation} (htag : tag = "aggregation-options" ∨ tag = "named")
    (h : aggregationOfJson path (taggedArray tag args) = .ok a) :
    ∃ expression other, args = [expression, other] ∧
      expressionOfJson path expression = .ok a.expression := by
  unfold aggregationOfJson at h
  split at h
  case h_1 htagged =>
      cases htagged
      split at h
      case h_1 expression options =>
          obtain ⟨⟨name, rest⟩, -, h⟩ := bind_eq_ok_iff.mp h
          obtain ⟨e, he, h⟩ := bind_eq_ok_iff.mp h
          cases h
          exact ⟨expression, _, rfl, he⟩
      case h_2 => cases h
      case h_3 => cases h
  case h_2 htagged =>
      cases htagged
      split at h
      case h_1 expression name =>
          obtain ⟨e, he, h⟩ := bind_eq_ok_iff.mp h
          cases h
          exact ⟨expression, name, rfl, he⟩
      case h_2 => cases h
  case h_3 hoptions hnamed =>
      obtain rfl | rfl := htag
      · exact absurd rfl (hoptions args)
      · exact absurd rfl (hnamed args)

theorem unmistakable_of_same {path : String} {a a' : Aggregation}
    (hread : aggregationOfJson path (aggregationToJson a) = .ok a')
    (hsame : a'.same a = true) :
    a.Unmistakable := by
  intro hname hoptions stored hstored tag args htag
  have hbare : aggregationToJson a = taggedArray tag args := by
    rw [aggregationToJson, hname, hoptions, hstored]
    exact eq_of_tagged? htag
  rw [hbare] at hread
  by_contra hmistaken
  have htags : tag = "aggregation-options" ∨ tag = "named" := by
    rwa [not_and_or, not_not, not_not] at hmistaken
  obtain ⟨expression, other, rfl, he⟩ := exists_of_aggregationOfJson htags hread
  have hwhole : a'.expression.same (.unrecognized stored) = true := by
    rw [Aggregation.same, hstored, Bool.and_eq_true, Bool.and_eq_true] at hsame
    exact hsame.1.1
  -- The expression read is a part of what is stored, and would be the whole of
  -- it.
  obtain ⟨stored', he', hsame'⟩ := exists_of_same_unrecognized hwhole
  rw [he'] at he
  rw [eq_of_expressionOfJson_unrecognized he, eq_of_tagged? htag] at hsame'
  exact not_same_taggedArray expression tag other hsame'

theorem forall₂_of_sameList {α : Type} {same : α → α → Bool} {as bs : List α}
    (h : Stage.sameList same as bs = true) :
    List.Forall₂ (fun a b => same a b = true) as bs := by
  rw [Stage.sameList, Bool.and_eq_true, beq_iff_eq, List.all_eq_true] at h
  exact List.forall₂_iff_zip.mpr ⟨h.1, fun hmem => h.2 _ hmem⟩

theorem exists_of_forall₂_forall₂ {α β : Type} {R : α → β → Prop}
    {S : β → α → Prop} {as : List α} {bs : List β} (h : List.Forall₂ R as bs)
    (h' : List.Forall₂ S bs as) {a : α} (ha : a ∈ as) : ∃ b, R a b ∧ S b a := by
  induction h with
  | nil => cases ha
  | cons head _ ih =>
      cases h' with
      | cons head' tail' =>
          obtain rfl | hmem := List.mem_cons.mp ha
          · exact ⟨_, head, head'⟩
          · exact ih tail' hmem

theorem unmistakable_of_stageOfMembers {source : String × Json} {s s' : Stage}
    {orderBy : List Json} (hsource : source.1 ∈ sourceKeys) (h : s.Readable)
    (hread : stageOfMembers (queryMembers source s orderBy) = .ok s')
    (hsame : s'.same s = true) : ∀ a ∈ s.aggregations, a.Unmistakable := by
  intro a ha
  have hholds : Holds (queryMembers source s orderBy) s orderBy :=
    holds_queryMembers hsource h.extraApart h.names_nodup
  have haggregations := (readsStage_of_stageOfMembers hread).aggregations
  rw [listOfMember_eq hholds.aggregations] at haggregations
  have hreads :=
    List.forall₂_map_left_iff.mp (forall₂_of_itemsOfJson haggregations)
  have hsames : Stage.sameList Aggregation.same s'.aggregations s.aggregations =
      true := by
    simp only [Stage.same, Bool.and_eq_true] at hsame
    exact hsame.1.1.1.1.2
  obtain ⟨a', ⟨path, haread⟩, hasame⟩ :=
    exists_of_forall₂_forall₂ hreads (forall₂_of_sameList hsames) ha
  exact unmistakable_of_same haread hasame

theorem unmistakable_of_queryOfJson {q q' : Query} {j : Json}
    (h : ∀ s ∈ q.stages, s.Readable) (hj : queryToJson q = .ok j)
    (hread : queryOfJson j = .ok q') (hsame : q'.same q = true) :
    ∀ s ∈ q.stages, ∀ a ∈ s.aggregations, a.Unmistakable := by
  induction q generalizing q' j with
  | ofTable table s =>
      have hs := h s (List.mem_singleton_self s)
      obtain ⟨orderBy, -, rfl⟩ :=
        (queryToJson_ofTable_eq_ok_iff hs.extraApart).mp hj
      obtain ⟨_, s', heq, hs', ⟨id, table', -, -, rfl⟩ |
          ⟨inner, source, -, -, rfl⟩⟩ :=
        queryOfJson_eq_ok hread
      · cases heq
        rw [Query.same, Bool.and_eq_true] at hsame
        rw [Query.stages, List.forall_mem_singleton]
        exact unmistakable_of_stageOfMembers (by simp [sourceKeys])
          hs hs' hsame.2
      · cases hsame
  | ofQuery source s ih =>
      obtain ⟨hsource, hs⟩ := Query.forall_mem_stages_ofQuery.mp h
      obtain ⟨inner, orderBy, hinner, -, rfl⟩ :=
        (queryToJson_ofQuery_eq_ok_iff hs.extraApart).mp hj
      obtain ⟨_, s', heq, hs', ⟨id, table', -, -, rfl⟩ |
          ⟨inner', source', hget, hsource', rfl⟩⟩ :=
        queryOfJson_eq_ok hread
      · cases hsame
      · cases heq
        cases hget.symm.trans List.lookup_cons_self
        rw [Query.same, Bool.and_eq_true] at hsame
        exact Query.forall_mem_stages_ofQuery.mpr
          ⟨ih hsource hinner hsource' hsame.1,
          unmistakable_of_stageOfMembers (by simp [sourceKeys]) hs hs' hsame.2⟩

/-! ## Order of options -/

theorem aggregationToJson_of_name_eq_some {a : Aggregation} {name : String}
    (hkeys : (Json.Members.keys a.options).Nodup) (happart : a.OptionsApart)
    (hname : a.name = some name) :
    aggregationToJson a = taggedArray "aggregation-options"
      [expressionToJson a.expression,
        .object (("display-name", .string name) :: a.options)] := by
  rw [aggregationToJson,
    aggregationOptions_of_name_eq_some hkeys happart.1 hname, hname]
  rfl

/-- A reload leaves the stored form of an aggregation alone, or puts another
option behind the name. -/
theorem aggregationToJson_reread_cases {a : Aggregation} (h : a.Settled) :
    (a.KeepsOrder ∧ aggregationToJson a.reread = aggregationToJson a) ∨
      (¬a.KeepsOrder ∧
        Json.Parts (aggregationToJson a.reread).toChars
          (aggregationToJson a).toChars) := by
  have hexpression := h.expression.reread_eq
  cases hname : a.name with
  | none =>
      have hreread : a.reread = a := by
        rw [Aggregation.reread, hexpression, h.optionsReread_eq hname]
      exact .inl ⟨fun hsome => absurd hname hsome, by rw [hreread]⟩
  | some name =>
      have hkeys := h.options.1
      have hperm := Aggregation.perm_optionsReread hkeys
      have hkeysReread : (Json.Members.keys a.reread.options).Nodup :=
        (hperm.symm.map Prod.fst).nodup hkeys
      have happartReread : a.reread.OptionsApart := by
        refine ⟨fun hmem =>
          h.optionsApart.1 ((hperm.map Prod.fst).mem_iff.mp hmem), ?_⟩
        intro hnone
        cases hname.symm.trans hnone
      have hremove : a.reread.options =
          Json.Members.remove (("display-name", .string name) :: a.options)
            "display-name" := by
        rw [Aggregation.reread, Aggregation.optionsReread, hname]
      rw [aggregationToJson_of_name_eq_some hkeys h.optionsApart hname,
        aggregationToJson_of_name_eq_some hkeysReread happartReread hname,
        hremove, Aggregation.reread, hexpression, Aggregation.KeepsOrder, hname]
      obtain ⟨hlength, heq⟩ | ⟨hlength, first, others, last, rest, hfirst,
          hlast, hne⟩ :=
        @Json.Members.remove_cons_self_cases "display-name"
          (.string name) a.options hkeys
      · exact .inl ⟨fun _ => hlength, by rw [heq]⟩
      · refine .inr ⟨fun hkeeps => ?_, ?_⟩
        · have := hkeeps (Option.some_ne_none name)
          omega
        · rw [hlast, hfirst]
          have hparts :=
            @Json.parts_object_of_key_ne last.1 first.1 last.2 first.2
              ("display-name", .string name) rest others hne
          exact Json.parts_array_concat
            [.string "aggregation-options",
              expressionToJson a.expression] hparts

theorem aggregationToJson_reread_eq_iff {a : Aggregation} (h : a.Settled) :
    aggregationToJson a.reread = aggregationToJson a ↔ a.KeepsOrder := by
  obtain ⟨hkeeps, heq⟩ | ⟨hlost, hparts⟩ := aggregationToJson_reread_cases h
  · exact iff_of_true heq hkeeps
  · exact iff_of_false (fun heq => hparts.ne (by rw [heq])) hlost

theorem listMember_inj {key : String} {items items' : List Json} :
    listMember key items = listMember key items' ↔ items = items' := by
  cases items <;> cases items' <;> simp [listMember]

section

variable {source source' : String × Json} {s : Stage} {orderBy : List Json}

theorem queryMembers_reread_eq_iff (h : s.Settled) :
    queryMembers source' s.reread orderBy = queryMembers source s orderBy ↔
      source' = source ∧ ∀ a ∈ s.aggregations, a.KeepsOrder := by
  have haggregations : (s.aggregations.map Aggregation.reread).map
      aggregationToJson =
        s.aggregations.map aggregationToJson ↔ ∀ a ∈ s.aggregations,
      a.KeepsOrder := by
    rw [List.map_map, List.map_inj_left]
    exact forall₂_congr fun a ha =>
      aggregationToJson_reread_eq_iff (h.aggregations a ha)
  rw [h.reread_eq]
  simp only [queryMembers, clauseMembers, List.cons.injEq,
    List.append_cancel_right_eq, List.append_cancel_left_eq, listMember_inj,
    haggregations]

theorem eqOrParts_listMember {key : String} {items items' : List Json}
    (h : List.Forall₂ Json.EqOrParts items items') :
    List.Forall₂
      (fun m m' => m = m' ∨ Json.Parts (Json.memberText m) (Json.memberText m'))
      (listMember key items) (listMember key items') := by
  cases h with
  | nil => exact .nil
  | cons hfirst hrest =>
      exact .cons (Json.eq_or_parts_memberText key
        (Json.eqOrParts_array (.cons hfirst hrest))) .nil

theorem eqOrParts_queryMembers_reread (h : s.Settled)
    (hsource : source' = source ∨
      Json.Parts (Json.memberText source') (Json.memberText source)) :
    Json.EqOrParts (.object (queryMembers source' s.reread orderBy))
      (.object (queryMembers source s orderBy)) := by
  have hsame : ∀ members : Json.Members, List.Forall₂
      (fun m m' => m = m' ∨ Json.Parts (Json.memberText m) (Json.memberText m'))
      members members := fun _ => List.forall₂_same.mpr fun _ _ => .inl rfl
  have haggregations : List.Forall₂ Json.EqOrParts
      ((s.aggregations.map Aggregation.reread).map aggregationToJson)
      (s.aggregations.map aggregationToJson) := by
    rw [List.map_map, List.forall₂_map_left_iff, List.forall₂_map_right_iff,
      List.forall₂_same]
    exact fun a ha =>
      (aggregationToJson_reread_cases (h.aggregations a ha)).imp
        And.right And.right
  rw [h.reread_eq]
  refine Json.eqOrParts_object (.cons hsource (List.rel_append ?_ (hsame _)))
  exact List.rel_append
    (List.rel_append (List.rel_append (List.rel_append (hsame _)
    (eqOrParts_listMember haggregations)) (hsame _)) (hsame _)) (hsame _)

end

theorem exists_queryToJson_reread {q : Query} {j : Json}
    (h : ∀ s ∈ q.stages, s.Settled) (hj : queryToJson q = .ok j) :
    ∃ j', queryToJson q.reread = .ok j' ∧ Json.EqOrParts j' j ∧
      (j' = j ↔ ∀ s ∈ q.stages, ∀ a ∈ s.aggregations, a.KeepsOrder) := by
  induction q generalizing j with
  | ofTable table s =>
      have hs := h s (List.mem_singleton_self s)
      have hextra := hs.readable.extraApart
      obtain ⟨orderBy, hwrite, rfl⟩ :=
        (queryToJson_ofTable_eq_ok_iff hextra).mp hj
      refine ⟨_, (queryToJson_ofTable_eq_ok_iff hextra.reread).mpr
        ⟨orderBy, hwrite, rfl⟩,
        eqOrParts_queryMembers_reread hs (.inl rfl), ?_⟩
      rw [Json.object.injEq, queryMembers_reread_eq_iff hs, Query.stages,
        List.forall_mem_singleton]
      exact and_iff_right rfl
  | ofQuery source s ih =>
      obtain ⟨hsource, hs⟩ := Query.forall_mem_stages_ofQuery.mp h
      have hextra := hs.readable.extraApart
      obtain ⟨inner, orderBy, hinner, hwrite, rfl⟩ :=
        (queryToJson_ofQuery_eq_ok_iff hextra).mp hj
      obtain ⟨inner', hinner', hparts, heq⟩ := ih hsource hinner
      refine ⟨_, (queryToJson_ofQuery_eq_ok_iff hextra.reread).mpr
        ⟨inner', orderBy, hinner', hwrite, rfl⟩,
          eqOrParts_queryMembers_reread hs
            (Json.eq_or_parts_memberText "source-query" hparts), ?_⟩
      rw [Json.object.injEq, queryMembers_reread_eq_iff hs, Prod.mk.injEq, heq,
        Query.forall_mem_stages_ofQuery]
      simp

/-! ## Reloads -/

/-- Whatever is read from a document can be stored, and reads back as the same
query exactly if no aggregation is mistaken for another. -/
theorem queryToJson_reloads_iff {v : Json} {q : Query} (hkeys : v.DistinctKeys)
    (h : queryOfJson v = .ok q) :
    ∃ j, queryToJson q = .ok j ∧
      ((∃ q', queryOfJson j = .ok q' ∧ q'.same q = true) ↔
        ∀ s ∈ q.stages, ∀ a ∈ s.aggregations, a.Unmistakable) := by
  obtain ⟨htable, hsettled⟩ := settled_of_queryOfJson hkeys h
  have hreadable : ∀ s ∈ q.stages, s.Readable :=
    fun s hs => (hsettled s hs).readable
  obtain ⟨j, hj⟩ := exists_queryToJson hreadable
  refine ⟨j, hj, ?_, fun hplain => ?_⟩
  · rintro ⟨q', hread, hsame⟩
    exact unmistakable_of_queryOfJson hreadable hj hread hsame
  · exact ⟨q.reread, queryOfJson_of_queryToJson hreadable hplain htable hj,
      Query.same_reread hreadable⟩

def olderOrders : Json :=
  .object [("source-table", .ofNat 1),
    ("filter", taggedArray "and"
      [taggedArray "segment" [.ofNat 3],
        taggedArray "is-null" [taggedArray "field-id" [.ofNat 2]]]),
    ("aggregation", .array
      [taggedArray "named" [taggedArray "count" [], .string "Orders"],
        taggedArray "metric" [.ofNat 1]]),
    ("order-by",
      .array [taggedArray "desc" [taggedArray "aggregation" [.ofNat 0]]]),
    ("note", .null)]

def olderOrdersStage : Stage where
  filters := [.unrecognized (taggedArray "segment" [.ofNat 3]),
    .call .isNull [.column (.field 2)]]
  aggregations := [⟨.call .count [], some "Orders", []⟩,
    ⟨.unrecognized (taggedArray "metric" [.ofNat 1]), none, []⟩]
  orderBy := [⟨.desc, .aggregation 0⟩]
  extra := [("note", .null)]

theorem distinctKeys_olderOrders : olderOrders.DistinctKeys := by
  simp [olderOrders, taggedArray, Json.DistinctKeys, Json.ItemsDistinct,
    Json.MembersDistinct, Json.Members.keys, Json.ofNat]

theorem queryOfJson_olderOrders :
    queryOfJson olderOrders = .ok (.ofTable 1 olderOrdersStage) := by
  rw [olderOrders, queryOfJson]
  rfl

theorem queryToJson_reloads_iff_olderOrders :
    olderOrders.DistinctKeys ∧
      queryOfJson olderOrders = .ok (.ofTable 1 olderOrdersStage) ∧
      ∃ j, queryToJson (.ofTable 1 olderOrdersStage) = .ok j ∧
        ((∃ q', queryOfJson j = .ok q' ∧
          q'.same (.ofTable 1 olderOrdersStage) = true) ↔
          ∀ s ∈ (Query.ofTable 1 olderOrdersStage).stages,
            ∀ a ∈ s.aggregations, a.Unmistakable) :=
  ⟨distinctKeys_olderOrders, queryOfJson_olderOrders,
    queryToJson_reloads_iff distinctKeys_olderOrders queryOfJson_olderOrders⟩

def aggregationDocument (aggregation : Json) : Json :=
  .object [("source-table", .ofNat 1), ("aggregation", .array [aggregation])]

def namedCount : Json :=
  taggedArray "named" [taggedArray "count" [], .string "Orders"]

/-- The form is kept as the expression of an aggregation, stored alone, and read
back as a name. -/
theorem not_forall_queryToJson_reloads :
    ¬∀ (v : Json) (q : Query), v.DistinctKeys → queryOfJson v = .ok q →
      ∃ j q', queryToJson q = .ok j ∧ queryOfJson j = .ok q' ∧
      q'.same q = true := by
  intro h
  have hkeys : (aggregationDocument
      (taggedArray "aggregation-options"
        [namedCount, .object []])).DistinctKeys := by
    simp [aggregationDocument, namedCount, taggedArray, Json.DistinctKeys,
      Json.ItemsDistinct, Json.MembersDistinct, Json.Members.keys, Json.ofNat]
  have hread : queryOfJson (aggregationDocument
      (taggedArray "aggregation-options" [namedCount, .object []])) =
        .ok (.ofTable 1
          { aggregations := [⟨.unrecognized namedCount, none, []⟩] }) := by
    rw [aggregationDocument, queryOfJson]
    rfl
  obtain ⟨j, q', hj, hq', hsame⟩ := h _ _ hkeys hread
  have hwrite : queryToJson
      (.ofTable 1 { aggregations := [⟨.unrecognized namedCount, none, []⟩] }) =
        .ok (aggregationDocument namedCount) := rfl
  have hreload : queryOfJson (aggregationDocument namedCount) =
      .ok (.ofTable 1
        { aggregations := [⟨.call .count [], some "Orders", []⟩] }) := by
    rw [aggregationDocument, queryOfJson]
    rfl
  cases hwrite.symm.trans hj
  cases hreload.symm.trans hq'
  cases hsame

/-- Of a query in which no aggregation is mistaken for another, the text of the
stored form survives a reload exactly if no named aggregation has two or more
options besides its name.  Then the digest survives with it. -/
theorem compact_reload_eq_iff {v : Json} {q : Query} (hkeys : v.DistinctKeys)
    (h : queryOfJson v = .ok q)
    (hplain : ∀ s ∈ q.stages, ∀ a ∈ s.aggregations, a.Unmistakable) :
    ∃ j q' j', queryToJson q = .ok j ∧ queryOfJson j = .ok q' ∧
      q'.same q = true ∧ queryToJson q' = .ok j' ∧
      (j'.compact = j.compact ↔ ∀ s ∈ q.stages, ∀ a ∈ s.aggregations,
        a.KeepsOrder) ∧
      (j'.compact = j.compact → ∀ r r', ∃ digest,
        Draft.fingerprint ⟨q, r⟩ = .ok ⟨r, digest⟩ ∧
        Draft.fingerprint ⟨q', r'⟩ = .ok ⟨r', digest⟩) := by
  obtain ⟨htable, hsettled⟩ := settled_of_queryOfJson hkeys h
  have hreadable : ∀ s ∈ q.stages, s.Readable :=
    fun s hs => (hsettled s hs).readable
  obtain ⟨j, hj⟩ := exists_queryToJson hreadable
  obtain ⟨j', hj', hparts, heq⟩ := exists_queryToJson_reread hsettled hj
  refine ⟨j, q.reread, j', hj,
    queryOfJson_of_queryToJson hreadable hplain htable hj,
    Query.same_reread hreadable, hj', hparts.compact_eq_iff.trans heq,
    fun hcompact r r' => ?_⟩
  refine ⟨j.digest, ?_, ?_⟩
  · rw [Draft.fingerprint, hj]
    rfl
  · rw [Draft.fingerprint, hj', Json.digest, ← hcompact]
    rfl

theorem compact_reload_eq_iff_olderOrders :
    olderOrders.DistinctKeys ∧
      queryOfJson olderOrders = .ok (.ofTable 1 olderOrdersStage) ∧
      (∀ s ∈ (Query.ofTable 1 olderOrdersStage).stages,
        ∀ a ∈ s.aggregations, a.Unmistakable) ∧
      ∃ j q' j', queryToJson (.ofTable 1 olderOrdersStage) = .ok j ∧
        queryOfJson j = .ok q' ∧ q'.same (.ofTable 1 olderOrdersStage) = true ∧
        queryToJson q' = .ok j' ∧
        (j'.compact = j.compact ↔
          ∀ s ∈ (Query.ofTable 1 olderOrdersStage).stages,
          ∀ a ∈ s.aggregations, a.KeepsOrder) ∧
        (j'.compact = j.compact → ∀ r r', ∃ digest,
          Draft.fingerprint ⟨.ofTable 1 olderOrdersStage, r⟩ = .ok ⟨r, digest⟩ ∧
          Draft.fingerprint ⟨q', r'⟩ = .ok ⟨r', digest⟩) := by
  have hplain : ∀ s ∈ (Query.ofTable 1 olderOrdersStage).stages,
      ∀ a ∈ s.aggregations, a.Unmistakable := by
    simp [Query.stages, olderOrdersStage, Aggregation.Unmistakable, taggedArray,
      tagged?]
  exact ⟨distinctKeys_olderOrders, queryOfJson_olderOrders, hplain,
    compact_reload_eq_iff distinctKeys_olderOrders
      queryOfJson_olderOrders hplain⟩

def countWith (options : Json.Members) : Query :=
  .ofTable 1 { aggregations := [⟨.call .count [], some "Orders", options⟩] }

def countWithDocument (options : Json.Members) : Json :=
  aggregationDocument (taggedArray "aggregation-options"
    [taggedArray "count" [],
      .object (("display-name", .string "Orders") :: options)])

/-- The two options change places each time, and the digest tells their orders
apart. -/
theorem not_forall_digest_reload :
    ¬∀ (v : Json) (q : Query), v.DistinctKeys → queryOfJson v = .ok q →
      ∀ j q', queryToJson q = .ok j → queryOfJson j = .ok q' →
        ∀ r r' f f', Draft.fingerprint ⟨q, r⟩ = .ok f →
          Draft.fingerprint ⟨q', r'⟩ = .ok f' → f'.digest = f.digest := by
  intro h
  have hkeys :
      (countWithDocument [("a", .ofNat 1), ("b", .ofNat 2)]).DistinctKeys := by
    simp [countWithDocument, aggregationDocument, taggedArray,
      Json.DistinctKeys, Json.ItemsDistinct, Json.MembersDistinct,
      Json.Members.keys, Json.ofNat]
  have hread : ∀ first second : String × Json,
      queryOfJson (countWithDocument [first, second]) =
        .ok (countWith [second, first]) := by
    intro first second
    rw [countWithDocument, aggregationDocument, queryOfJson]
    rfl
  have hwrite : queryToJson (countWith [("a", .ofNat 1), ("b", .ofNat 2)]) =
      .ok (countWithDocument [("a", .ofNat 1), ("b", .ofNat 2)]) := rfl
  have hwrite' : queryToJson (countWith [("b", .ofNat 2), ("a", .ofNat 1)]) =
      .ok (countWithDocument [("b", .ofNat 2), ("a", .ofNat 1)]) := rfl
  have hdigest := h _ _ hkeys (hread _ _) _ _ hwrite' (hread _ _) 0 0 _ _
    (by rw [Draft.fingerprint, hwrite']; rfl)
    (by rw [Draft.fingerprint, hwrite]; rfl)
  revert hdigest
  decide +kernel

end Wire

end TableQuery
