import TableQuery.Proofs.Query.Validity
import TableQuery.Proofs.Wire.Clause
import TableQuery.Sample
import TableQuery.Wire.Query

/-!
# Stored queries read back

A valid query reads back from its stored form as the same query, stage by stage
from the innermost on.  What the form cannot tell apart is ruled out beforehand,
by validation or by the conditions below.
-/

namespace TableQuery

/-! ## What can be stored -/

def OrderTarget.Fits : OrderTarget → Prop
  | aggregation index | breakout index => index < Word.size64
  | column id => id.Fits

namespace Stage

def expressions (s : Stage) : List Expression :=
  s.customColumns.map CustomColumn.expression ++ s.filters ++
    s.aggregations.map Aggregation.expression

theorem mem_expressions_customColumn {s : Stage} {c : CustomColumn}
    (h : c ∈ s.customColumns) : c.expression ∈ s.expressions :=
  List.mem_append_left _ (List.mem_append_left _ (List.mem_map_of_mem h))

theorem mem_expressions_filter {s : Stage} {e : Expression}
    (h : e ∈ s.filters) : e ∈ s.expressions :=
  List.mem_append_left _ (List.mem_append_right _ h)

theorem mem_expressions_aggregation {s : Stage} {a : Aggregation}
    (h : a ∈ s.aggregations) : a.expression ∈ s.expressions :=
  List.mem_append_right _ (List.mem_map_of_mem h)

/-- A stage as it can be held in memory: ids, positions and limits are numbers
of 64 bits, objects have distinct keys, and a member is kept aside only if it
has no meaning here. -/
structure Fits (s : Stage) : Prop where
  identifiers : ∀ e ∈ s.expressions, ∀ id ∈ e.identifiers, id.Fits
  breakouts : ∀ b ∈ s.breakouts, b.column.Fits
  targets : ∀ o ∈ s.orderBy, o.target.Fits
  limit : ∀ n, s.limit = some n → n < Word.size64
  options : ∀ a ∈ s.aggregations, (Json.object a.options).DistinctKeys
  extra : (Json.object s.extra).DistinctKeys
  extra_unknown : ∀ key ∈ Json.Members.keys s.extra, key ∉ Wire.knownKeys

structure ExtraApart (s : Stage) : Prop where
  distinct : (Json.object s.extra).DistinctKeys
  unknown : ∀ key ∈ Json.Members.keys s.extra, key ∉ Wire.knownKeys

structure Storable (s : Stage) : Prop where
  recognized : ∀ e ∈ s.expressions, e.Recognized
  optionsApart : ∀ a ∈ s.aggregations, a.OptionsApart

theorem Valid.findable {source : Except CatalogError (List Entry)} {s : Stage}
    (h : s.Valid source)
    (hsource : ∀ entries, source = .ok entries → SourceEntries entries)
    (hfits : s.Fits) {o : OrderBy} (ho : o ∈ s.orderBy) :
    o.target.Findable s.breakouts := by
  obtain ⟨entries, -, hvalid⟩ := h.sortTarget_valid ho
  have htarget := hfits.targets o ho
  cases hcase : o.target with
  | aggregation i => rwa [hcase] at htarget
  | breakout i =>
      rw [hcase] at hvalid
      have hb := List.getElem?_eq_getElem hvalid
      have hmem := List.getElem_mem hvalid
      exact ⟨_, hb, Wire.findIdx?_eq_some_of_nodup h.breakouts_nodup hb,
        hfits.breakouts _ hmem, fun _ =>
        h.breakout_not_aggregation hsource hmem⟩
  | column id =>
      rw [hcase] at htarget
      obtain ⟨hsummarized, hcolumn⟩ :=
        h.sortColumn_not_aggregation hsource ho hcase
      have hbreakouts : s.breakouts = [] := by
        rw [isSummarized, Bool.or_eq_false_iff] at hsummarized
        simpa using hsummarized.2
      exact ⟨by rw [hbreakouts]; rfl, htarget, hcolumn⟩

theorem sameList_map {α : Type} {same : α → α → Bool} {f : α → α} {as : List α}
    (h : ∀ a ∈ as, same (f a) a = true) :
    sameList same (as.map f) as = true := by
  rw [sameList, List.length_map, beq_self_eq_true, Bool.true_and,
    List.all_eq_true]
  intro pair hpair
  have hsame : List.Forall₂ (fun b a => same b a = true) (as.map f) as :=
    List.forall₂_map_left_iff.mpr (List.forall₂_same.mpr h)
  exact List.forall₂_zip hsame hpair

/-- A stage that can be stored and read again, if no aggregation is mistaken for
another: besides what each clause needs, no two custom columns share a name, and
every sort finds its target. -/
structure Readable (s : Stage) : Prop where
  expressions : ∀ e ∈ s.expressions, e.Readable
  options : ∀ a ∈ s.aggregations, (Json.object a.options).DistinctKeys
  optionsApart : ∀ a ∈ s.aggregations, a.OptionsApart
  breakouts : ∀ b ∈ s.breakouts, b.column.Fits
  targets : ∀ o ∈ s.orderBy, o.target.Findable s.breakouts
  limit : ∀ n, s.limit = some n → n < Word.size64
  names_nodup : (s.customColumns.map CustomColumn.name).Nodup
  extraApart : s.ExtraApart

theorem Storable.readable {source : Except CatalogError (List Entry)}
    {s : Stage} (h : s.Storable) (hvalid : s.Valid source)
    (hsource : ∀ entries, source = .ok entries → SourceEntries entries)
    (hfits : s.Fits) : s.Readable where
  expressions :=
    fun e he => (h.recognized e he).readable (hfits.identifiers e he)
  options := hfits.options
  optionsApart := h.optionsApart
  breakouts := hfits.breakouts
  targets := fun _ ho => hvalid.findable hsource hfits ho
  limit := hfits.limit
  names_nodup := hvalid.names_nodup
  extraApart := ⟨hfits.extra, hfits.extra_unknown⟩

theorem Storable.unmistakable {s : Stage} (h : s.Storable) :
    ∀ a ∈ s.aggregations, a.Unmistakable := by
  intro a ha _ _ stored hstored
  have hrecognized := h.recognized _ (mem_expressions_aggregation ha)
  rw [hstored] at hrecognized
  exact hrecognized.elim

end Stage

def CustomColumn.reread (c : CustomColumn) : CustomColumn :=
  ⟨c.name, c.expression.reread⟩

def Stage.reread (s : Stage) : Stage :=
  { s with
    customColumns := s.customColumns.map CustomColumn.reread
    filters := s.filters.map Expression.reread
    aggregations := s.aggregations.map Aggregation.reread }

theorem Stage.ExtraApart.reread {s : Stage} (h : s.ExtraApart) :
    s.reread.ExtraApart :=
  ⟨h.distinct, h.unknown⟩

theorem Stage.Readable.same_reread {s : Stage} (h : s.Readable) :
    s.reread.same s = true := by
  have hexpressions : ∀ e ∈ s.expressions, e.reread.same e = true :=
    fun e he => (h.expressions e he).same_reread
  have hcolumns : sameList CustomColumn.same s.reread.customColumns
      s.customColumns = true := by
    refine sameList_map fun c hc => ?_
    rw [CustomColumn.same, CustomColumn.reread, beq_self_eq_true, Bool.true_and]
    exact hexpressions _ (mem_expressions_customColumn hc)
  have hfilters : sameList Expression.same s.reread.filters s.filters = true :=
    sameList_map fun e he => hexpressions e (mem_expressions_filter he)
  have haggregations : sameList Aggregation.same s.reread.aggregations
    s.aggregations = true := sameList_map fun a ha =>
      Aggregation.same_reread (hexpressions _ (mem_expressions_aggregation ha))
        (h.options a ha)
  rw [same, hcolumns, hfilters, haggregations]
  simp [reread, Json.same_self h.extraApart.distinct]

namespace Wire

/-! ## Lists of clauses -/

theorem itemsOfJson_eq_ok {α : Type} {read : String → Json → Except WireError α}
    {items : List Json} {as : List α}
    (h : List.Forall₂ (fun item a => ∀ path, read path item = .ok a) items as)
    (path : String) (index : Nat) :
    itemsOfJson read path index items = .ok as := by
  induction h generalizing index with
  | nil => rfl
  | cons hfirst _ ih =>
      rw [itemsOfJson, hfirst, ih]
      rfl

theorem itemsOfJson_map {α β : Type} {read : String → Json → Except WireError β}
    {write : α → Json} {f : α → β} {as : List α}
    (h : ∀ a ∈ as, ∀ path, read path (write a) = .ok (f a)) (path : String)
    (index : Nat) :
    itemsOfJson read path index (as.map write) = .ok (as.map f) := by
  refine itemsOfJson_eq_ok ?_ path index
  rw [List.forall₂_map_left_iff, List.forall₂_map_right_iff, List.forall₂_same]
  exact h

theorem exists_orderByItems {breakouts : List Breakout} {orderBy : List OrderBy}
    (h : ∀ o ∈ orderBy, o.target.Findable breakouts) (index : Nat) :
    ∃ items, orderByItems breakouts index orderBy = .ok items ∧
      List.Forall₂
        (fun item o => ∀ path, orderByOfJson breakouts path item = .ok o)
        items orderBy := by
  induction orderBy generalizing index with
  | nil => exact ⟨[], rfl, .nil⟩
  | cons o orderBy ih =>
      obtain ⟨item, hwrite, hread⟩ :=
        exists_orderByToJson (h o List.mem_cons_self) index
      obtain ⟨items, hwrites, hreads⟩ :=
        ih (fun other hother => h other (List.mem_cons_of_mem o hother))
          (index + 1)
      refine ⟨item :: items, ?_, .cons hread hreads⟩
      rw [orderByItems, hwrite, hwrites]
      rfl

def columnMember (c : CustomColumn) : String × Json :=
  (c.name, expressionToJson c.expression)

theorem columnsOfMembers_columnMember {columns : List CustomColumn}
    (h : ∀ c ∈ columns, c.expression.Readable) :
    columnsOfMembers (columns.map columnMember) =
      .ok (columns.map CustomColumn.reread) := by
  induction columns with
  | nil => rfl
  | cons c columns ih =>
      obtain ⟨hfirst, hrest⟩ := List.forall_mem_cons.mp h
      rw [List.map_cons, columnMember, columnsOfMembers,
        (readsBack hfirst).whole, ih hrest]
      rfl

/-! ## Members of a stored query -/

def sourceKeys : List String := ["source-table", "source-query"]

def clauseKeys : List String :=
  ["expressions", "filters", "aggregation", "breakout", "order-by", "limit"]

def limitMember : Option Nat → Json.Members
  | some n => [("limit", .ofNat n)]
  | none => []

def clauseMembers (s : Stage) (orderBy : List Json) : Json.Members :=
  expressionsMember s.customColumns ++ listMember "filters"
    (s.filters.map expressionToJson) ++
    listMember "aggregation" (s.aggregations.map aggregationToJson) ++
    listMember "breakout" (s.breakouts.map breakoutToJson) ++
    listMember "order-by" orderBy ++ limitMember s.limit

def queryMembers (source : String × Json) (s : Stage) (orderBy : List Json) :
    Json.Members :=
  source :: (clauseMembers s orderBy ++ s.extra)

theorem stageMembers_eq_ok {s : Stage} {orderBy : List Json}
    (h : orderByItems s.breakouts 0 s.orderBy = .ok orderBy) :
    stageMembers s = .ok (clauseMembers s orderBy) := by
  rw [stageMembers, h]
  cases hlimit : s.limit with
  | none =>
      rw [clauseMembers, hlimit]
      rfl
  | some n =>
      rw [clauseMembers, hlimit]
      rfl

/-! ### Keys -/

theorem mem_knownKeys_of_mem_sourceKeys {key : String} (h : key ∈ sourceKeys) :
    key ∈ knownKeys ∧ key ∉ "filter" :: clauseKeys := by
  have hall : ∀ key ∈ sourceKeys, key ∈ knownKeys ∧
      key ∉ "filter" :: clauseKeys := by decide
  exact hall key h

theorem mem_knownKeys_of_mem_clauseKeys {key : String}
    (h : key ∈ "filter" :: clauseKeys) : key ∈ knownKeys := by
  have hsubset : "filter" :: clauseKeys ⊆ knownKeys := by decide
  exact hsubset h

theorem keys_listMember_sublist (key : String) (items : List Json) :
    (Json.Members.keys (listMember key items)).Sublist [key] := by
  rw [listMember]
  split
  · exact List.nil_sublist [key]
  · exact List.Sublist.refl [key]

theorem keys_clauseMembers_sublist (s : Stage) (orderBy : List Json) :
    (Json.Members.keys (clauseMembers s orderBy)).Sublist clauseKeys := by
  have hexpressions :
      (Json.Members.keys (expressionsMember s.customColumns)).Sublist
        ["expressions"] := by
    rw [expressionsMember]
    split
    · exact List.nil_sublist _
    · exact List.Sublist.refl _
  have hlimit : (Json.Members.keys (limitMember s.limit)).Sublist
      ["limit"] := by
    cases s.limit with
    | none => exact List.nil_sublist _
    | some n => exact List.Sublist.refl _
  simp only [Json.Members.keys, clauseMembers, List.map_append]
    at hexpressions hlimit ⊢
  exact ((((hexpressions.append (keys_listMember_sublist "filters" _)).append
    (keys_listMember_sublist "aggregation" _)).append
    (keys_listMember_sublist "breakout" _)).append
    (keys_listMember_sublist "order-by" _)).append hlimit

theorem mem_clauseKeys {s : Stage} {orderBy : List Json} {key : String}
    (h : key ∈ Json.Members.keys (clauseMembers s orderBy)) :
    key ∈ "filter" :: clauseKeys :=
  List.mem_cons_of_mem _ ((keys_clauseMembers_sublist s orderBy).subset h)

section

variable {source : String × Json} {s : Stage} {orderBy : List Json}

theorem nodup_keys_queryMembers (hsource : source.1 ∈ sourceKeys)
    (hextra : s.ExtraApart) :
    (Json.Members.keys (queryMembers source s orderBy)).Nodup := by
  obtain ⟨hknown, hclause⟩ := mem_knownKeys_of_mem_sourceKeys hsource
  have hclauses : (Json.Members.keys (clauseMembers s orderBy)).Nodup := by
    have hnodup : clauseKeys.Nodup := by decide
    exact (keys_clauseMembers_sublist s orderBy).nodup hnodup
  simp only [queryMembers, Json.Members.keys, List.map_cons, List.map_append,
    List.nodup_cons, List.nodup_append, List.mem_append, not_or]
  refine ⟨⟨?_, ?_⟩, hclauses, hextra.distinct.1, ?_⟩
  · exact fun hmem => hclause (mem_clauseKeys hmem)
  · exact fun hmem => hextra.unknown _ hmem hknown
  · rintro key hmem key' hkept rfl
    exact hextra.unknown _ hkept
      (mem_knownKeys_of_mem_clauseKeys (mem_clauseKeys hmem))

theorem foldl_insert_extra (hsource : source.1 ∈ sourceKeys)
    (hextra : s.ExtraApart) :
    s.extra.foldl (fun ms (key, value) => Json.Members.insert ms key value)
      (source :: clauseMembers s orderBy) = queryMembers source s orderBy := by
  have hkeys :
      (Json.Members.keys
        ((source :: clauseMembers s orderBy) ++ s.extra)).Nodup :=
    nodup_keys_queryMembers hsource hextra
  rw [Json.Members.foldl_insert hkeys, List.cons_append, queryMembers]

theorem queryObject_eq_ok_iff {j : Json} (hsource : source.1 ∈ sourceKeys)
    (hextra : s.ExtraApart) :
    queryObject source s = .ok j ↔ ∃ orderBy,
    orderByItems s.breakouts 0 s.orderBy = .ok orderBy ∧
      j = .object (queryMembers source s orderBy) := by
  constructor
  · intro h
    obtain ⟨members, hmembers, h⟩ := bind_eq_ok_iff.mp h
    obtain ⟨orderBy, horderBy, -⟩ := bind_eq_ok_iff.mp hmembers
    rw [stageMembers_eq_ok horderBy] at hmembers
    cases hmembers
    cases h
    exact ⟨orderBy, horderBy,
      congrArg Json.object (foldl_insert_extra hsource hextra)⟩
  · rintro ⟨orderBy, horderBy, rfl⟩
    rw [queryObject, stageMembers_eq_ok horderBy,
      ← foldl_insert_extra hsource hextra]
    rfl

/-! ### Looking up -/

def arrayMember? (items : List Json) : Option Json :=
  if items.isEmpty then none else some (.array items)

theorem get?_listMember (key : String) (items : List Json) (key' : String) :
    Json.Members.get? (listMember key items) key' =
      if key' = key then arrayMember? items else none := by
  cases items with
  | nil => simp [listMember, arrayMember?, Json.Members.get?]
  | cons item items =>
      by_cases hkey : key' = key
      · simp [listMember, arrayMember?, Json.Members.get?, hkey]
      · simp [listMember, Json.Members.get?, hkey]

theorem get?_limitMember (limit : Option Nat) (key : String) :
    Json.Members.get? (limitMember limit) key =
      if key = "limit" then limit.map Json.ofNat else none := by
  cases limit with
  | none => simp [limitMember, Json.Members.get?]
  | some n =>
      by_cases hkey : key = "limit"
      · simp [limitMember, Json.Members.get?, hkey]
      · simp [limitMember, Json.Members.get?, hkey]

theorem expressionsMember_eq {columns : List CustomColumn}
    (h : (columns.map CustomColumn.name).Nodup) :
    expressionsMember columns =
      if columns.isEmpty then []
      else [("expressions", .object (columns.map columnMember))] := by
  have hkeys : (Json.Members.keys ([] ++ columns.map columnMember)).Nodup := by
    rw [List.nil_append, Json.Members.keys, List.map_map]
    exact h
  have hmembers := Json.Members.foldl_insert hkeys
  rw [List.foldl_map, List.nil_append] at hmembers
  rw [← hmembers]
  rfl

theorem get?_expressionsMember {columns : List CustomColumn}
    (h : (columns.map CustomColumn.name).Nodup) (key : String) :
    Json.Members.get? (expressionsMember columns) key =
      if key = "expressions" ∧ columns ≠ [] then
        some (.object (columns.map columnMember))
      else none := by
  rw [expressionsMember_eq h]
  cases columns with
  | nil => simp [Json.Members.get?]
  | cons c columns =>
      by_cases hkey : key = "expressions"
      · simp [Json.Members.get?, hkey]
      · simp [Json.Members.get?, hkey]

theorem get?_queryMembers (hsource : source.1 ∈ sourceKeys)
    (hextra : s.ExtraApart) {key : String}
    (hkey : key ∈ "filter" :: clauseKeys) :
    Json.Members.get? (queryMembers source s orderBy) key =
      Json.Members.get? (clauseMembers s orderBy) key := by
  have hnone : Json.Members.get? s.extra key = none :=
    Json.Members.get?_eq_none_iff.mpr fun hmem =>
      hextra.unknown key hmem (mem_knownKeys_of_mem_clauseKeys hkey)
  have hne : (key == source.1) = false := by
    rw [beq_eq_false_iff_ne]
    rintro rfl
    exact (mem_knownKeys_of_mem_sourceKeys hsource).2 hkey
  rw [Json.Members.get?, queryMembers, List.lookup_cons, hne]
  change Json.Members.get? (clauseMembers s orderBy ++ s.extra) key = _
  rw [Json.Members.get?_append, hnone, Option.or_none]

structure Holds (members : Json.Members) (s : Stage) (orderBy : List Json) :
    Prop where
  expressions : Json.Members.get? members "expressions" =
    if s.customColumns = [] then none
    else some (.object (s.customColumns.map columnMember))
  filters : Json.Members.get? members "filters" =
    arrayMember? (s.filters.map expressionToJson)
  filter : Json.Members.get? members "filter" = none
  aggregations : Json.Members.get? members "aggregation" =
    arrayMember? (s.aggregations.map aggregationToJson)
  breakouts : Json.Members.get? members "breakout" =
    arrayMember? (s.breakouts.map breakoutToJson)
  orderBy : Json.Members.get? members "order-by" = arrayMember? orderBy
  limit : Json.Members.get? members "limit" = s.limit.map Json.ofNat
  extra : members.filter (fun (key, _) => !knownKeys.contains key) = s.extra

theorem filter_queryMembers (hsource : source.1 ∈ sourceKeys)
    (hextra : s.ExtraApart) :
    (queryMembers source s orderBy).filter
        (fun (key, _) => !knownKeys.contains key) =
      s.extra := by
  have hknown := (mem_knownKeys_of_mem_sourceKeys hsource).1
  have hclauses : (clauseMembers s orderBy).filter
      (fun (key, _) => !knownKeys.contains key) = [] := by
    rw [List.filter_eq_nil_iff]
    intro member hmember
    have hkey := mem_clauseKeys (List.mem_map_of_mem hmember)
    simpa using mem_knownKeys_of_mem_clauseKeys hkey
  have hkept : s.extra.filter (fun (key, _) => !knownKeys.contains key) =
      s.extra := by
    rw [List.filter_eq_self]
    intro member hmember
    simpa using hextra.unknown member.1 (List.mem_map_of_mem hmember)
  rw [queryMembers, List.filter_cons_of_neg (by simpa using hknown),
    List.filter_append, hclauses, hkept, List.nil_append]

theorem holds_queryMembers (hsource : source.1 ∈ sourceKeys)
    (hextra : s.ExtraApart)
    (hnames : (s.customColumns.map CustomColumn.name).Nodup) :
    Holds (queryMembers source s orderBy) s orderBy := by
  have hget : ∀ key ∈ "filter" :: clauseKeys,
      Json.Members.get? (queryMembers source s orderBy) key =
        Json.Members.get? (clauseMembers s orderBy) key :=
    fun key hkey => get?_queryMembers hsource hextra hkey
  refine ⟨?_, ?_, ?_, ?_, ?_, ?_, ?_, filter_queryMembers hsource hextra⟩ <;>
  · rw [hget _ (by decide)]
    simp [clauseMembers, Json.Members.get?_append,
      get?_expressionsMember hnames, get?_listMember, get?_limitMember]

/-! ## Stages -/

theorem listOfMember_eq {α : Type} {read : String → Json → Except WireError α}
    {key : String} {members : Json.Members} {items : List Json}
    (h : Json.Members.get? members key = arrayMember? items) :
    listOfMember read key members = itemsOfJson read key 0 items := by
  rw [listOfMember, h]
  cases items with
  | nil => rfl
  | cons item items => rfl

variable {members : Json.Members}

theorem Holds.customColumns_eq (h : Holds members s orderBy) (hs : s.Readable) :
    customColumnsOfMember members =
      .ok (s.customColumns.map CustomColumn.reread) := by
  have hread := columnsOfMembers_columnMember fun c hc =>
    hs.expressions _ (Stage.mem_expressions_customColumn hc)
  rw [customColumnsOfMember, h.expressions, ← hread]
  cases s.customColumns with
  | nil => rfl
  | cons c rest => rfl

theorem Holds.filters_eq (h : Holds members s orderBy) (hs : s.Readable) :
    filtersOfMember members = .ok (s.filters.map Expression.reread) := by
  have hread := itemsOfJson_map (fun e he path =>
    (@readsBack path e
      (hs.expressions e (Stage.mem_expressions_filter he))).whole)
    "filters" 0
  rw [filtersOfMember, listOfMember_eq h.filters, hread, h.filters, h.filter]
  cases s.filters with
  | nil => rfl
  | cons e rest => rfl

theorem Holds.aggregations_eq (h : Holds members s orderBy) (hs : s.Readable)
    (hplain : ∀ a ∈ s.aggregations, a.Unmistakable) :
    listOfMember aggregationOfJson "aggregation" members =
      .ok (s.aggregations.map Aggregation.reread) := by
  rw [listOfMember_eq h.aggregations]
  exact itemsOfJson_map (fun a ha path => aggregationOfJson_aggregationToJson
    (hs.expressions _ (Stage.mem_expressions_aggregation ha))
    (hs.options a ha).1
    (hs.optionsApart a ha) (hplain a ha)) "aggregation" 0

theorem Holds.breakouts_eq (h : Holds members s orderBy) (hs : s.Readable) :
    listOfMember breakoutOfJson "breakout" members = .ok s.breakouts := by
  have hback : ∀ b ∈ s.breakouts, ∀ path,
      breakoutOfJson path (breakoutToJson b) = .ok (id b) :=
    fun b hb _ => breakoutOfJson_breakoutToJson (hs.breakouts b hb)
  rw [listOfMember_eq h.breakouts, itemsOfJson_map hback, List.map_id]

theorem Holds.orderBy_eq (h : Holds members s orderBy)
    (hback : List.Forall₂ (fun item o => ∀ path,
      orderByOfJson s.breakouts path item = .ok o)
      orderBy s.orderBy) :
    listOfMember (orderByOfJson s.breakouts) "order-by" members =
      .ok s.orderBy := by
  rw [listOfMember_eq h.orderBy]
  exact itemsOfJson_eq_ok hback "order-by" 0

theorem Holds.limit_eq (h : Holds members s orderBy) (hs : s.Readable) :
    limitOfMember members = .ok s.limit := by
  rw [limitOfMember, h.limit]
  cases hlimit : s.limit with
  | none => rfl
  | some n =>
      dsimp only [Option.map_some]
      rw [Json.nat64?_ofNat (hs.limit n hlimit)]

end

/-- The breakouts are read before the sorts, which are told by them. -/
theorem stageOfMembers_queryMembers {source : String × Json} {s : Stage}
    {orderBy : List Json} (hsource : source.1 ∈ sourceKeys) (h : s.Readable)
    (hplain : ∀ a ∈ s.aggregations, a.Unmistakable)
    (hwrite : orderByItems s.breakouts 0 s.orderBy = .ok orderBy) :
    stageOfMembers (queryMembers source s orderBy) = .ok s.reread := by
  obtain ⟨items, hitems, hsorts⟩ := exists_orderByItems h.targets 0
  rw [hwrite, Except.ok.injEq] at hitems
  subst hitems
  have hholds : Holds (queryMembers source s orderBy) s orderBy :=
    holds_queryMembers hsource h.extraApart h.names_nodup
  rw [stageOfMembers, hholds.customColumns_eq h, hholds.filters_eq h,
    hholds.aggregations_eq h hplain, hholds.breakouts_eq h]
  change (listOfMember (orderByOfJson s.breakouts) "order-by" _ >>= _) = _
  rw [hholds.orderBy_eq hsorts, hholds.limit_eq h, hholds.extra]
  rfl

theorem exists_stageOfMembers {columns : Except CatalogError (List Entry)}
    {source : String × Json} {s : Stage} (hsource : source.1 ∈ sourceKeys)
    (hvalid : s.Valid columns)
    (hcolumns : ∀ entries, columns = .ok entries → Stage.SourceEntries entries)
    (hfits : s.Fits) (h : s.Storable) :
    ∃ orderBy s',
    queryObject source s = .ok (.object (queryMembers source s orderBy)) ∧
      stageOfMembers (queryMembers source s orderBy) = .ok s' ∧
      s'.same s = true := by
  have hs := h.readable hvalid hcolumns hfits
  obtain ⟨orderBy, hwrite, -⟩ := exists_orderByItems hs.targets 0
  exact ⟨orderBy, s.reread,
    (queryObject_eq_ok_iff hsource hs.extraApart).mpr ⟨orderBy, hwrite, rfl⟩,
    stageOfMembers_queryMembers hsource hs h.unmistakable hwrite,
    hs.same_reread⟩

end Wire

/-! ## Queries -/

namespace Query

def stages : Query → List Stage
  | ofTable _ stage => [stage]
  | ofQuery source stage => stages source ++ [stage]

end Query

namespace Wire

theorem queryOfJson_ofTable {table : TableId} {s s' : Stage}
    {orderBy : List Json} (htable : table < Word.size64)
    (h : stageOfMembers
      (queryMembers ("source-table", .ofNat table) s orderBy) = .ok s') :
    queryOfJson (.object
      (queryMembers ("source-table", .ofNat table) s orderBy)) =
      .ok (.ofTable table s') := by
  have hget : Json.Members.get?
      (queryMembers ("source-table", .ofNat table) s orderBy)
      "source-table" = some (.ofNat table) := List.lookup_cons_self
  rw [queryOfJson, hget]
  dsimp only
  rw [Json.nat64?_ofNat htable, h]
  rfl

theorem queryOfJson_of_get? {members : Json.Members} {inner : Json}
    {source : Query} {s : Stage}
    (htable : Json.Members.get? members "source-table" = none)
    (hsource : Json.Members.get? members "source-query" = some inner)
    (hinner : queryOfJson inner = .ok source)
    (h : stageOfMembers members = .ok s) :
    queryOfJson (.object members) = .ok (.ofQuery source s) := by
  rw [queryOfJson, htable]
  dsimp only
  split
  case h_1 found hfound =>
      rw [hsource, Option.some.injEq] at hfound
      subst hfound
      rw [hinner]
      change (stageOfMembers _ >>= _) = _
      rw [h]
      rfl
  case h_2 hfound =>
      rw [hsource] at hfound
      cases hfound

theorem get?_sourceTable_queryMembers {inner : Json} {s : Stage}
    (orderBy : List Json) (hextra : s.ExtraApart) :
    Json.Members.get? (queryMembers ("source-query", inner) s orderBy)
        "source-table" = none := by
  rw [Json.Members.get?_eq_none_iff]
  intro hmem
  rw [queryMembers, Json.Members.keys, List.map_cons, List.map_append] at hmem
  obtain hsource | hrest := List.mem_cons.mp hmem
  · have hne : "source-table" ≠ "source-query" := by decide
    exact absurd hsource hne
  · obtain hclause | hkept := List.mem_append.mp hrest
    · exact absurd (mem_clauseKeys hclause) (by decide)
    · exact hextra.unknown _ hkept (by decide)

theorem queryOfJson_ofQuery {inner : Json} {source : Query} {s s' : Stage}
    {orderBy : List Json} (hfits : s.Fits)
    (hinner : queryOfJson inner = .ok source)
    (h : stageOfMembers (queryMembers ("source-query", inner) s orderBy) =
      .ok s') :
    queryOfJson (.object (queryMembers ("source-query", inner) s orderBy)) =
      .ok (.ofQuery source s') :=
  queryOfJson_of_get?
    (get?_sourceTable_queryMembers orderBy ⟨hfits.extra, hfits.extra_unknown⟩)
    List.lookup_cons_self hinner h

/-- A valid query reads back from its stored form as the same query, up to the
scales of numbers and the order of the members of objects.  The induction goes
through the stages from the innermost on. -/
theorem queryOfJson_queryToJson {q : Query} {c : Catalog}
    (hvalid : q.validate c = .ok ()) (htable : q.rootTable < Word.size64)
    (hfits : ∀ s ∈ q.stages, s.Fits) (h : ∀ s ∈ q.stages, s.Storable) :
    ∃ j q', queryToJson q = .ok j ∧ queryOfJson j = .ok q' ∧
      q'.same q = true := by
  rw [Query.validate_eq_ok_iff] at hvalid
  induction q with
  | ofTable table s =>
      have hmem : s ∈ (Query.ofTable table s).stages :=
        List.mem_singleton_self s
      obtain ⟨orderBy, s', hwrite, hread, hsame⟩ :=
        @exists_stageOfMembers _ ("source-table", .ofNat table) s
          (by simp [sourceKeys]) hvalid
          (fun _ => Catalog.sourceEntries_tableEntries) (hfits s hmem)
          (h s hmem)
      refine ⟨_, _, hwrite, queryOfJson_ofTable htable hread, ?_⟩
      rw [Query.same, hsame, beq_self_eq_true, Bool.and_self]
  | ofQuery source s ih =>
      have hinner : ∀ t ∈ source.stages, t ∈ (Query.ofQuery source s).stages :=
        fun t ht => List.mem_append_left [s] ht
      have hmem : s ∈ (Query.ofQuery source s).stages :=
        List.mem_append_right _ (List.mem_singleton_self s)
      obtain ⟨inner, source', hwriteSource, hreadSource, hsameSource⟩ :=
        ih hvalid.1 htable (fun t ht => hfits t (hinner t ht)) fun t ht =>
          h t (hinner t ht)
      obtain ⟨orderBy, s', hwrite, hread, hsame⟩ :=
        @exists_stageOfMembers _ ("source-query", inner) s
          (by simp [sourceKeys]) hvalid.2
          (fun _ => Query.sourceEntries_sourceColumns) (hfits s hmem) (h s hmem)
      refine ⟨.object (queryMembers ("source-query", inner) s orderBy),
        .ofQuery source' s', ?_,
        queryOfJson_ofQuery (hfits s hmem) hreadSource hread, ?_⟩
      · rw [queryToJson, hwriteSource]
        exact hwrite
      · rw [Query.same, hsameSource, hsame, Bool.and_self]

def rated : Expression :=
  .unary .not (.call .isNull [.column (.field Sample.Product.rating)])

def ratedCount : Stage where
  filters := [.binary .and (.binary .and rated rated) rated]
  aggregations :=
    [⟨.call .count [], some "Products", [("name", .string "products")]⟩]
  orderBy := [⟨.desc, .aggregation 0⟩]
  limit := some 10
  extra := [("note", .null)]

def groupedCount : Stage where
  customColumns :=
    [⟨"Less", .binary .sub (.column (.stageColumn "Products" .numeric))
    (.unary .neg (.number .one))⟩]
  breakouts := [⟨.stageColumn "Products" .numeric, none⟩]
  orderBy := [⟨.asc, .breakout 0⟩]

theorem queryOfJson_queryToJson_groupedCount :
    (Query.ofQuery (.ofTable Sample.products ratedCount) groupedCount).validate
        Sample.catalog = .ok () ∧
      ∃ j q',
        queryToJson (.ofQuery (.ofTable Sample.products ratedCount)
          groupedCount) = .ok j ∧
        queryOfJson j = .ok q' ∧
        q'.same (.ofQuery (.ofTable Sample.products ratedCount)
          groupedCount) = true := by
  have hvalid : (Query.ofQuery (.ofTable Sample.products ratedCount)
      groupedCount).validate Sample.catalog = .ok () := rfl
  have hratedFits : ratedCount.Fits := by
    constructor <;>
      simp [ratedCount, rated, Stage.expressions, Expression.identifiers,
        Expression.argIdentifiers, Identifier.Fits, OrderTarget.Fits,
        Json.DistinctKeys, Json.MembersDistinct, Json.Members.keys, Word.size64,
        Sample.Product.rating, knownKeys]
  have hgroupedFits : groupedCount.Fits := by
    constructor <;>
      simp [groupedCount, Stage.expressions, Expression.identifiers,
        Identifier.Fits, OrderTarget.Fits, Json.DistinctKeys,
        Json.MembersDistinct, Json.Members.keys, Word.size64]
  have hratedStorable : ratedCount.Storable := by
    constructor
    · have hisNull : Function.isNull.acceptsArgCount 1 = true := rfl
      have hcount : Function.count.acceptsArgCount 0 = true := rfl
      simp [ratedCount, rated, Stage.expressions, Expression.Recognized,
        Expression.ArgsRecognized, hisNull, hcount]
    · simp [ratedCount, Aggregation.OptionsApart, Json.Members.keys]
  have hgroupedStorable : groupedCount.Storable := by
    constructor
    · simp [groupedCount, Stage.expressions, Expression.Recognized]
    · simp [groupedCount]
  refine ⟨hvalid, queryOfJson_queryToJson hvalid (by decide) ?_ ?_⟩
  · simp [Query.stages, hratedFits, hgroupedFits]
  · simp [Query.stages, hratedStorable, hgroupedStorable]

end Wire

end TableQuery
