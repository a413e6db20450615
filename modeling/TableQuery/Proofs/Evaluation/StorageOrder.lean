import TableQuery.Proofs.Evaluation.Aggregates
import TableQuery.Proofs.Evaluation.SameContents
import TableQuery.Sample

/-!
# The order of stored rows

A grouped or aggregated table has one result, however its rows are stored: the
same groups come in the same order, with cells of the same values.
-/

namespace TableQuery

/-! ## Stored rows -/

/-- No two rows have the same primary key, unless it is null. -/
def TableData.KeysDiffer (data : TableData) : Prop :=
  ∀ primary ∈ data.primaryKey, data.rows.Pairwise fun r r' =>
    ∀ a ∈ r.lookup primary, ∀ b ∈ r'.lookup primary, a.same b = true →
      a.isNull = true

instance (data : TableData) : Decidable data.KeysDiffer :=
  inferInstanceAs (Decidable (∀ primary ∈ data.primaryKey,
    data.rows.Pairwise fun r r' =>
    ∀ a ∈ r.lookup primary, ∀ b ∈ r'.lookup primary, a.same b = true →
    a.isNull = true))

theorem find?_perm {α : Type} {p : α → Bool} {as bs : List α} (h : as.Perm bs)
    (hp : as.Pairwise fun a b => ¬(p a = true ∧ p b = true)) :
    as.find? p = bs.find? p := by
  have hfilter := h.filter p
  rw [← List.head?_filter, ← List.head?_filter]
  match hfound : as.filter p with
  | [] =>
      rw [hfound] at hfilter
      rw [hfilter.nil_eq]
  | [a] =>
      rw [hfound] at hfilter
      rw [hfilter.singleton_eq]
  | a :: b :: rest =>
      have hpairs := hp.filter p
      rw [hfound] at hpairs
      have ha : a ∈ as.filter p := by simp [hfound]
      have hb : b ∈ as.filter p := by simp [hfound]
      exact absurd ⟨(List.mem_filter.mp ha).2, (List.mem_filter.mp hb).2⟩
        (List.rel_of_pairwise_cons hpairs List.mem_cons_self)

namespace Database

variable {table : TableId} {primaryKey : Option FieldId}
  {records records' : List Record}

theorem find?_record_perm (h : records.Perm records')
    (hkeys : TableData.KeysDiffer ⟨primaryKey, records⟩) {primary : FieldId}
    (hprimary : primaryKey = some primary) {value : Cell}
    (hvalue : value.isNull = false) :
    (records.find? fun r => (r.lookup primary).any (·.same value)) =
      records'.find? fun r => (r.lookup primary).any (·.same value) := by
  apply find?_perm h
  apply (hkeys primary hprimary).imp
  rintro r r' hdiffer ⟨hr, hr'⟩
  obtain ⟨a, ha, hsame⟩ := (Option.any_eq_true _ _).mp hr
  obtain ⟨b, hb, hsame'⟩ := (Option.any_eq_true _ _).mp hr'
  rw [Cell.same_iff] at hsame hsame'
  have hnull := hdiffer a ha b hb (Cell.same_iff.mpr (hsame.trans hsame'.symm))
  have hrank := Cell.rank_eq_of_place (Cell.place_eq_of_content hsame)
  rw [Cell.isNull_eq_of_rank hrank, hvalue] at hnull
  cases hnull

theorem catalog_insert (db : Database) (data : TableData) :
    (db.insert table data).catalog = db.catalog := rfl

theorem table?_insert (db : Database) (data : TableData) (target : TableId) :
    (db.insert table data).table? target =
      if target = table then some data else db.table? target := by
  rw [table?, insert, List.lookup_cons]
  split <;> simp_all [table?]

/-- Keys lead to the same rows in every order. -/
theorem value_insert_perm (db : Database) (h : records.Perm records')
    (hkeys : TableData.KeysDiffer ⟨primaryKey, records⟩) :
    (db.insert table ⟨primaryKey, records⟩).value =
      (db.insert table ⟨primaryKey, records'⟩).value := by
  funext row id
  cases id with
  | foreign key id =>
      rw [value, value, follow, follow]
      cases hnull : (row.field key).isNull with
      | true => rfl
      | false =>
          simp only [Bool.false_eq_true, if_false, table?_insert,
            catalog_insert]
          cases (db.catalog.field? key).bind (·.target) with
          | none => rfl
          | some target =>
              by_cases htarget : target = table
              · simp only [htarget, if_true]
                cases hprimary : primaryKey with
                | none => rfl
                | some primary =>
                    subst hprimary
                    simp only [find?_record_perm h hkeys rfl hnull]
              · simp only [htarget, if_false]
  | _ => rfl

/-! ## Rows that pass -/

variable {db db' : Database}

theorem pushColumns_congr (hrow : db.evalRow = db'.evalRow)
    (cs : List CustomColumn) : db.pushColumns cs = db'.pushColumns cs := by
  induction cs with
  | nil => rfl
  | cons c cs ih =>
      funext row
      simp only [pushColumns, hrow, ih]

theorem passes_congr (hrow : db.evalRow = db'.evalRow)
    (filters : List Expression) : db.passes filters = db'.passes filters := by
  induction filters with
  | nil => rfl
  | cons f filters ih =>
      funext row
      simp only [passes, accepts, hrow, ih]

def prepareRow (db : Database) (s : Stage) (row : Row) :
    Except EvaluationError (Option Row) := do
  let row ← db.pushColumns s.customColumns row
  let kept ← db.passes s.filters row
  return if kept then some row else none

theorem prepare_eq (db : Database) (s : Stage) (rows : List Row) :
    db.prepare s rows =
      (do return (← rows.mapM (db.prepareRow s)).filterMap id) := by
  induction rows with
  | nil => rfl
  | cons row rows ih =>
      rw [prepare, List.mapM_cons, prepareRow, ih]
      cases db.pushColumns s.customColumns row with
      | error e => rfl
      | ok row =>
          cases hkept : db.passes s.filters row with
          | error e => simp [hkept, bind, Except.bind]
          | ok kept =>
              simp only [hkept, bind, Except.bind]
              cases rows.mapM (db.prepareRow s) with
              | error e => rfl
              | ok rest => cases kept <;> rfl

theorem prepare_perm (hrow : db.evalRow = db'.evalRow) (s : Stage)
    {rows rows' : List Row} (h : rows.Perm rows') :
    Agree List.Perm (db.prepare s rows) (db'.prepare s rows') := by
  have hprepareRow : db.prepareRow s = db'.prepareRow s := by
    funext row
    simp only [prepareRow, pushColumns_congr hrow, passes_congr hrow]
  rw [prepare_eq, prepare_eq, hprepareRow]
  exact (Agree.mapM_perm h _).bind fun _ _ hperm => .ok (hperm.filterMap id)

/-! ## Stages -/

/-- What a stage needs of its rows for their order not to matter. -/
structure Settled (db : Database) (s : Stage) (rows : List Row) : Prop where
  breakouts : ∀ prepared, db.prepare s rows = .ok prepared →
    ∀ b ∈ s.breakouts, Unmixed (db.breakoutCell · b) prepared
  aggregations : ∀ prepared found, db.prepare s rows = .ok prepared →
    db.groups s.breakouts prepared = .ok found →
    ∀ g ∈ found, ∀ a ∈ s.aggregations, Steady db g.rows a.expression

variable {rows rows' : List Row} {s : Stage}

def SameResult (r r' : ResultSet) : Prop :=
  r.columns = r'.columns ∧ List.Forall₂ SameContents r.rows r'.rows

theorem groupRow_perm (hrow : db.evalRow = db'.evalRow)
    {aggs : List Aggregation} {g g' : Group} (h : g.Match g')
    (hsteady : ∀ a ∈ aggs, Steady db g.rows a.expression)
    (hsteady' : ∀ a ∈ aggs, Steady db' g'.rows a.expression) :
    Agree SameContents (do return g.key ++ (← db.aggregations g.rows [] aggs))
      (do return g'.key ++ (← db'.aggregations g'.rows [] aggs)) := by
  apply (aggregations_perm hrow h.2 hsteady hsteady' rfl).bind
  intro values values' hvalues
  apply Agree.ok
  rw [SameContents, List.map_append, List.map_append, hvalues]
  exact congrArg (· ++ _) h.1

theorem summarize_perm (hvalue : db.value = db'.value) (h : rows.Perm rows')
    (columns : Except CatalogError (List Entry))
    (hunmixed : ∀ b ∈ s.breakouts, Unmixed (db.breakoutCell · b) rows)
    (hsteady : ∀ found, db.groups s.breakouts rows = .ok found →
      ∀ g ∈ found, ∀ a ∈ s.aggregations, Steady db g.rows a.expression)
    (hsteady' : ∀ found, db'.groups s.breakouts rows' = .ok found →
      ∀ g ∈ found, ∀ a ∈ s.aggregations, Steady db' g.rows a.expression) :
    Agree SameResult (db.summarize columns s rows)
      (db'.summarize columns s rows') := by
  have hrow := evalRow_congr hvalue
  apply (groups_perm hvalue h hunmixed).bind_of_ok
  intro found found' hfound hfound' hmatch
  have hcells := Agree.mapM hmatch fun g hg g' hg' hgroup =>
    groupRow_perm hrow hgroup (hsteady found hfound g hg)
      (hsteady' found' hfound' g' hg')
  apply hcells.bind
  intro cells cells' hcells
  apply (accumulateAll_congr hcells).bind
  intro totalled totalled' htotalled
  rw [ite_bind, ite_bind]
  apply Agree.bind (R := List.Forall₂ SameContents)
  · split
    case isTrue => exact .ok htotalled
    case isFalse => exact sortGroups_congr htotalled
  · intro sorted sorted' hsorted
    apply (Agree.refl Eq.refl (columns.mapError EvaluationError.catalog)).bind
    rintro entries _ rfl
    exact .ok ⟨rfl, hsorted⟩

theorem runStage_perm (hvalue : db.value = db'.value) (h : rows.Perm rows')
    (columns : Except CatalogError (List Entry)) (hs : s.isSummarized)
    (hsettled : Settled db s rows) (hsettled' : Settled db' s rows') :
    Agree SameResult (db.runStage columns s rows)
      (db'.runStage columns s rows') := by
  apply (prepare_perm (evalRow_congr hvalue) s h).bind_of_ok
  intro prepared prepared' hprepared hprepared' hperm
  rw [if_pos hs, if_pos hs]
  have hsummary :=
    summarize_perm hvalue hperm columns (hsettled.breakouts prepared hprepared)
      (fun found => hsettled.aggregations prepared found hprepared)
      fun found => hsettled'.aggregations prepared' found hprepared'
  apply hsummary.bind
  rintro r r' ⟨hcolumns, hrows⟩
  cases s.limit with
  | none => exact .ok ⟨hcolumns, hrows⟩
  | some n => exact .ok ⟨hcolumns, List.forall₂_take n hrows⟩

/-- However the rows of a table are stored, a summary of it comes out the same,
or fails. -/
theorem run_perm (db : Database) {table : TableId} {primaryKey : Option FieldId}
    {records records' : List Record} (h : records.Perm records')
    (hkeys : TableData.KeysDiffer ⟨primaryKey, records⟩) {s : Stage}
    (hs : s.isSummarized)
    (hsettled : Settled (db.insert table ⟨primaryKey, records⟩) s
      (records.map Row.ofRecord))
    (hsettled' : Settled (db.insert table ⟨primaryKey, records'⟩) s
      (records'.map Row.ofRecord)) :
    Agree (fun r r' => r.columns = r'.columns ∧
        List.Forall₂ (List.Forall₂ fun a b => a.same b = true) r.rows r'.rows)
      ((db.insert table ⟨primaryKey, records⟩).run (.ofTable table s))
      ((db.insert table ⟨primaryKey, records'⟩).run (.ofTable table s)) := by
  have hrun := runStage_perm (value_insert_perm db h hkeys) (h.map Row.ofRecord)
    ((Query.ofTable table s).outputColumns db.catalog) hs hsettled hsettled'
  simp only [run, table?_insert, if_true]
  apply hrun.mono
  rintro r r' ⟨hcolumns, hrows⟩
  exact ⟨hcolumns, hrows.imp fun _ _ => sameContents_iff.mp⟩

/-! ### A table in two orders -/

theorem settled_of_ok {prepared : List Row} {found : List Group}
    (hs : s.breakouts ≠ []) (hprepared : db.prepare s rows = .ok prepared)
    (hfound : db.groupRows s.breakouts prepared = .ok found)
    (hunmixed : ∀ b ∈ s.breakouts, Unmixed (db.breakoutCell · b) prepared)
    (hsteady : ∀ g ∈ found, ∀ a ∈ s.aggregations,
      Steady db g.rows a.expression) :
    Settled db s rows := by
  constructor
  case breakouts =>
      intro prepared' hprepared'
      cases hprepared.symm.trans hprepared'
      exact hunmixed
  case aggregations =>
      intro prepared' sorted hprepared' hsorted g hg
      cases hprepared.symm.trans hprepared'
      obtain ⟨found', hfound', rfl⟩ := groups_eq_ok_iff.mp hsorted
      cases hfound.symm.trans hfound'
      rw [mem_sortByKey, if_neg (by simp [hs])] at hg
      exact hsteady g hg

def priceSpread : Stage where
  aggregations := [
    ⟨.call .sum [.column (.field Sample.Product.price)], none, []⟩,
    ⟨.binary .sub (.call .max [.column (.field Sample.Product.price)])
      (.call .min [.column (.field Sample.Product.price)]), none, []⟩,
    ⟨.call .cumulativeCount [], none, []⟩]
  breakouts := [⟨.field Sample.Product.category, none⟩]
  orderBy := [⟨.desc, .aggregation 0⟩]
  limit := some 2

def pricedProduct (id : Nat) (category : String) (price : Cell) : Record :=
  [(Sample.Product.id, .ofCount id),
    (Sample.Product.category, .string category), (Sample.Product.price, price)]

def gadget : Record := pricedProduct 1 "Gadget" (Sample.fixed 0 7)

def widget : Record := pricedProduct 2 "Widget" (Sample.fixed 2 150)

def cheapWidget : Record := pricedProduct 3 "Widget" (Sample.fixed 1 15)

def pricedDatabase (records : List Record) : Database :=
  Sample.database.insert Sample.products ⟨some Sample.Product.id, records⟩

def gadgetGroup : Group := ⟨[.string "Gadget"], [.ofRecord gadget]⟩

def widgetGroup (records : List Record) : Group :=
  ⟨[.string "Widget"], records.map .ofRecord⟩

def priceRow (category : String) (total spread : Cell) (count : Nat) :
    List Cell :=
  [.string category, total, spread, .ofCount count]

def priceRows : List (List Cell) := [
  priceRow "Gadget" (Sample.fixed 0 7) (Sample.fixed 0 0) 1,
  priceRow "Widget" (Sample.fixed 2 300) (Sample.fixed 2 0) 3]

theorem run_pricedProducts :
    ∃ columns, (pricedDatabase [gadget, widget, cheapWidget]).run
      (.ofTable Sample.products priceSpread) = .ok ⟨columns, priceRows⟩ := by
  have hgroups : (pricedDatabase [gadget, widget, cheapWidget]).groups
        priceSpread.breakouts ([gadget, widget, cheapWidget].map .ofRecord) =
      .ok [gadgetGroup, widgetGroup [widget, cheapWidget]] :=
    groups_eq_ok_iff.mpr ⟨_, rfl, List.mergeSort_of_pairwise (by decide)⟩
  have hsorted : sortGroups priceSpread.breakouts priceSpread.orderBy
      priceRows = .ok priceRows :=
    sortGroups_eq_ok_iff.mpr ⟨[1], rfl, List.mergeSort_of_pairwise (by decide),
      by decide⟩
  have hsummary :=
    (@summarize_eq_ok_iff (pricedDatabase [gadget, widget, cheapWidget])
      ((Query.ofTable Sample.products priceSpread).outputColumns Sample.catalog)
      priceSpread _ _).mpr
    ⟨_, hgroups, _, .cons ⟨_, rfl, rfl⟩ (.cons ⟨_, rfl, rfl⟩ .nil), _, rfl, _,
      hsorted, _, rfl, rfl⟩
  exact ⟨_, run_eq_ok_iff.mpr ⟨_, rfl,
    (runStage_eq_ok_iff rfl).mpr ⟨_, rfl, _, hsummary, rfl⟩⟩⟩

theorem unmixed_of_isTemporal {cell : Row → Except EvaluationError Cell}
    {id : FieldId} (hcell : ∀ row, cell row = .ok (row.field id))
    (h : ∀ row ∈ rows, (row.field id).isTemporal = false) :
    Unmixed cell rows := by
  rintro row - row' hrow' s t ⟨-, ht⟩
  have hfield := h row' hrow'
  rw [hcell, Except.ok.injEq] at ht
  rw [ht] at hfield
  cases hfield

theorem steady_priceSpread {values : List Decimal}
    (hprices : ∀ row ∈ rows,
      (row.field Sample.Product.price).isTemporal = false)
    (hvalues : db.numbersOf rows .sum [.column (.field Sample.Product.price)]
      0 = .ok values)
    (hexact : Statistics.AddsExactly .zero values) :
    ∀ a ∈ priceSpread.aggregations, Steady db rows a.expression := by
  have hunmixed : ∀ e,
      [Expression.column (.field Sample.Product.price)][0]? = some e →
      Unmixed (db.evalRow · e) rows := by
    intro e he
    cases he
    exact unmixed_of_isTemporal (fun _ => rfl) hprices
  have hsum : ∀ values,
      db.numbersOf rows .sum [.column (.field Sample.Product.price)] 0 =
        .ok values → Statistics.AddsExactly .zero values := by
    intro values' hvalues'
    cases hvalues.symm.trans hvalues'
    exact hexact
  intro a ha
  simp only [priceSpread, List.mem_cons, List.not_mem_nil, or_false] at ha
  rcases ha with rfl | rfl | rfl
  · exact .call hsum fun h => nomatch h
  · exact .binary .sub (.call hunmixed fun h => nomatch h)
      (.call hunmixed fun h => nomatch h)
  · exact .call trivial fun h => nomatch h

theorem settled_priceSpread (rows : List Row) (found : List Group)
    (hprepared : db.prepare priceSpread rows = .ok rows)
    (hfound : db.groupRows priceSpread.breakouts rows = .ok found)
    (hcategories : ∀ row ∈ rows,
      (row.field Sample.Product.category).isTemporal = false)
    (hprices : ∀ g ∈ found, ∀ row ∈ g.rows,
      (row.field Sample.Product.price).isTemporal = false)
    (hsums : ∀ g ∈ found, ∃ values,
      db.numbersOf g.rows .sum [.column (.field Sample.Product.price)] 0 =
        .ok values ∧
        Statistics.AddsExactly .zero values) : Settled db priceSpread rows := by
  apply settled_of_ok (List.cons_ne_nil _ _) hprepared hfound
  · intro b hb
    cases List.mem_singleton.mp hb
    exact unmixed_of_isTemporal (fun _ => rfl) hcategories
  · intro g hg
    obtain ⟨values, hvalues, hexact⟩ := hsums g hg
    exact steady_priceSpread (hprices g hg) hvalues hexact

theorem run_perm_pricedProducts :
    ∃ r r', (pricedDatabase [gadget, widget, cheapWidget]).run
        (.ofTable Sample.products priceSpread) = .ok r ∧
      (pricedDatabase [cheapWidget, widget, gadget]).run
        (.ofTable Sample.products priceSpread) = .ok r' ∧
      r.columns = r'.columns ∧
      List.Forall₂ (List.Forall₂ fun a b => a.same b = true)
        r.rows r'.rows := by
  have hgadget : ∀ records, ∃ values,
      (pricedDatabase records).numbersOf gadgetGroup.rows .sum
        [.column (.field Sample.Product.price)] 0 = .ok values ∧
          Statistics.AddsExactly .zero values :=
    fun _ => ⟨_, rfl, by decide +kernel⟩
  have hsettled : Settled (pricedDatabase [gadget, widget, cheapWidget])
      priceSpread
      ([gadget, widget, cheapWidget].map .ofRecord) := by
    apply settled_priceSpread _ [gadgetGroup,
      widgetGroup [widget, cheapWidget]] rfl rfl
    · decide
    · decide
    · intro g hg
      rcases List.mem_pair.mp hg with rfl | rfl
      · exact hgadget _
      · exact ⟨_, rfl, by decide +kernel⟩
  have hsettled' : Settled (pricedDatabase [cheapWidget, widget, gadget])
      priceSpread
      ([cheapWidget, widget, gadget].map .ofRecord) := by
    apply settled_priceSpread _ [widgetGroup [cheapWidget, widget],
      gadgetGroup] rfl rfl
    · decide
    · decide
    · intro g hg
      rcases List.mem_pair.mp hg with rfl | rfl
      · exact ⟨_, rfl, by decide +kernel⟩
      · exact hgadget _
  obtain ⟨columns, hr⟩ := run_pricedProducts
  have hrun :=
    run_perm Sample.database
      (List.reverse_perm [gadget, widget, cheapWidget]).symm
    (by decide) rfl hsettled hsettled'
  obtain ⟨r', hr', hcolumns, hrows⟩ := hrun.exists_right hr
  exact ⟨_, r', hr, hr', hcolumns, hrows⟩

end Database

end TableQuery
