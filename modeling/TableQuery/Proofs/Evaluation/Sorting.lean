import Mathlib
import TableQuery.Proofs.Evaluation.Gathering
import TableQuery.Proofs.Evaluation.Unsorted
import TableQuery.Proofs.Query.Validity
import TableQuery.Sample

/-!
# Sorted results

A sort compares keys by the first place where they differ, each place in its own
direction, and leaves rows of equal keys in their order.  So the result of a
stage is the one without sorts and limit, rearranged and cut.
-/

namespace TableQuery

/-! ## Keys -/

def Direction.Before : Direction → Cell → Cell → Prop
  | .asc, a, b => a.place < b.place
  | .desc, a, b => b.place < a.place

/-- Whether a key comes strictly before another one: in the first place where
they differ. -/
def KeyBefore : List Direction → List Cell → List Cell → Prop
  | d :: ds, a :: as, b :: bs =>
  d.Before a b ∨ a.place = b.place ∧ KeyBefore ds as bs
  | _, _, _ => False

def KeySame (as bs : List Cell) : Prop := as.map Cell.place = bs.map Cell.place

namespace Direction

variable {d : Direction} {a b c : Cell}

theorem compare_eq_lt_iff : d.compare a b = .lt ↔ d.Before a b := by
  cases d with
  | asc => rw [compare, Cell.compare_eq, Cell.comparePlaces_eq_lt_iff, Before]
  | desc =>
      rw [compare, Ordering.swap_eq_lt, Cell.compare_eq,
        Cell.comparePlaces_eq_gt_iff, Before]

theorem compare_eq_eq_iff : d.compare a b = .eq ↔ a.place = b.place := by
  cases d with
  | asc => rw [compare, Cell.compare_eq, Cell.comparePlaces_eq_eq_iff]
  | desc =>
      rw [compare, Ordering.swap_eq_eq, Cell.compare_eq,
        Cell.comparePlaces_eq_eq_iff]

theorem Before.trans (h : d.Before a b) (h' : d.Before b c) : d.Before a c := by
  cases d with
  | asc => exact lt_trans h h'
  | desc => exact lt_trans h' h

theorem Before.place_ne (h : d.Before a b) : a.place ≠ b.place := by
  cases d with
  | asc => exact ne_of_lt h
  | desc => exact ne_of_gt h

theorem before_congr {a' b' : Cell} (ha : a.place = a'.place)
    (hb : b.place = b'.place) : d.Before a b ↔ d.Before a' b' := by
  cases d <;> rw [Before, Before, ha, hb]

theorem before_trichotomy (d : Direction) (a b : Cell) :
    d.Before a b ∨ a.place = b.place ∨ d.Before b a := by
  cases d with
  | asc => exact lt_trichotomy a.place b.place
  | desc =>
      rcases lt_trichotomy a.place b.place with h | h | h
      · exact .inr (.inr h)
      · exact .inr (.inl h)
      · exact .inl h

end Direction

def KeyLE (ds : List Direction) (as bs : List Cell) : Prop :=
  KeyBefore ds as bs ∨ KeySame as bs

section KeyLE

variable {d : Direction} {ds : List Direction} {a b : Cell}
  {as bs cs : List Cell}

theorem keyLE_cons :
    KeyLE (d :: ds) (a :: as) (b :: bs) ↔
      d.Before a b ∨ a.place = b.place ∧ KeyLE ds as bs := by
  simp only [KeyLE, KeyBefore, KeySame, List.map_cons, List.cons.injEq,
    and_or_left, or_assoc]

theorem isLE_compareKeys_iff (ha : as.length = ds.length)
    (hb : bs.length = ds.length) :
    (compareKeys ds as bs).isLE = true ↔ KeyLE ds as bs := by
  induction ds generalizing as bs with
  | nil =>
      rw [List.length_eq_zero_iff.mp ha, List.length_eq_zero_iff.mp hb]
      exact iff_of_true rfl (.inr rfl)
  | cons d ds ih =>
      obtain ⟨a, as, rfl⟩ := List.exists_cons_of_length_eq_add_one ha
      obtain ⟨b, bs, rfl⟩ := List.exists_cons_of_length_eq_add_one hb
      rw [compareKeys, isLE_then, Direction.compare_eq_lt_iff,
        Direction.compare_eq_eq_iff, ih (by simpa using ha) (by simpa using hb),
        keyLE_cons]

theorem keyLE_total (ha : as.length = ds.length) (hb : bs.length = ds.length) :
    KeyLE ds as bs ∨ KeyLE ds bs as := by
  induction ds generalizing as bs with
  | nil =>
      rw [List.length_eq_zero_iff.mp ha, List.length_eq_zero_iff.mp hb]
      exact .inl (.inr rfl)
  | cons d ds ih =>
      obtain ⟨a, as, rfl⟩ := List.exists_cons_of_length_eq_add_one ha
      obtain ⟨b, bs, rfl⟩ := List.exists_cons_of_length_eq_add_one hb
      rw [keyLE_cons, keyLE_cons]
      rcases d.before_trichotomy a b with h | h | h
      · exact .inl (.inl h)
      · rcases ih (by simpa using ha) (by simpa using hb) with hrest | hrest
        · exact .inl (.inr ⟨h, hrest⟩)
        · exact .inr (.inr ⟨h.symm, hrest⟩)
      · exact .inr (.inl h)

theorem KeyLE.antisymm (h : KeyLE ds as bs) (h' : KeyLE ds bs as)
    (ha : as.length = ds.length) (hb : bs.length = ds.length) :
    KeySame as bs := by
  induction ds generalizing as bs with
  | nil =>
      rw [List.length_eq_zero_iff.mp ha, List.length_eq_zero_iff.mp hb, KeySame]
  | cons d ds ih =>
      obtain ⟨a, as, rfl⟩ := List.exists_cons_of_length_eq_add_one ha
      obtain ⟨b, bs, rfl⟩ := List.exists_cons_of_length_eq_add_one hb
      rw [keyLE_cons] at h h'
      rcases h with h | ⟨h, hrest⟩ <;> rcases h' with h' | ⟨h', hrest'⟩
      · exact absurd rfl (h.trans h').place_ne
      · exact absurd h'.symm h.place_ne
      · exact absurd h.symm h'.place_ne
      · have hsame := ih hrest hrest' (by simpa using ha) (by simpa using hb)
        rw [KeySame] at hsame ⊢
        rw [List.map_cons, List.map_cons, h, hsame]

theorem KeyLE.trans (h : KeyLE ds as bs) (h' : KeyLE ds bs cs)
    (ha : as.length = ds.length) (hb : bs.length = ds.length)
    (hc : cs.length = ds.length) : KeyLE ds as cs := by
  induction ds generalizing as bs cs with
  | nil =>
      rw [List.length_eq_zero_iff.mp ha, List.length_eq_zero_iff.mp hc]
      exact .inr rfl
  | cons d ds ih =>
      obtain ⟨a, as, rfl⟩ := List.exists_cons_of_length_eq_add_one ha
      obtain ⟨b, bs, rfl⟩ := List.exists_cons_of_length_eq_add_one hb
      obtain ⟨c, cs, rfl⟩ := List.exists_cons_of_length_eq_add_one hc
      rw [keyLE_cons] at h h' ⊢
      rcases h with h | ⟨h, hrest⟩ <;> rcases h' with h' | ⟨h', hrest'⟩
      · exact .inl (h.trans h')
      · exact .inl ((Direction.before_congr rfl h').mp h)
      · exact .inl ((Direction.before_congr h rfl).mpr h')
      · exact .inr ⟨h.trans h',
          ih hrest hrest' (by simpa using ha) (by simpa using hb)
            (by simpa using hc)⟩

end KeyLE

/-! ## Stable sorts -/

/-- Items rearranged by their keys.  `order` lists each position once; a
position stands before another one if its key comes before, or if the keys stand
in the same place and it came first. -/
def StablySorted {α : Type} (directions : List Direction)
    (keys : List (List Cell)) (items sorted : List α) : Prop :=
  ∃ order : List Nat, order.Perm (List.range items.length) ∧
    order.Pairwise (fun i j => ∃ a b, keys[i]? = some a ∧ keys[j]? = some b ∧
      (KeyBefore directions a b ∨ KeySame a b ∧ i < j)) ∧
    List.Forall₂ (fun i item => items[i]? = some item) order sorted

/-- Positions come out in order, those that compare equal as they were. -/
theorem pairwise_mergeSort_finRange {n : Nat} (le : Fin n → Fin n → Bool)
    (htrans : ∀ i j k, le i j = true → le j k = true → le i k = true)
    (htotal : ∀ i j, (le i j || le j i) = true) :
    ((List.finRange n).mergeSort le).Pairwise fun i j =>
      le i j = true ∧ (le j i = true → i < j) := by
  have hnumber : ∀ i : Fin n, ∀ a, (i, a) ∈ (List.finRange n).zipIdx →
      a = i := by
    intro i a h
    obtain ⟨_, hi⟩ := List.mem_zipIdx' h
    rw [hi, List.getElem_finRange]
    rfl
  have hnodup :
      (((List.finRange n).zipIdx.mergeSort (List.zipIdxLE le)).map
        Prod.fst).Nodup := by
    rw [List.mergeSort_zipIdx, (List.mergeSort_perm _ le).nodup_iff]
    exact List.nodup_finRange n
  rw [List.Nodup, List.pairwise_map] at hnodup
  rw [← List.mergeSort_zipIdx, List.pairwise_map]
  have hsorted :=
    List.pairwise_mergeSort (List.zipIdxLE_trans htrans)
      (List.zipIdxLE_total htotal)
    (List.finRange n).zipIdx
  refine (hsorted.and hnodup).imp_of_mem ?_
  rintro ⟨i, a⟩ ⟨j, b⟩ hi hj ⟨hle, hne⟩
  rw [List.mem_mergeSort] at hi hj
  rw [hnumber i a hi, hnumber j b hj, List.zipIdxLE] at hle
  split at hle
  case isFalse => cases hle
  case isTrue hij =>
      refine ⟨hij, fun hji => lt_of_le_of_ne ?_ hne⟩
      rw [if_pos hji] at hle
      exact of_decide_eq_true hle

theorem pairwise_sortByKey_finRange {n : Nat} {directions : List Direction}
    (key : Fin n → List Cell) (hkey : ∀ i, (key i).length = directions.length) :
    (sortByKey directions key (List.finRange n)).Pairwise fun i j =>
      KeyBefore directions (key i) (key j) ∨
        KeySame (key i) (key j) ∧ i < j := by
  have hle : ∀ i j, (compareKeys directions (key i) (key j)).isLE = true ↔
      KeyLE directions (key i) (key j) :=
      fun i j => isLE_compareKeys_iff (hkey i) (hkey j)
  have hsorted := pairwise_mergeSort_finRange
    (fun i j => (compareKeys directions (key i) (key j)).isLE)
    (by
      intro i j k
      rw [hle, hle, hle]
      exact fun h h' => h.trans h' (hkey i) (hkey j) (hkey k))
    (by
      intro i j
      rw [Bool.or_eq_true, hle, hle]
      exact keyLE_total (hkey i) (hkey j))
  refine hsorted.imp ?_
  rintro i j ⟨hij, hlt⟩
  rw [hle] at hij hlt
  rcases hij with hbefore | hsame
  · exact .inl hbefore
  · exact .inr ⟨hsame, hlt (.inr hsame.symm)⟩

theorem sortByKey_eq_map_finRange {α : Type} (directions : List Direction)
    (key : α → List Cell) (items : List α) :
    sortByKey directions key items =
      (sortByKey directions (fun i : Fin items.length => key items[i])
        (List.finRange items.length)).map (items[·]) := by
  conv_lhs => rw [← List.map_getElem_finRange items]
  exact sortByKey_map directions fun _ _ => rfl

theorem stablySorted_sortByKey {α : Type} {directions : List Direction}
    {key : α → List Cell} {items : List α}
    (hlength : ∀ a ∈ items, (key a).length = directions.length) :
    StablySorted directions (items.map key) items
      (sortByKey directions key items) := by
  -- The positions of the items are sorted in their place.
  let order := sortByKey directions (fun i : Fin items.length => key items[i])
    (List.finRange items.length)
  have hitems : sortByKey directions key items = order.map (items[·]) :=
    sortByKey_eq_map_finRange directions key items
  refine ⟨order.map Fin.val, ?_, ?_, ?_⟩
  · simpa using
      (perm_sortByKey directions _ (List.finRange items.length)).map Fin.val
  · rw [List.pairwise_map]
    have hsorted :=
      pairwise_sortByKey_finRange (fun i : Fin items.length => key items[i])
        fun i => hlength _ (List.getElem_mem _)
    refine hsorted.imp fun {i j} hij =>
      ⟨key items[i], key items[j], by simp, by simp, hij⟩
  · rw [hitems, List.forall₂_map_left_iff, List.forall₂_map_right_iff,
      List.forall₂_same]
    exact fun i _ => List.getElem?_eq_getElem i.isLt

theorem pairwise_sortByKey {α : Type} {directions : List Direction}
    {key : α → List Cell} {items : List α}
    (hlength : ∀ a ∈ items, (key a).length = directions.length) :
    (sortByKey directions key items).Pairwise fun a b =>
      KeyLE directions (key a) (key b) := by
  rw [sortByKey_eq_map_finRange, List.pairwise_map]
  have hsorted :=
    pairwise_sortByKey_finRange (fun i : Fin items.length => key items[i])
      fun i => hlength _ (List.getElem_mem _)
  exact hsorted.imp fun hij => hij.imp_right And.left

theorem StablySorted.exists_forall₂ {α β : Type} {R : α → β → Prop}
    {directions : List Direction} {keys : List (List Cell)}
    {items sorted : List α} {items' : List β}
    (h : StablySorted directions keys items sorted)
    (hR : List.Forall₂ R items items') :
    ∃ sorted', StablySorted directions keys items' sorted' ∧
      List.Forall₂ R sorted sorted' := by
  obtain ⟨order, hperm, hpairs, hitems⟩ := h
  have hsorted : ∃ sorted',
      List.Forall₂ (fun i item => items'[i]? = some item) order sorted' ∧
      List.Forall₂ R sorted sorted' := by
    clear hperm hpairs
    induction hitems with
    | nil => exact ⟨[], .nil, .nil⟩
    | cons hitem _ ih =>
        obtain ⟨sorted', hitems', hrest⟩ := ih
        obtain ⟨hi, rfl⟩ := List.getElem?_eq_some_iff.mp hitem
        have hi' := hR.length_eq ▸ hi
        exact ⟨_, .cons (List.getElem?_eq_getElem hi') hitems',
          .cons (hR.get hi hi') hrest⟩
  obtain ⟨sorted', hitems', hrest⟩ := hsorted
  exact ⟨sorted', ⟨order, hR.length_eq ▸ hperm, hpairs, hitems'⟩, hrest⟩

/-! ## What sorts look at -/

def OrderTarget.cell? (breakouts : Nat) (row : List Cell) :
    OrderTarget → Option Cell
  | .breakout i => row[i]?
  | .aggregation i => row[breakouts + i]?
  | .column _ => none

namespace Database

variable {db : Database} {q : Query} {r : ResultSet}

def RowCells (db : Database) (entries : List Entry) (row : Row)
    (cells : List Cell) : Prop :=
  List.Forall₂ (fun e cell => db.value row e.identifier =
    .ok cell) entries cells

def RowKey (db : Database) (orders : List OrderBy) (row : Row)
    (key : List Cell) : Prop :=
  List.Forall₂ (fun o cell => ∃ id, o.target = .column id ∧
    db.value row id = .ok cell) orders key

/-- The keys that the sorts of a query take from the rows of its result.  A
grouped result has them in its rows.  Any other one has a row for each row that
passes, with the cells of some of its columns, and the keys may look at
others. -/
def SortKeys (db : Database) (q : Query) (rows keys : List (List Cell)) :
    Prop :=
  if q.stage.isSummarized then
    keys.map (List.map some) =
      rows.map fun row =>
        q.stage.orderBy.map (·.target.cell? q.stage.breakouts.length row)
  else
    ∃ passing entries, db.Passing q passing ∧
      q.outputColumns db.catalog = .ok entries ∧
      List.Forall₂ (db.RowCells entries) passing rows ∧
      List.Forall₂ (db.RowKey q.stage.orderBy) passing keys

/-! ## Grouped results -/

theorem cellsAt_eq {columns : List Nat} {row : List Cell}
    (h : ∀ c ∈ columns, c < row.length) :
    (cellsAt columns row).map some = columns.map (row[·]?) := by
  induction columns with
  | nil => rfl
  | cons c columns ih =>
      obtain ⟨hc, hrest⟩ := List.forall_mem_cons.mp h
      have ih := ih hrest
      rw [cellsAt] at ih ⊢
      rw [List.map_cons, List.getElem?_eq_getElem hc]
      simpa using ih

theorem orderColumn_eq_ok {source : Except CatalogError (List Entry)}
    {s : Stage} (h : s.Valid source) (hs : s.isSummarized) {o : OrderBy}
    (ho : o ∈ s.orderBy) {c : Nat} (hc : orderColumn s.breakouts o = .ok c) :
    c < s.breakouts.length + s.aggregations.length ∧
      ∀ row : List Cell, o.target.cell? s.breakouts.length row = row[c]? := by
  obtain ⟨_, -, hvalid⟩ := h.sortTarget_valid ho
  rw [orderColumn] at hc
  cases htarget : o.target with
  | breakout i =>
      rw [htarget] at hc hvalid
      cases hc
      exact ⟨Nat.lt_add_right _ hvalid, fun _ => rfl⟩
  | aggregation i =>
      rw [htarget] at hc hvalid
      cases hc
      exact ⟨Nat.add_lt_add_left hvalid _, fun _ => rfl⟩
  | column id =>
      rw [htarget] at hvalid
      exact absurd hvalid.1 (by simp [hs])

theorem stablySorted_sortGroups {source : Except CatalogError (List Entry)}
    {s : Stage} (h : s.Valid source) (hs : s.isSummarized)
    {rows sorted : List (List Cell)}
    (hrows : ∀ row ∈ rows, row.length =
      s.breakouts.length + s.aggregations.length)
    (hsorted : sortGroups s.breakouts s.orderBy rows = .ok sorted) :
    ∃ keys, keys.map (List.map some) =
        rows.map (fun row =>
          s.orderBy.map (·.target.cell? s.breakouts.length row)) ∧
      StablySorted (s.orderBy.map (·.direction)) keys rows sorted := by
  obtain ⟨columns, hcolumns, rfl, -⟩ := sortGroups_eq_ok_iff.mp hsorted
  rw [mapM_eq_ok_iff] at hcolumns
  have hvalid := forall₂_imp_of_mem hcolumns fun o ho _ _ =>
    orderColumn_eq_ok h hs ho
  have hlt : ∀ row ∈ rows, ∀ c ∈ columns, c < row.length := by
    intro row hrow c hc
    obtain ⟨o, -, hoc⟩ := exists_of_mem_forall₂ hvalid hc
    rw [hrows row hrow]
    exact hoc.1
  have hkey : ∀ row ∈ rows, (cellsAt columns row).map some =
      s.orderBy.map (·.target.cell? s.breakouts.length row) := by
    intro row hrow
    rw [cellsAt_eq (hlt row hrow), ← List.forall₂_eq_eq_eq,
      List.forall₂_map_left_iff, List.forall₂_map_right_iff]
    exact hvalid.flip.imp fun _ _ hoc => (hoc.2 row).symm
  refine ⟨rows.map (cellsAt columns), ?_,
    stablySorted_sortByKey fun row hrow => ?_⟩
  · rw [List.map_map]
    exact List.map_congr_left hkey
  · simpa using congrArg List.length (hkey row hrow)

/-! ## Other results -/

theorem exists_keyed_of_sortRows {orders : List OrderBy}
    {rows sorted : List Row} (h : db.sortRows orders rows = .ok sorted) :
    ∃ keyed : List (List Cell × Row),
      List.Forall₂ (fun row p => db.orderKey orders row = .ok p.1 ∧ p.2 = row)
        rows keyed ∧
      (sortByKey (orders.map (·.direction)) Prod.fst keyed).map Prod.snd =
        sorted := by
  rw [sortRows] at h
  split at h
  case isTrue hempty =>
      cases h
      rw [List.isEmpty_iff] at hempty
      subst hempty
      refine ⟨rows.map fun row => ([], row), ?_, ?_⟩
      · rw [List.forall₂_map_right_iff, List.forall₂_same]
        exact fun _ _ => ⟨rfl, rfl⟩
      · rw [List.map_nil, sortByKey_nil, List.map_map]
        exact List.map_id _
  case isFalse =>
      simp only [bind_eq_ok_iff, pure_eq_ok_iff, mapM_eq_ok_iff] at h
      obtain ⟨keyed, hkeyed, hsorted⟩ := h
      refine ⟨keyed, hkeyed.imp ?_, hsorted⟩
      rintro row _ ⟨key, hkey, rfl⟩
      exact ⟨hkey, rfl⟩

theorem orderKey_eq_ok {orders : List OrderBy} {row : Row} {key : List Cell}
    (h : db.orderKey orders row = .ok key) : db.RowKey orders row key := by
  rw [orderKey, mapM_eq_ok_iff] at h
  refine h.imp fun o cell hcell => ?_
  split at hcell
  case h_1 id htarget => exact ⟨id, htarget, hcell⟩
  case h_2 => cases hcell

theorem stablySorted_of_project {s : Stage}
    {columns : Except CatalogError (List Entry)} {passing : List Row}
    (h : db.project columns s passing = .ok r) :
    ∃ entries rows keys,
      columns = .ok entries ∧
      db.project columns s.unsorted passing = .ok ⟨r.columns, rows⟩ ∧
      List.Forall₂ (db.RowCells entries) passing rows ∧
      List.Forall₂ (db.RowKey s.orderBy) passing keys ∧
      StablySorted (s.orderBy.map (·.direction)) keys rows r.rows := by
  obtain ⟨sorted, hsorted, entries, hentries, cells, hcells, rfl⟩ :=
    project_eq_ok_iff.mp h
  obtain ⟨keyed, hkeyed, rfl⟩ := exists_keyed_of_sortRows hsorted
  have hpassing : keyed.map Prod.snd = passing := by
    rw [← List.forall₂_eq_eq_eq, List.forall₂_map_left_iff]
    exact hkeyed.flip.imp fun _ _ hp => hp.2
  subst hpassing
  have hkeys : List.Forall₂ (db.RowKey s.orderBy) (keyed.map Prod.snd)
      (keyed.map Prod.fst) := by
    rw [List.forall₂_map_right_iff]
    exact hkeyed.imp fun _ _ hp => orderKey_eq_ok hp.1
  -- All rows have cells, in whichever order they come.
  have hperm :=
    (perm_sortByKey (s.orderBy.map (·.direction)) Prod.fst keyed).map Prod.snd
  obtain ⟨rows, hrows, -⟩ := (Agree.mapM_perm hperm fun row =>
    entries.mapM fun e => db.value row e.identifier).exists_right hcells
  have hunsorted : db.project columns s.unsorted (keyed.map Prod.snd) =
      .ok (.ofEntries entries rows) :=
    project_eq_ok_iff.mpr ⟨_, rfl, entries, hentries, rows, hrows, rfl⟩
  rw [mapM_eq_ok_iff, List.forall₂_map_left_iff] at hrows hcells
  have hlength : ∀ p ∈ keyed, p.1.length =
      (s.orderBy.map (·.direction)).length := by
    intro p hp
    obtain ⟨_, -, hkey, -⟩ := exists_of_mem_forall₂ hkeyed hp
    simpa using (orderKey_eq_ok hkey).length_eq.symm
  obtain ⟨rows', hsorted', hrows'⟩ :=
    (stablySorted_sortByKey hlength).exists_forall₂ hrows
  refine ⟨entries, rows, _, hentries, hunsorted, ?_, hkeys, ?_⟩
  · rw [List.forall₂_map_left_iff]
    exact hrows.imp fun _ _ => mapM_eq_ok_iff.mp
  · have hunique :=
      List.right_unique_forall₂' (fun _ _ _ h h' =>
        Except.ok.inj (h.symm.trans h'))
      hrows' hcells
    exact hunique ▸ hsorted'

/-! ## Runs -/

theorem exists_stablySorted_of_project (hs : q.stage.isSummarized = false)
    (hr : db.run q = .ok r) :
    ∃ rows keys sorted, db.run q.unsorted = .ok ⟨r.columns, rows⟩ ∧
      db.SortKeys q rows keys ∧
      StablySorted (q.stage.orderBy.map (·.direction)) keys rows sorted ∧
      r.rows = limited q.stage.limit sorted := by
  obtain ⟨source, hsource, hstage⟩ := run_eq_ok_iff.mp hr
  obtain ⟨passing, hprepared, result, hresult, rfl⟩ :=
    (runStage_eq_ok_iff_project hs).mp hstage
  obtain ⟨entries, rows, keys, hentries, hunsorted, hrows, hkeys, hsorted⟩ :=
    stablySorted_of_project hresult
  refine ⟨rows, keys, result.rows, ?_, ?_, hsorted, rfl⟩
  · refine run_eq_ok_iff.mpr ⟨source,
      by rwa [Query.unsorted, sourceRows_withStage], ?_⟩
    rw [Query.stage_unsorted, Query.outputColumns_unsorted]
    exact (runStage_eq_ok_iff_project (s := q.stage.unsorted) hs).mpr
      ⟨passing, (prepare_unsorted _ _).trans hprepared, _, hunsorted, rfl⟩
  · rw [SortKeys, if_neg (by simp [hs])]
    exact ⟨passing, entries, passing_of_prepare hsource hprepared,
      hentries, hrows, hkeys⟩

/-- The result of a valid query is that of the query without its sorts and
limit, stably sorted by the keys that the sorts look at and cut to the limit. -/
theorem run_stablySorted (hvalid : q.validate db.catalog = .ok ())
    (hr : db.run q = .ok r) :
    ∃ r₀ keys sorted, db.run q.unsorted = .ok r₀ ∧ r₀.columns = r.columns ∧
      db.SortKeys q r₀.rows keys ∧
      StablySorted (q.stage.orderBy.map (·.direction)) keys r₀.rows sorted ∧
      r.rows = (q.stage.limit.map sorted.take).getD sorted := by
  cases hs : q.stage.isSummarized with
  | true =>
      obtain ⟨_, _, _, totalled, sorted, hsummary, hrun, hsorted, hrows⟩ :=
        exists_summary_of_run hs hr
      obtain ⟨keys, hkeys, hstable⟩ := stablySorted_sortGroups
        (Query.validate_eq_ok_iff.mp hvalid).stage hs
        hsummary.length_of_mem hsorted
      exact ⟨_, keys, sorted, hrun, rfl, (if_pos hs).mpr hkeys, hstable, hrows⟩
  | false =>
      obtain ⟨rows, keys, sorted, hrun, hkeys, hstable, hrows⟩ :=
        exists_stablySorted_of_project hs hr
      exact ⟨_, keys, sorted, hrun, rfl, hkeys, hstable, hrows⟩

/-! ### Equal prices -/

def shirt (size : String) (price : Cell) : List Cell := [.string size, price]

def shirts : Database where
  catalog := ⟨[⟨1, "Shirts", [⟨10, "Size", none, .text, none⟩,
    ⟨11, "Price", none, .numeric, none⟩]⟩]⟩
  tables := [(1, ⟨none, [[(10, .string "M"), (11, .ofCount 5)],
    [(10, .string "S"), (11, .ofCount 7)],
    [(10, .string "L"), (11, Sample.fixed 1 70)]]⟩)]

def dearestShirts : Query :=
  .ofTable 1 { orderBy := [⟨.desc, .column (.field 11)⟩], limit := some 2 }

theorem run_stablySorted_dearestShirts :
    ∃ r₀ keys sorted, shirts.run dearestShirts.unsorted = .ok r₀ ∧
      r₀.rows = [shirt "M" (.ofCount 5), shirt "S" (.ofCount 7),
        shirt "L" (Sample.fixed 1 70)] ∧
      shirts.SortKeys dearestShirts r₀.rows keys ∧
      StablySorted [.desc] keys r₀.rows sorted ∧
      sorted.take 2 =
        [shirt "S" (.ofCount 7), shirt "L" (Sample.fixed 1 70)] := by
  have hrun : shirts.run dearestShirts =
      .ok ⟨[("Size", .text), ("Price", .numeric)],
      [shirt "S" (.ofCount 7), shirt "L" (Sample.fixed 1 70)]⟩ := by cbv
  obtain ⟨r₀, keys, sorted, hunsorted, -, hkeys, hstable, hrows⟩ :=
    run_stablySorted rfl hrun
  have hr₀ : shirts.run dearestShirts.unsorted =
      .ok ⟨[("Size", .text), ("Price", .numeric)],
      [shirt "M" (.ofCount 5), shirt "S" (.ofCount 7),
        shirt "L" (Sample.fixed 1 70)]⟩ := rfl
  cases hunsorted.symm.trans hr₀
  exact ⟨_, keys, sorted, hr₀, rfl, hkeys, hstable, hrows.symm⟩

end Database

end TableQuery
