import Mathlib.Data.List.Induction
import Mathlib.Data.List.Lex
import TableQuery.Proofs.Evaluation.Contents
import TableQuery.Proofs.Evaluation.Groups

/-!
# Gathering rows

Groups are found in the order of their first rows, and sorted by their keys.
What comes out is the same for every order of the rows: one group for each key,
with the rows that have it.
-/

namespace TableQuery

/-! ## Orders of keys -/

theorem cons_le_cons_iff {α : Type} [LinearOrder α] {a b : α} {as bs : List α} :
    a :: as ≤ b :: bs ↔ a < b ∨ a = b ∧ as ≤ bs := by
  rw [← not_lt, ← not_lt, List.cons_lt_cons_iff]
  rcases lt_trichotomy a b with h | rfl | h
  · simp [h, h.not_gt, h.ne']
  · simp
  · simp [h, h.not_gt, h.ne']

theorem isLE_then {o o' : Ordering} :
    (o.then o').isLE = true ↔ o = .lt ∨ o = .eq ∧ o'.isLE = true := by
  cases o <;> simp

theorem compareKeys_asc {α : Type} {directions : List α} {as bs : List Cell}
    (ha : as.length = directions.length) (hb : bs.length = directions.length) :
    (compareKeys (directions.map fun _ => .asc) as bs).isLE = true ↔
      as.map Cell.place ≤ bs.map Cell.place := by
  induction directions generalizing as bs with
  | nil =>
      rw [List.length_eq_zero_iff.mp ha, List.length_eq_zero_iff.mp hb]
      simp [compareKeys]
  | cons _ directions ih =>
      obtain ⟨a, as, rfl⟩ := List.exists_cons_of_length_eq_add_one ha
      obtain ⟨b, bs, rfl⟩ := List.exists_cons_of_length_eq_add_one hb
      rw [List.map_cons, List.map_cons, List.map_cons, cons_le_cons_iff,
        compareKeys, isLE_then, ih (by simpa using ha) (by simpa using hb),
        Direction.compare, Cell.compare_eq, Cell.comparePlaces_eq_lt_iff,
        Cell.comparePlaces_eq_eq_iff]

namespace Database

theorem sameKey_iff {as bs : List Cell} :
    sameKey as bs = true ↔ as.map Cell.content = bs.map Cell.content := by
  induction as generalizing bs with
  | nil => cases bs <;> simp [sameKey]
  | cons a as ih =>
      cases bs with
      | nil => simp [sameKey]
      | cons b bs =>
          have hrest : sameKey (a :: as) (b :: bs) =
              (a.same b && sameKey as bs) := by
            simp [sameKey, Bool.and_left_comm]
          rw [hrest, Bool.and_eq_true, Cell.same_iff, ih, List.map_cons,
            List.map_cons, List.cons_eq_cons]

/-! ## Gathering -/

def Group.contents (g : Group) : List (Cell.Place × Bool) :=
  g.key.map Cell.content

def gather (keyed : List (List Cell × Row)) : List Group :=
  keyed.foldl (fun found p => insertRow p.1 p.2 found) []

/-- There is one group for each key, with the rows that have it. -/
structure Gathered (keyed : List (List Cell × Row)) (found : List Group) :
    Prop where
  nodup : (found.map Group.contents).Nodup
  mem_iff : ∀ contents, contents ∈ found.map Group.contents ↔
    contents ∈ keyed.map fun p => p.1.map Cell.content
  rows_eq : ∀ g ∈ found,
    g.rows = (keyed.filter fun p => p.1.map Cell.content = g.contents).map
      Prod.snd

theorem contents_insertRow (key : List Cell) (row : Row) (found : List Group) :
    (insertRow key row found).map Group.contents =
      if key.map Cell.content ∈ found.map Group.contents then
        found.map Group.contents
      else found.map Group.contents ++ [key.map Cell.content] := by
  induction found with
  | nil => simp [insertRow, Group.contents]
  | cons g found ih =>
      rw [insertRow]
      split
      case isTrue h =>
          rw [sameKey_iff] at h
          rw [List.map_cons, if_pos (by simp [Group.contents, h]),
            List.map_cons]
          rfl
      case isFalse h =>
          rw [sameKey_iff] at h
          have hne : key.map Cell.content ≠ g.contents := Ne.symm h
          simp only [List.map_cons, ih, List.mem_cons, hne, false_or]
          split <;> rfl

theorem rows_insertRow {key : List Cell} {row : Row} {found : List Group}
    {g : Group} (hnodup : (found.map Group.contents).Nodup)
    (h : g ∈ insertRow key row found) :
    (g ∈ found ∧ g.contents ≠ key.map Cell.content) ∨
      (∃ g' ∈ found, g'.contents = g.contents ∧
        g.contents = key.map Cell.content ∧ g.rows = g'.rows ++ [row]) ∨
      g.contents ∉ found.map Group.contents ∧
        g.contents = key.map Cell.content ∧ g.rows = [row] := by
  induction found with
  | nil =>
      rw [insertRow, List.mem_singleton] at h
      rw [h]
      exact .inr (.inr ⟨by simp, rfl, rfl⟩)
  | cons first found ih =>
      rw [List.map_cons, List.nodup_cons] at hnodup
      rw [insertRow] at h
      split at h
      case isTrue hkey =>
          rw [sameKey_iff] at hkey
          rcases List.mem_cons.mp h with rfl | hmem
          · exact .inr (.inl ⟨first, List.mem_cons_self, rfl, hkey, rfl⟩)
          · apply Or.inl
            constructor
            · exact List.mem_cons_of_mem first hmem
            · rw [← hkey]
              intro heq
              have hfirst : g.contents ∈ found.map Group.contents :=
                List.mem_map_of_mem hmem
              rw [heq] at hfirst
              exact hnodup.1 hfirst
      case isFalse hkey =>
          rw [sameKey_iff] at hkey
          rcases List.mem_cons.mp h with rfl | hmem
          · exact .inl ⟨List.mem_cons_self, hkey⟩
          · rcases ih hnodup.2 hmem with ⟨hfound, hne⟩ |
              ⟨g', hg', hsame, heq, hrows⟩ |
              ⟨hnew, heq, hrows⟩
            · exact .inl ⟨List.mem_cons_of_mem first hfound, hne⟩
            · exact .inr (.inl ⟨g', List.mem_cons_of_mem first hg',
                hsame, heq, hrows⟩)
            · apply Or.inr
              apply Or.inr
              refine ⟨?_, heq, hrows⟩
              rw [List.map_cons, List.mem_cons, not_or]
              exact ⟨fun hfirst => hkey (hfirst.symm.trans heq), hnew⟩

theorem Gathered.insertRow {keyed : List (List Cell × Row)} {found : List Group}
    (h : Gathered keyed found) (key : List Cell) (row : Row) :
    Gathered (keyed ++ [(key, row)]) (insertRow key row found) := by
  constructor
  case nodup =>
      rw [contents_insertRow]
      split
      case isTrue => exact h.nodup
      case isFalse hnew =>
          exact h.nodup.append (List.nodup_singleton _) (by simpa using hnew)
  case mem_iff =>
      intro contents
      rw [contents_insertRow, List.map_append, List.mem_append, ← h.mem_iff]
      split
      case isTrue hold =>
          constructor
          · exact .inl
          · rintro (hmem | hmem)
            · exact hmem
            · rwa [List.mem_singleton.mp hmem]
      case isFalse => rw [List.mem_append]; rfl
  case rows_eq =>
      intro g hg
      rw [List.filter_append, List.map_append]
      rcases rows_insertRow h.nodup hg with ⟨hfound, hne⟩ |
        ⟨g', hg', hsame, heq, hrows⟩ |
        ⟨hnew, heq, hrows⟩
      · rw [h.rows_eq g hfound]
        simp [Ne.symm hne]
      · rw [hrows, h.rows_eq g' hg', hsame]
        simp [heq]
      · rw [h.mem_iff] at hnew
        have hnone : (keyed.filter fun p => p.1.map Cell.content = g.contents) =
            [] := by
          rw [List.filter_eq_nil_iff]
          intro p hp hcontents
          exact hnew (List.mem_map.mpr ⟨p, hp, of_decide_eq_true hcontents⟩)
        rw [hnone, hrows]
        simp [heq]

theorem gathered_gather (keyed : List (List Cell × Row)) :
    Gathered keyed (gather keyed) := by
  induction keyed using List.reverseRecOn with
  | nil =>
      exact ⟨List.nodup_nil, fun _ => Iff.rfl,
        fun _ hg => absurd hg List.not_mem_nil⟩
  | append_singleton keyed p ih =>
      rw [gather, List.foldl_append]
      exact ih.insertRow p.1 p.2

/-! ## Sorted groups -/

def Group.Match (g g' : Group) : Prop :=
  g.contents = g'.contents ∧ g.rows.Perm g'.rows

variable {keyed keyed' : List (List Cell × Row)} {found found' : List Group}

def Group.places (g : Group) : List Cell.Place := g.key.map Cell.place

theorem Group.map_fst_contents (g : Group) :
    g.contents.map Prod.fst = g.places := by
  rw [contents, List.map_map]
  rfl

theorem Gathered.perm_contents (hperm : keyed.Perm keyed')
    (h : Gathered keyed found) (h' : Gathered keyed' found') :
    (found.map Group.contents).Perm (found'.map Group.contents) := by
  rw [List.perm_ext_iff_of_nodup h.nodup h'.nodup]
  intro contents
  rw [h.mem_iff, h'.mem_iff, (hperm.map _).mem_iff]

/-- Sorted groups come in the order of places, where a place may stand for
several keys. -/
theorem map_places_sortByKey {α : Type} {directions : List α}
    (hlength : ∀ g ∈ found, g.key.length = directions.length) :
    (sortByKey (directions.map fun _ => .asc) Group.key found).map
      Group.places = (found.map Group.places).mergeSort := by
  apply List.map_mergeSort
  intro g hg g' hg'
  rw [Bool.eq_iff_iff, compareKeys_asc (hlength g hg) (hlength g' hg'),
    decide_eq_true_iff]
  rfl

def Distinguished (keyed : List (List Cell × Row)) : Prop :=
  ∀ p ∈ keyed, ∀ q ∈ keyed, p.1.map Cell.place = q.1.map Cell.place →
    p.1.map Cell.content = q.1.map Cell.content

theorem Gathered.match_of_places (hperm : keyed.Perm keyed')
    (h : Gathered keyed found) (h' : Gathered keyed' found')
    (hkeys : Distinguished keyed) {g g' : Group} (hg : g ∈ found)
    (hg' : g' ∈ found') (hplaces : g.places = g'.places) : g.Match g' := by
  have hmem := (h.mem_iff _).mp (List.mem_map_of_mem hg)
  have hmem' := (h'.mem_iff _).mp (List.mem_map_of_mem hg')
  obtain ⟨p, hp, hpcontents⟩ := List.mem_map.mp hmem
  obtain ⟨q, hq, hqcontents⟩ := List.mem_map.mp hmem'
  have hcontents : g.contents = g'.contents := by
    rw [← hpcontents, ← hqcontents]
    apply hkeys p hp q (hperm.mem_iff.mpr hq)
    rw [← g.map_fst_contents, ← g'.map_fst_contents, ← hpcontents, ← hqcontents,
      List.map_map, List.map_map] at hplaces
    exact hplaces
  constructor
  · exact hcontents
  · rw [h.rows_eq g hg, h'.rows_eq g' hg', hcontents]
    exact (hperm.filter _).map Prod.snd

theorem Gathered.forall₂_sortByKey (hperm : keyed.Perm keyed')
    (h : Gathered keyed found) (h' : Gathered keyed' found')
    (hkeys : Distinguished keyed) {α : Type} {directions : List α}
    (hlength : ∀ g ∈ found, g.key.length = directions.length)
    (hlength' : ∀ g ∈ found', g.key.length = directions.length) :
    List.Forall₂ Group.Match
      (sortByKey (directions.map fun _ => .asc) Group.key found)
      (sortByKey (directions.map fun _ => .asc) Group.key found') := by
  have hplaces : (found.map Group.places).Perm (found'.map Group.places) := by
    have hfst := (h.perm_contents hperm h').map (List.map Prod.fst)
    simpa only [List.map_map, Function.comp_def, Group.map_fst_contents]
      using hfst
  -- Both sorts give one list of places, and each place stands for one key.
  have hsorted := map_places_sortByKey hlength
  rw [mergeSort_eq_of_perm hplaces, ← map_places_sortByKey hlength',
    ← List.forall₂_eq_eq_eq, List.forall₂_map_left_iff,
    List.forall₂_map_right_iff] at hsorted
  apply forall₂_imp_of_mem hsorted
  intro g hg g' hg' heq
  exact h.match_of_places hperm h' hkeys (mem_sortByKey.mp hg)
    (mem_sortByKey.mp hg') heq

/-! ## Groups of rows -/

def keyRow (db : Database) (breakouts : List Breakout) (row : Row) :
    Except EvaluationError (List Cell × Row) := do
  return (← db.groupKey breakouts row, row)

variable {db db' : Database} {breakouts : List Breakout} {rows rows' : List Row}

theorem keyRow_eq_ok_iff {row : Row} {p : List Cell × Row} :
    db.keyRow breakouts row = .ok p ↔
      db.groupKey breakouts row = .ok p.1 ∧ row = p.2 := by
  simp only [keyRow, bind_eq_ok_iff, pure_eq_ok_iff, Prod.ext_iff]
  constructor
  · rintro ⟨_, hkey, rfl, hrow⟩
    exact ⟨hkey, hrow⟩
  · rintro ⟨hkey, hrow⟩
    exact ⟨_, hkey, rfl, hrow⟩

theorem groupRows_eq_ok_iff :
    db.groupRows breakouts rows = .ok found ↔
      ∃ keyed, rows.mapM (db.keyRow breakouts) = .ok keyed ∧
      gather keyed = found := by
  have hfold : ∀ start, rows.foldlM
      (fun groups row => do
        return insertRow (← db.groupKey breakouts row) row groups) start =
        .ok found ↔ ∃ keyed, rows.mapM (db.keyRow breakouts) = .ok keyed ∧
          keyed.foldl (fun found p => insertRow p.1 p.2 found) start =
            found := by
    induction rows with
    | nil => simp [pure, Except.pure]
    | cons row rows ih =>
        intro start
        simp only [List.foldlM_cons, List.mapM_cons, bind_eq_ok_iff,
          pure_eq_ok_iff, keyRow]
        constructor
        · rintro ⟨_, ⟨key, hkey, rfl⟩, hrest⟩
          obtain ⟨keyed, hkeyed, hfound⟩ := (ih _).mp hrest
          exact ⟨_, ⟨_, ⟨key, hkey, rfl⟩, keyed, hkeyed, rfl⟩, hfound⟩
        · rintro ⟨_, ⟨_, ⟨key, hkey, rfl⟩, keyed, hkeyed, rfl⟩, hfound⟩
          exact ⟨_, ⟨key, hkey, rfl⟩, (ih _).mpr ⟨keyed, hkeyed, hfound⟩⟩
  exact hfold []

/-- No row gives a string where another one gives a temporal cell. -/
def Unmixed (cell : Row → Except EvaluationError Cell)
    (rows : List Row) : Prop :=
  ∀ row ∈ rows, ∀ row' ∈ rows, ∀ s t,
    ¬(cell row = .ok (.string s) ∧ cell row' = .ok (.temporal t))

theorem Unmixed.content_eq {cell : Row → Except EvaluationError Cell}
    (h : Unmixed cell rows) {row row' : Row} (hrow : row ∈ rows)
    (hrow' : row' ∈ rows) {c c' : Cell} (hc : cell row = .ok c)
    (hc' : cell row' = .ok c') (hplace : c.place = c'.place) :
    c.content = c'.content := by
  apply Cell.content_eq_of_place hplace
  · rintro s t ⟨rfl, rfl⟩
    exact h row hrow row' hrow' s t ⟨hc, hc'⟩
  · rintro s t ⟨rfl, rfl⟩
    exact h row' hrow' row hrow s t ⟨hc', hc⟩

theorem contents_eq_of_places
    (hunmixed : ∀ b ∈ breakouts, Unmixed (db.breakoutCell · b) rows)
    {row row' : Row} (hrow : row ∈ rows) (hrow' : row' ∈ rows)
    {key key' : List Cell} (hkey : db.groupKey breakouts row = .ok key)
    (hkey' : db.groupKey breakouts row' = .ok key')
    (hplaces : key.map Cell.place = key'.map Cell.place) :
    key.map Cell.content = key'.map Cell.content := by
  rw [groupKey, mapM_eq_ok_iff] at hkey hkey'
  induction hkey generalizing key' with
  | nil =>
      cases hkey'
      rfl
  | cons hc _ ih =>
      cases hkey' with
      | cons hc' hkey' =>
          obtain ⟨hunmixed, hrest⟩ := List.forall_mem_cons.mp hunmixed
          obtain ⟨hplace, hplaces⟩ := List.cons_eq_cons.mp hplaces
          rw [List.map_cons, List.map_cons,
            hunmixed.content_eq hrow hrow' hc hc' hplace,
            ih hrest hkey' hplaces]

theorem distinguished_of_unmixed
    (hunmixed : ∀ b ∈ breakouts, Unmixed (db.breakoutCell · b) rows)
    (hkeyed : rows.mapM (db.keyRow breakouts) = .ok keyed) :
    Distinguished keyed := by
  intro p hp q hq hplaces
  obtain ⟨row, hrow, hp⟩ := exists_of_mem_mapM hkeyed hp
  obtain ⟨row', hrow', hq⟩ := exists_of_mem_mapM hkeyed hq
  have hkey := (keyRow_eq_ok_iff.mp hp).1
  have hkey' := (keyRow_eq_ok_iff.mp hq).1
  exact contents_eq_of_places hunmixed hrow hrow' hkey hkey' hplaces

theorem keyRow_congr (hvalue : db.value = db'.value)
    (breakouts : List Breakout) :
    db.keyRow breakouts = db'.keyRow breakouts := by
  have hcell : db.breakoutCell = db'.breakoutCell := by
    funext row b
    rw [breakoutCell, breakoutCell, hvalue]
  funext row
  rw [keyRow, keyRow, groupKey, groupKey, hcell]

/-- The groups do not depend on the order of the rows. -/
theorem groups_perm (hvalue : db.value = db'.value) (h : rows.Perm rows')
    (hunmixed : ∀ b ∈ breakouts, Unmixed (db.breakoutCell · b) rows) :
    Agree (List.Forall₂ Group.Match) (db.groups breakouts rows)
      (db'.groups breakouts rows') := by
  have hkeyed := Agree.mapM_perm h (db.keyRow breakouts)
  have hkeyRow := keyRow_congr hvalue breakouts
  apply Agree.of_imp
  · intro out hout
    obtain ⟨_, hgrouped, rfl⟩ := groups_eq_ok_iff.mp hout
    obtain ⟨keyed, hk, rfl⟩ := groupRows_eq_ok_iff.mp hgrouped
    obtain ⟨keyed', hk', hperm⟩ := hkeyed.exists_right hk
    have hdistinguished := distinguished_of_unmixed hunmixed hk
    rw [hkeyRow] at hk'
    have hgrouped' := groupRows_eq_ok_iff.mpr ⟨keyed', hk', rfl⟩
    refine ⟨_, groups_eq_ok_iff.mpr ⟨_, hgrouped', rfl⟩, ?_⟩
    have hgathered := gathered_gather keyed
    have hgathered' := gathered_gather keyed'
    have hempty : (gather keyed).isEmpty = (gather keyed').isEmpty := by
      simpa using (hgathered.perm_contents hperm hgathered').isEmpty_eq
    rw [hempty]
    split
    case isTrue =>
        apply List.forall₂_same.mpr
        exact fun g _ => ⟨rfl, .refl _⟩
    case isFalse =>
        exact hgathered.forall₂_sortByKey hperm hgathered' hdistinguished
          (fun _ => length_key_groupRows hgrouped) fun _ =>
          length_key_groupRows hgrouped'
  · intro out hout
    obtain ⟨_, hgrouped, rfl⟩ := groups_eq_ok_iff.mp hout
    obtain ⟨keyed', hk', rfl⟩ := groupRows_eq_ok_iff.mp hgrouped
    rw [← hkeyRow] at hk'
    obtain ⟨keyed, hk, -⟩ := hkeyed.exists_left hk'
    exact ⟨_, groups_eq_ok_iff.mpr ⟨_,
      groupRows_eq_ok_iff.mpr ⟨keyed, hk, rfl⟩, rfl⟩⟩

end Database

end TableQuery
