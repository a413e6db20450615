import TableQuery.Proofs.Evaluation.Groups
import TableQuery.Proofs.Evaluation.Renumbering

/-!
# Results of rearranged aggregations

A stage whose aggregations are some of those of another one, with their
references renumbered, gives the same rows with the columns rearranged in the
same way.
-/

namespace TableQuery

/-! ## Rearranged stages -/

/-- The aggregations of `new` are some of those of `old`: the one at `k` stood
at `source k`, and what stood at `i` is now at `target i`.  References and sorts
follow. -/
structure Stage.Rearranged (source target : Nat → Nat) (old new : Stage) :
    Prop where
  customColumns : new.customColumns = old.customColumns
  filters : new.filters = old.filters
  breakouts : new.breakouts = old.breakouts
  limit : new.limit = old.limit
  aggregation : ∀ k : Nat,
    new.aggregations[k]? =
      old.aggregations[source k]?.map (Aggregation.renumber target)
  orderBy : new.orderBy =
    old.orderBy.map (OrderBy.mapTarget (OrderTarget.mapAggregation target))
  reference : ∀ (k : Nat) (a : Aggregation),
    old.aggregations[source k]? = some a →
    ∀ i ∈ a.expression.aggregationRefs, source (target i) = i
  sort : ∀ o ∈ old.orderBy, ∀ i, o.target = .aggregation i →
    source (target i) = i

/-- A rearrangement between stages whose aggregations read only what stands
before them, and whose sorts look at breakouts and aggregations that are
there. -/
structure Stage.Reindexes (source target : Nat → Nat) (old new : Stage) : Prop
    extends Stage.Rearranged source target old new where
  reference_lt : ∀ (k : Nat) (a : Aggregation), new.aggregations[k]? = some a →
    ∀ i ∈ a.expression.aggregationRefs, i < k
  sort_breakout : ∀ o ∈ old.orderBy, ∀ i, o.target = .breakout i →
    i < old.breakouts.length
  sort_column : ∀ o ∈ old.orderBy, ∀ id, o.target ≠ .column id

def columnSource (breakouts : Nat) (source : Nat → Nat) (c : Nat) : Nat :=
  if c < breakouts then c else breakouts + source (c - breakouts)

/-- A rearrangement of the columns of rows that have a given width. -/
def Rearranges (F : List Cell → List Cell) (width : Nat)
    (τ : Nat → Nat) : Prop :=
  ∀ row, row.length = width → ∀ c, (F row)[c]? = row[τ c]?

theorem isCumulative_renumber (f : Nat → Nat) (e : Expression) :
    Database.isCumulative (e.renumber f) = Database.isCumulative e := by
  cases e with
  | call function args => rw [Expression.renumber_call]; cases function <;> rfl
  | _ => rfl

private theorem length_eq_of_getElem? {α β : Type} {xs : List α} {ys : List β}
    (h : ∀ k : Nat, xs[k]? = none ↔ ys[k]? = none) : xs.length = ys.length := by
  simp only [List.getElem?_eq_none_iff] at h
  have hxs := h xs.length
  have hys := h ys.length
  omega

namespace Stage.Reindexes

variable {db : Database} {source target : Nat → Nat} {old new : Stage}
  {F : List Cell → List Cell}

theorem cumulativeAt (h : Reindexes source target old new) (c : Nat) :
    Database.cumulativeAt new.breakouts.length new.aggregations c =
      Database.cumulativeAt old.breakouts.length old.aggregations
        (columnSource old.breakouts.length source c) := by
  rw [h.breakouts]
  by_cases hc : c < old.breakouts.length
  · rw [columnSource, if_pos hc, Database.cumulativeAt_of_lt hc,
      Database.cumulativeAt_of_lt hc]
  · have hle : old.breakouts.length ≤ c := by omega
    simp only [Database.cumulativeAt, columnSource, if_neg hc,
      h.aggregation, hle, Nat.le_add_right, Nat.add_sub_cancel_left]
    cases old.aggregations[source (c - old.breakouts.length)]? with
    | none => rfl
    | some a => simp [Aggregation.renumber, isCumulative_renumber]

theorem aggregations (h : Reindexes source target old new)
    (hF : Rearranges F (old.breakouts.length + old.aggregations.length)
      (columnSource old.breakouts.length source))
    {rows : List Row} {key values : List Cell}
    (hkey : key.length = old.breakouts.length)
    (hvalues : db.aggregations rows [] old.aggregations = .ok values) :
    ∃ values', db.aggregations rows [] new.aggregations = .ok values' ∧
      key ++ values' = F (key ++ values) := by
  obtain ⟨cells, hcells, hlength, hvalue⟩ :=
    Database.aggregations_eq_ok_iff.mp hvalues
  rw [List.nil_append] at hcells
  subst hcells
  have hrow := hF (key ++ values) (by rw [List.length_append, hkey, hlength])
  have hsource : ∀ k, ((F (key ++ values)).drop key.length)[k]? =
      values[source k]? := by
    intro k
    rw [List.getElem?_drop, hrow, columnSource, if_neg (by omega), hkey,
      Nat.add_sub_cancel_left, List.getElem?_append_right (by omega), hkey,
      Nat.add_sub_cancel_left]
  refine ⟨(F (key ++ values)).drop key.length, ?_, ?_⟩
  · refine Database.aggregations_eq_ok_iff.mpr ⟨_, rfl, ?_, fun k a' ha' => ?_⟩
    · refine length_eq_of_getElem? fun k => ?_
      rw [hsource, h.aggregation, Option.map_eq_none_iff]
      simp [hlength]
    · rw [h.aggregation, Option.map_eq_some_iff] at ha'
      obtain ⟨a, ha, rfl⟩ := ha'
      obtain ⟨cell, hcell, heval⟩ := hvalue _ a ha
      refine ⟨cell, by rw [hsource, hcell], ?_⟩
      refine db.evalGroup_renumber rows (fun i hi cell hcell => ?_) cell heval
      have hback := h.reference k a ha i hi
      have hlt : target i < k := by
        refine h.reference_lt k (a.renumber target)
          (by rw [h.aggregation, ha]; rfl) _ ?_
        exact (Expression.aggregationRefs_renumber target a.expression).symm ▸
          List.mem_map_of_mem hi
      simp only [List.nil_append, List.getElem?_take, hlt, if_true,
        hsource, hback]
      rw [List.nil_append, List.getElem?_take] at hcell
      split at hcell
      case isTrue => exact hcell
      case isFalse => cases hcell
  · refine List.ext_getElem? fun c => ?_
    by_cases hc : c < key.length
    · rw [List.getElem?_append_left hc, hrow, columnSource, if_pos (by omega),
        List.getElem?_append_left hc]
    · rw [List.getElem?_append_right (by omega), List.getElem?_drop]
      congr 1
      omega

theorem orderColumn (h : Reindexes source target old new) {o : OrderBy}
    (ho : o ∈ old.orderBy) {c : Nat}
    (hc : Database.orderColumn old.breakouts o = .ok c) :
    ∃ c', Database.orderColumn new.breakouts
        (o.mapTarget (OrderTarget.mapAggregation target)) = .ok c' ∧
      columnSource old.breakouts.length source c' = c := by
  rw [h.breakouts]
  cases htarget : o.target with
  | aggregation i =>
      simp only [Database.orderColumn, htarget, Except.ok.injEq] at hc
      refine ⟨old.breakouts.length + target i, ?_, ?_⟩
      · simp [Database.orderColumn, OrderBy.mapTarget,
          OrderTarget.mapAggregation, htarget]
      · rw [columnSource, if_neg (by omega), Nat.add_sub_cancel_left,
          h.sort o ho i htarget, hc]
  | breakout i =>
      simp only [Database.orderColumn, htarget, Except.ok.injEq] at hc
      refine ⟨i, ?_, ?_⟩
      · simp [Database.orderColumn, OrderBy.mapTarget,
          OrderTarget.mapAggregation, htarget]
      · rw [columnSource, if_pos (h.sort_breakout o ho i htarget), hc]
  | column id => exact absurd htarget (h.sort_column o ho id)

theorem summarize (h : Reindexes source target old new)
    (hF : Rearranges F (old.breakouts.length + old.aggregations.length)
      (columnSource old.breakouts.length source))
    {columns columns' : Except CatalogError (List Entry)} {rows : List Row}
    {r : ResultSet}
    (hcolumns : ∃ entries, columns' = .ok entries)
    (hr : db.summarize columns old rows = .ok r) :
    ∃ r', db.summarize columns' new rows = .ok r' ∧ r'.rows = r.rows.map F := by
  obtain ⟨found, hfound, computed, hcomputed, totalled, htotalled, sorted,
      hsorted, _, -, rfl⟩ :=
    Database.summarize_eq_ok_iff.mp hr
  obtain ⟨entries, rfl⟩ := hcolumns
  have hkeys : ∀ g ∈ found, g.key.length = old.breakouts.length :=
    fun g hg => Database.length_key hfound hg
  have hwidth := Database.length_groupRow hkeys hcomputed
  have hcells : ∀ row ∈ computed, ∀ c,
      (F row)[c]? = row[columnSource old.breakouts.length source c]? :=
    fun row hrow => hF row (hwidth row hrow)
  have hcells' : ∀ row ∈ totalled, ∀ c,
      (F row)[c]? = row[columnSource old.breakouts.length source c]? :=
    fun row hrow =>
      hF row (Database.length_of_mem_accumulateAll htotalled hwidth row hrow)
  refine ⟨.ofEntries entries (sorted.map F), Database.summarize_eq_ok_iff.mpr
    ⟨found, by rw [h.breakouts, hfound], computed.map F, ?_, totalled.map F, ?_,
      sorted.map F, ?_, entries, rfl, rfl⟩, rfl⟩
  · rw [List.forall₂_map_right_iff]
    refine ((List.forall₂_and_left _ _).mpr ⟨hkeys, hcomputed⟩).imp ?_
    rintro g row ⟨hkey, values, hvalues, rfl⟩
    exact h.aggregations hF hkey hvalues
  · refine Database.accumulateAll_map (fun c => ?_) hcells hcells'
      (h.breakouts ▸ htotalled)
    rw [h.cumulativeAt, h.breakouts]
  · rw [h.orderBy, List.isEmpty_map]
    split at hsorted
    case isTrue hempty =>
        cases hsorted
        rw [if_pos hempty]
        rfl
    case isFalse hempty =>
        rw [if_neg hempty]
        exact Database.sortGroups_map (fun o ho c => h.orderColumn ho)
          hcells' hsorted

theorem runStage (h : Reindexes source target old new)
    (hF : Rearranges F (old.breakouts.length + old.aggregations.length)
      (columnSource old.breakouts.length source))
    (hold : old.isSummarized) (hnew : new.isSummarized)
    {columns columns' : Except CatalogError (List Entry)} {rows : List Row}
    {r : ResultSet}
    (hcolumns : ∃ entries, columns' = .ok entries)
    (hr : db.runStage columns old rows = .ok r) :
    ∃ r', db.runStage columns' new rows = .ok r' ∧ r'.rows = r.rows.map F := by
  obtain ⟨prepared, hprepared, result, hresult, rfl⟩ :=
    (Database.runStage_eq_ok_iff hold).mp hr
  obtain ⟨result', hresult', hrows⟩ := h.summarize hF hcolumns hresult
  refine ⟨_, (Database.runStage_eq_ok_iff hnew).mpr
    ⟨prepared,
      by rw [Database.prepare_congr h.customColumns h.filters, hprepared],
      result', hresult', rfl⟩, ?_⟩
  cases hlimit : old.limit with
  | none => simp [h.limit, hlimit, hrows]
  | some n => simp [h.limit, hlimit, hrows, List.map_take]

end Stage.Reindexes

end TableQuery
