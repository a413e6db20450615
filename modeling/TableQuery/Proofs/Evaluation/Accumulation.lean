import TableQuery.Evaluation.Query
import TableQuery.Proofs.Except

/-!
# Cumulative columns

Accumulating a table of cells treats each of its columns apart: a cumulative one
turns into its running totals, and the others stay.  So the order of the columns
does not matter.
-/

namespace TableQuery.Database

/-! ## Columns -/

def column (c : Nat) (rows : List (List Cell)) : List (Option Cell) :=
  rows.map (·[c]?)

theorem eq_of_column_eq {rows out : List (List Cell)}
    (hlength : out.length = rows.length)
    (h : ∀ c, column c out = column c rows) : out = rows := by
  refine List.ext_getElem hlength fun r hout hrows =>
    List.ext_getElem? fun c => ?_
  have hcell := congrArg (·[r]?) (h c)
  simpa [column, hout, hrows] using hcell

theorem column_map {F : List Cell → List Cell} {τ : Nat → Nat}
    {rows : List (List Cell)} (h : ∀ row ∈ rows, ∀ c, (F row)[c]? = row[τ c]?)
    (c : Nat) : column c (rows.map F) = column (τ c) rows := by
  rw [column, List.map_map]
  exact List.map_congr_left fun row hrow => h row hrow c

/-! ## Running totals -/

def addToTotal (total : Decimal) : Cell → Except EvaluationError Decimal
  | .number n => Computation.runningTotal.checked (total.add? n)
  | _ => .ok total

def runningTotals : (total : Decimal) → List (Option Cell) →
    Except EvaluationError (List Decimal)
  | _, [] => .ok []
  | _, none :: _ => .error (.aborted .missingColumn)
  | total, some cell :: cells => do
    let total ← addToTotal total cell
    return total :: (← runningTotals total cells)

def Accumulates (cumulative : Bool) (before after : List (Option Cell)) :
    Prop :=
  if cumulative then
    ∃ totals, runningTotals .zero before = .ok totals ∧
      after = totals.map fun total => some (.number total)
  else after = before

theorem runningTotals_cons_eq_ok_iff {total : Decimal} {x : Option Cell}
    {cells : List (Option Cell)} {totals : List Decimal} :
    runningTotals total (x :: cells) = .ok totals ↔
      ∃ cell t rest, x = some cell ∧ addToTotal total cell = .ok t ∧
        runningTotals t cells = .ok rest ∧ totals = t :: rest := by
  cases x with
  | none => simp [runningTotals]
  | some cell =>
      simp [runningTotals, bind_eq_ok_iff, map_eq_ok_iff, @eq_comm _ totals]

theorem accumulate_cons_eq_ok_iff {c : Nat} {total : Decimal} {row : List Cell}
    {rows out : List (List Cell)} :
    accumulate c total (row :: rows) = .ok out ↔
      ∃ cell t rest, row[c]? = some cell ∧ addToTotal total cell = .ok t ∧
        accumulate c t rows = .ok rest ∧
        out = row.set c (.number t) :: rest := by
  rw [accumulate]
  cases row[c]? with
  | none => simp
  | some cell =>
      cases cell <;> simp [addToTotal, bind_eq_ok_iff, map_eq_ok_iff,
        @eq_comm _ out]

/-- Accumulating a column changes that column alone. -/
theorem accumulate_eq_ok_iff {c : Nat} {total : Decimal}
    {rows out : List (List Cell)} :
    accumulate c total rows = .ok out ↔
      out.length = rows.length ∧
        (∀ c', c' ≠ c → column c' out = column c' rows) ∧ ∃ totals,
        runningTotals total (column c rows) = .ok totals ∧
          column c out = totals.map fun total => some (.number total) := by
  induction rows generalizing total out with
  | nil =>
      constructor
      · intro h
        cases h
        exact ⟨rfl, fun _ _ => rfl, [], rfl, rfl⟩
      · rintro ⟨hlength, -⟩
        rw [List.length_eq_zero_iff.mp hlength]
        rfl
  | cons row rows ih =>
      rw [accumulate_cons_eq_ok_iff]
      constructor
      · rintro ⟨cell, t, rest, hcell, htotal, hrest, rfl⟩
        obtain ⟨hlength, hothers, totals, htotals, hcolumn⟩ := ih.mp hrest
        have hc := (List.getElem?_eq_some_iff.mp hcell).1
        refine ⟨by simp [hlength], fun c' hc' => ?_, t :: totals, ?_, ?_⟩
        · exact congrArg₂ List.cons (List.getElem?_set_ne hc'.symm)
            (hothers c' hc')
        · exact runningTotals_cons_eq_ok_iff.mpr ⟨cell, t, totals, hcell,
            htotal, htotals, rfl⟩
        · exact congrArg₂ List.cons (List.getElem?_set_self hc) hcolumn
      · rintro ⟨hlength, hothers, totals, htotals, hcolumn⟩
        obtain ⟨cell, t, rest, hcell, htotal, hrest, rfl⟩ :=
          runningTotals_cons_eq_ok_iff.mp htotals
        obtain ⟨row', out, rfl⟩ := List.exists_cons_of_length_eq_add_one hlength
        have hhead : row'[c]? = some (.number t) := (List.cons.inj hcolumn).1
        have htail := (List.cons.inj hcolumn).2
        refine ⟨cell, t, out, hcell, htotal,
          ih.mpr ⟨by simpa using hlength, fun c' hc' => ?_, rest,
          hrest, htail⟩, ?_⟩
        · exact (List.cons.inj (hothers c' hc')).2
        · refine congrArg (· :: out) (List.ext_getElem? fun c' => ?_)
          have hc := (List.getElem?_eq_some_iff.mp hcell).1
          by_cases hc' : c' = c
          · rw [hc', hhead, List.getElem?_set_self hc]
          · rw [List.getElem?_set_ne (Ne.symm hc')]
            exact (List.cons.inj (hothers c' hc')).1

theorem exists_accumulate_eq_ok {c : Nat} {total : Decimal}
    {rows : List (List Cell)} {totals : List Decimal}
    (h : runningTotals total (column c rows) = .ok totals) :
    ∃ out, accumulate c total rows = .ok out := by
  induction rows generalizing total totals with
  | nil => exact ⟨[], rfl⟩
  | cons row rows ih =>
      obtain ⟨cell, t, rest, hcell, htotal, hrest, -⟩ :=
        runningTotals_cons_eq_ok_iff.mp h
      obtain ⟨out, hout⟩ := ih hrest
      exact ⟨_, accumulate_cons_eq_ok_iff.mpr ⟨cell, t, out, hcell, htotal,
        hout, rfl⟩⟩

theorem length_of_mem_accumulate {c width : Nat} {total : Decimal}
    {rows out : List (List Cell)} (h : accumulate c total rows = .ok out)
    (hrows : ∀ row ∈ rows, row.length = width) :
    ∀ row ∈ out, row.length = width := by
  induction rows generalizing total out with
  | nil =>
      cases h
      exact hrows
  | cons row rows ih =>
      obtain ⟨cell, t, rest, -, -, hrest, rfl⟩ := accumulate_cons_eq_ok_iff.mp h
      obtain ⟨hrow, hrows⟩ := List.forall_mem_cons.mp hrows
      exact List.forall_mem_cons.mpr ⟨by rw [List.length_set, hrow],
        ih hrest hrows⟩

/-! ## All cumulative columns -/

def cumulativeAt (first : Nat) (aggregations : List Aggregation)
    (c : Nat) : Bool :=
  decide (first ≤ c) && aggregations[c - first]?.any (isCumulative ·.expression)

theorem cumulativeAt_cons (first : Nat) (a : Aggregation)
    (rest : List Aggregation) (c : Nat) :
    cumulativeAt first (a :: rest) c =
      if c = first then isCumulative a.expression
      else cumulativeAt (first + 1) rest c := by
  unfold cumulativeAt
  by_cases hc : c = first
  · simp [hc]
  · by_cases hle : first + 1 ≤ c
    · have hsub : c - first = (c - (first + 1)) + 1 := by omega
      have hle' : first ≤ c := by omega
      simp [hc, hle, hle', hsub]
    · have hlt : ¬ first ≤ c := by omega
      simp [hc, hle, hlt]

theorem cumulativeAt_of_lt {first c : Nat} (h : c < first)
    (aggregations : List Aggregation) :
    cumulativeAt first aggregations c = false := by
  simp [cumulativeAt, Nat.not_le.mpr h]

private theorem accumulateIf_eq_ok_iff {cumulative : Bool} {c : Nat}
    {rows out : List (List Cell)} :
    (if cumulative then accumulate c .zero rows else pure rows) = .ok out ↔
      out.length = rows.length ∧
        (∀ c', c' ≠ c → column c' out = column c' rows) ∧
        Accumulates cumulative (column c rows) (column c out) := by
  cases cumulative with
  | true => simpa [Accumulates] using accumulate_eq_ok_iff
  | false =>
      simp only [Accumulates, Bool.false_eq_true, if_false, pure_eq_ok_iff]
      constructor
      · rintro rfl
        exact ⟨rfl, fun _ _ => rfl, rfl⟩
      · rintro ⟨hlength, hothers, hcolumn⟩
        refine (eq_of_column_eq hlength fun c' => ?_).symm
        by_cases hc' : c' = c
        · rw [hc', hcolumn]
        · exact hothers c' hc'

theorem Accumulates.unique {cumulative : Bool}
    {before after after' : List (Option Cell)}
    (h : Accumulates cumulative before after)
    (h' : Accumulates cumulative before after') : after = after' := by
  cases cumulative with
  | true =>
      obtain ⟨totals, htotals, rfl⟩ := h
      obtain ⟨totals', htotals', rfl⟩ := h'
      cases htotals.symm.trans htotals'
      rfl
  | false => exact Eq.trans h (Eq.symm h')

private theorem exists_accumulateIf (cumulative : Bool) {c : Nat}
    {rows : List (List Cell)} {after : List (Option Cell)}
    (h : Accumulates cumulative (column c rows) after) :
    ∃ out, out.length = rows.length ∧
      (∀ c', c' ≠ c → column c' out = column c' rows) ∧
      Accumulates cumulative (column c rows) (column c out) := by
  cases cumulative with
  | true =>
      obtain ⟨totals, htotals, -⟩ := h
      obtain ⟨out, hout⟩ := exists_accumulate_eq_ok htotals
      exact ⟨out, (@accumulateIf_eq_ok_iff true c rows out).mp hout⟩
  | false => exact ⟨rows, rfl, fun _ _ => rfl, rfl⟩

theorem accumulateAll_cons (first : Nat) (a : Aggregation)
    (rest : List Aggregation) (rows : List (List Cell)) :
    accumulateAll first (a :: rest) rows =
      (if isCumulative a.expression then accumulate first .zero rows else
        pure rows) >>=
        accumulateAll (first + 1) rest := by
  rw [accumulateAll]
  split <;> rfl

theorem accumulateAll_eq_ok_iff {first : Nat} {aggregations : List Aggregation}
    {rows out : List (List Cell)} :
    accumulateAll first aggregations rows = .ok out ↔
      out.length = rows.length ∧
        ∀ c, Accumulates (cumulativeAt first aggregations c) (column c rows)
          (column c out) := by
  induction aggregations generalizing first rows with
  | nil =>
      simp only [accumulateAll, cumulativeAt, List.getElem?_nil,
        Option.any_none, Bool.and_false, Accumulates, Except.ok.injEq]
      constructor
      · rintro rfl
        exact ⟨rfl, fun _ => rfl⟩
      · rintro ⟨hlength, h⟩
        exact (eq_of_column_eq hlength h).symm
  | cons a rest ih =>
      have hfirst : cumulativeAt (first + 1) rest first = false :=
        cumulativeAt_of_lt (Nat.lt_succ_self first) rest
      simp only [accumulateAll_cons, bind_eq_ok_iff, accumulateIf_eq_ok_iff, ih,
        cumulativeAt_cons]
      constructor
      · rintro ⟨mid, ⟨hlength, hothers, hcolumn⟩, hlength', hrest⟩
        refine ⟨hlength'.trans hlength, fun c => ?_⟩
        have hc := hrest c
        split
        case isTrue h =>
            rw [h, hfirst] at hc
            simp only [Accumulates, Bool.false_eq_true, if_false] at hc
            rwa [h, hc]
        case isFalse h => rwa [hothers c h] at hc
      · rintro ⟨hlength, h⟩
        obtain ⟨mid, hlength', hothers, hcolumn⟩ :=
          exists_accumulateIf _ (by simpa using h first)
        refine ⟨mid, ⟨hlength', hothers, hcolumn⟩, hlength.trans hlength'.symm,
          fun c => ?_⟩
        have hc := h c
        split at hc
        case isTrue heq =>
            rw [heq, hfirst, Accumulates, if_neg Bool.false_ne_true]
            rw [heq] at hc
            exact hc.unique hcolumn
        case isFalse hne => rwa [hothers c hne]

theorem length_of_mem_accumulateAll {first width : Nat}
    {aggregations : List Aggregation} {rows out : List (List Cell)}
    (h : accumulateAll first aggregations rows = .ok out)
    (hrows : ∀ row ∈ rows, row.length = width) :
    ∀ row ∈ out, row.length = width := by
  induction aggregations generalizing first rows with
  | nil =>
      cases h
      exact hrows
  | cons a rest ih =>
      rw [accumulateAll_cons, bind_eq_ok_iff] at h
      obtain ⟨mid, hmid, hout⟩ := h
      refine ih hout ?_
      split at hmid
      case isTrue => exact length_of_mem_accumulate hmid hrows
      case isFalse =>
          cases hmid
          exact hrows

/-- Rearranged columns are accumulated as they were, if each stays cumulative or
not. -/
theorem accumulateAll_map {first : Nat} {old new : List Aggregation}
    {rows out : List (List Cell)} {F : List Cell → List Cell} {τ : Nat → Nat}
    (hcumulative : ∀ c, cumulativeAt first new c = cumulativeAt first old (τ c))
    (hrows : ∀ row ∈ rows, ∀ c, (F row)[c]? = row[τ c]?)
    (hout : ∀ row ∈ out, ∀ c, (F row)[c]? = row[τ c]?)
    (h : accumulateAll first old rows = .ok out) :
    accumulateAll first new (rows.map F) = .ok (out.map F) := by
  obtain ⟨hlength, hcolumns⟩ := accumulateAll_eq_ok_iff.mp h
  refine accumulateAll_eq_ok_iff.mpr ⟨by simpa using hlength, fun c => ?_⟩
  rw [column_map hrows, column_map hout, hcumulative]
  exact hcolumns (τ c)

end TableQuery.Database
