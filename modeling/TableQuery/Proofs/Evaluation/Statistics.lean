import TableQuery.Proofs.Evaluation.Contents

/-!
# Statistics in any order

Counts, extrema and percentiles of a group do not depend on the order of its
cells.  Sums do not either as long as each addition is exact, and neither do
means and variances then, although they round.
-/

namespace TableQuery

/-! ## Extrema -/

namespace Database

def improve (f : Function) (better : Ordering → Bool) (best cell : Cell) :
    Except EvaluationError Cell :=
  if cell.isNull then .ok best
  else if best.isNull then .ok cell
  else
    match cell.compare? best with
    | none => .error (.fault (.extremumNotComparable f))
    | some order => .ok (if better order then cell else best)

theorem extremum_eq_foldlM (f : Function) (better : Ordering → Bool)
    (best : Cell) (cells : List Cell) :
    extremum f better best cells = cells.foldlM (improve f better) best := by
  induction cells generalizing best with
  | nil => rfl
  | cons cell cells ih =>
      rw [extremum, List.foldlM_cons, improve, ih, ih]
      split
      case isTrue => rfl
      case isFalse =>
          split
          case isTrue => rfl
          case isFalse =>
              cases cell.compare? best with
              | none => rfl
              | some order => exact ih _

def pick (better : Ordering → Bool) (p q : Cell.Place) : Cell.Place :=
  if better (Cell.comparePlaces q p) then q else p

theorem pick_isLT (p q : Cell.Place) : pick Ordering.isLT p q = min p q := by
  unfold pick
  rcases lt_trichotomy q p with h | rfl | h
  · rw [Cell.comparePlaces_eq_lt_iff.mpr h, min_eq_right h.le]
    rfl
  · simp
  · rw [Cell.comparePlaces_eq_gt_iff.mpr h, min_eq_left h.le]
    rfl

theorem pick_isGT (p q : Cell.Place) : pick Ordering.isGT p q = max p q := by
  unfold pick
  rcases lt_trichotomy q p with h | rfl | h
  · rw [Cell.comparePlaces_eq_lt_iff.mpr h, max_eq_left h.le]
    rfl
  · simp
  · rw [Cell.comparePlaces_eq_gt_iff.mpr h, max_eq_right h.le]
    rfl

variable {f : Function} {better : Ordering → Bool}

theorem improve_of_rank_eq {best cell : Cell} (hnull : cell.isNull = false)
    (hrank : cell.rank = best.rank) :
    ∃ next, improve f better best cell = .ok next ∧ next.rank = best.rank ∧
      next.place = pick better best.place cell.place := by
  have hbest : best.isNull = false := by
    rw [← Cell.isNull_eq_of_rank hrank, hnull]
  rw [improve, Cell.compare?_eq]
  simp only [hnull, hbest, hrank, Bool.false_eq_true, if_false, true_and,
    if_true, pick]
  split
  case isTrue => exact ⟨cell, rfl, hrank, rfl⟩
  case isFalse => exact ⟨best, rfl, rfl, rfl⟩

theorem improve_of_rank_ne {best cell : Cell} (hnull : cell.isNull = false)
    (hbest : best.isNull = false) (hrank : cell.rank ≠ best.rank) :
    improve f better best cell =
      .error (.fault (.extremumNotComparable f)) := by
  rw [improve, Cell.compare?_eq]
  simp [hnull, hbest, hrank]

theorem improve_congr {best best' : Cell} (h : best.place = best'.place)
    (cell : Cell) :
    Agree (fun a b => a.place = b.place) (improve f better best cell)
      (improve f better best' cell) := by
  have hrank := Cell.rank_eq_of_place h
  unfold improve
  rw [Cell.compare?_eq, Cell.compare?_eq, Cell.isNull_eq_of_rank hrank,
    hrank, h]
  split
  case isTrue => exact .ok h
  case isFalse =>
      split
      case isTrue => exact .ok rfl
      case isFalse =>
          split
          case h_1 => exact .error _ _
          case h_2 order _ =>
              apply Agree.ok
              split
              case isTrue => rfl
              case isFalse => exact h

theorem pick_comm (h : better = Ordering.isLT ∨ better = Ordering.isGT)
    (p q : Cell.Place) : pick better p q = pick better q p := by
  rcases h with rfl | rfl
  · rw [pick_isLT, pick_isLT, min_comm]
  · rw [pick_isGT, pick_isGT, max_comm]

theorem pick_right_comm (h : better = Ordering.isLT ∨ better = Ordering.isGT)
    (p q r : Cell.Place) :
    pick better (pick better p q) r = pick better (pick better p r) q := by
  rcases h with rfl | rfl
  · simp only [pick_isLT, min_right_comm]
  · simp only [pick_isGT, max_right_comm]

theorem improve_of_isNull {cell : Cell} (h : cell.isNull = true) (best : Cell) :
    improve f better best cell = pure best := if_pos h

private theorem improve_swap_of_isNull
    (hbetter : better = Ordering.isLT ∨ better = Ordering.isGT)
    {best a b : Cell} (hbest : best.isNull = true) (ha : a.isNull = false)
    (hb : b.isNull = false) :
    Agree (fun a b => a.place = b.place) (improve f better best a >>=
        (improve f better · b))
      (improve f better best b >>= (improve f better · a)) := by
  have hfirst : ∀ cell : Cell, cell.isNull = false →
      improve f better best cell = pure cell := by
    intro cell hcell
    simp [improve, hcell, hbest, pure, Except.pure]
  rw [hfirst a ha, hfirst b hb, pure_bind, pure_bind]
  by_cases hrank : a.rank = b.rank
  · obtain ⟨x, hx, -, hxplace⟩ := @improve_of_rank_eq f better b a ha hrank
    obtain ⟨y, hy, -, hyplace⟩ := @improve_of_rank_eq f better a b hb hrank.symm
    rw [hx, hy]
    apply Agree.ok
    rw [hxplace, hyplace, pick_comm hbetter]
  · rw [improve_of_rank_ne ha hb hrank,
      improve_of_rank_ne hb ha (Ne.symm hrank)]
    exact .error _ _

private theorem improve_twice {best a b : Cell} (ha : a.isNull = false)
    (hb : b.isNull = false) (hranks : a.rank = best.rank ∧ b.rank = best.rank) :
    ∃ next, (improve f better best a >>= (improve f better · b)) = .ok next ∧
      next.place = pick better (pick better best.place a.place) b.place := by
  obtain ⟨x, hx, hxrank, hxplace⟩ :=
    @improve_of_rank_eq f better best a ha hranks.1
  obtain ⟨y, hy, -, hyplace⟩ :=
    @improve_of_rank_eq f better x b hb (hranks.2.trans hxrank.symm)
  rw [hx]
  exact ⟨y, hy, by rw [hyplace, hxplace]⟩

/-- A cell that cannot be compared with the best one spoils the extremum
wherever it comes. -/
private theorem improve_twice_of_rank_ne {best a b : Cell}
    (hbest : best.isNull = false) (ha : a.isNull = false)
    (hb : b.isNull = false)
    (hranks : ¬(a.rank = best.rank ∧ b.rank = best.rank)) :
    ∃ e, (improve f better best a >>= (improve f better · b)) = .error e := by
  by_cases hrank : a.rank = best.rank
  · obtain ⟨x, hx, hxrank, -⟩ := @improve_of_rank_eq f better best a ha hrank
    have hxnull : x.isNull = false := by
      rw [Cell.isNull_eq_of_rank hxrank, hbest]
    have hrank' : b.rank ≠ x.rank := by
      rw [hxrank]
      exact fun h => hranks ⟨hrank, h⟩
    rw [hx]
    exact ⟨_, improve_of_rank_ne hb hxnull hrank'⟩
  · rw [improve_of_rank_ne ha hbest hrank]
    exact ⟨_, rfl⟩

theorem improve_swap (hbetter : better = Ordering.isLT ∨ better = Ordering.isGT)
    (best a b : Cell) :
    Agree (fun a b => a.place = b.place) (improve f better best a >>=
        (improve f better · b))
      (improve f better best b >>= (improve f better · a)) := by
  cases ha : a.isNull with
  | true =>
      simp only [improve_of_isNull ha, pure_bind, bind_pure]
      apply Agree.refl
      exact fun _ => rfl
  | false =>
      cases hb : b.isNull with
      | true =>
          simp only [improve_of_isNull hb, pure_bind, bind_pure]
          apply Agree.refl
          exact fun _ => rfl
      | false =>
          cases hbest : best.isNull with
          | true => exact improve_swap_of_isNull hbetter hbest ha hb
          | false =>
              by_cases hranks : a.rank = best.rank ∧ b.rank = best.rank
              · obtain ⟨x, hx, hxplace⟩ :=
                  @improve_twice f better best a b ha hb hranks
                obtain ⟨y, hy, hyplace⟩ :=
                  @improve_twice f better best b a hb ha hranks.symm
                rw [hx, hy]
                apply Agree.ok
                rw [hxplace, hyplace, pick_right_comm hbetter]
              · obtain ⟨e, he⟩ :=
                  @improve_twice_of_rank_ne f better best a b hbest ha hb hranks
                obtain ⟨e', he'⟩ :=
                  @improve_twice_of_rank_ne f better best b a hbest hb ha
                    fun h => hranks h.symm
                rw [he, he']
                exact .error e e'

theorem extremum_perm
    (hbetter : better = Ordering.isLT ∨ better = Ordering.isGT)
    {cells cells' : List Cell} (h : cells.Perm cells') (best : Cell) :
    Agree (fun a b => a.place = b.place) (extremum f better best cells)
      (extremum f better best cells') := by
  rw [extremum_eq_foldlM, extremum_eq_foldlM]
  apply Agree.foldlM_perm _ _ _ _ h
  · exact fun _ _ _ => Eq.trans
  · exact fun _ _ cell hplace => improve_congr hplace cell
  · exact improve_swap hbetter
  · exact fun _ => rfl

theorem mem_of_extremum {best found : Cell} {cells : List Cell}
    (h : extremum f better best cells = .ok found) :
    found = best ∨ found ∈ cells := by
  induction cells generalizing best with
  | nil =>
      cases h
      exact .inl rfl
  | cons cell cells ih =>
      rw [extremum_eq_foldlM, List.foldlM_cons, bind_eq_ok_iff] at h
      obtain ⟨next, hnext, hrest⟩ := h
      rw [← extremum_eq_foldlM] at hrest
      have hkept : next = best ∨ next = cell := by
        unfold improve at hnext
        split at hnext
        case isTrue =>
            cases hnext
            exact .inl rfl
        case isFalse =>
            split at hnext
            case isTrue =>
                cases hnext
                exact .inr rfl
            case isFalse =>
                split at hnext
                case h_1 => cases hnext
                case h_2 =>
                    cases hnext
                    split <;> simp
      rcases ih hrest with rfl | hmem
      · rcases hkept with rfl | rfl
        · exact .inl rfl
        · exact .inr List.mem_cons_self
      · exact .inr (List.mem_cons_of_mem cell hmem)

/-! ## Different cells -/

theorem nodup_distinct (cells : List Cell) :
    ((distinct cells).map Cell.content).Nodup := by
  induction cells with
  | nil => simp [distinct]
  | cons cell cells ih =>
      rw [distinct, List.map_cons, List.nodup_cons]
      constructor
      · intro hmem
        obtain ⟨c, hc, hcontent⟩ := List.mem_map.mp hmem
        have hsame := Cell.same_iff.mpr hcontent
        have hkept := (List.mem_filter.mp hc).2
        rw [hsame] at hkept
        cases hkept
      · exact ih.sublist (List.filter_sublist.map _)

theorem mem_distinct {cells : List Cell} {content : Cell.Place × Bool} :
    content ∈ (distinct cells).map Cell.content ↔
      content ∈ cells.map Cell.content := by
  induction cells with
  | nil => simp [distinct]
  | cons cell cells ih =>
      rw [distinct, List.map_cons, List.mem_cons, List.map_cons,
        List.mem_cons, ← ih]
      apply or_congr_right'
      intro hne
      simp only [List.mem_map, List.mem_filter]
      constructor
      · rintro ⟨c, ⟨hc, -⟩, rfl⟩
        exact ⟨c, hc, rfl⟩
      · rintro ⟨c, hc, rfl⟩
        refine ⟨c, ⟨hc, ?_⟩, rfl⟩
        simpa [← Cell.same_iff] using hne

theorem length_distinct_perm {cells cells' : List Cell}
    (h : cells.Perm cells') :
    (distinct cells).length = (distinct cells').length := by
  have hperm : ((distinct cells).map Cell.content).Perm
      ((distinct cells').map Cell.content) := by
    rw [List.perm_ext_iff_of_nodup (nodup_distinct cells)
      (nodup_distinct cells')]
    intro content
    rw [mem_distinct, mem_distinct, (h.map Cell.content).mem_iff]
  simpa using hperm.length_eq

end Database

namespace Statistics

/-! ## Numbers -/

theorem numbers_eq_ok_iff {cells : List Cell} {values : List Decimal} :
    numbers cells = .ok values ↔
      (∀ cell ∈ cells, cell = .null ∨ ∃ n, cell = .number n) ∧
        values = cells.filterMap Cell.decimal? := by
  induction cells generalizing values with
  | nil => simp [numbers, eq_comm]
  | cons cell cells ih =>
      cases cell with
      | null =>
          rw [numbers, ih, List.forall_mem_cons, List.filterMap_cons_none rfl]
          simp
      | number n =>
          simp only [numbers, bind_eq_ok_iff, pure_eq_ok_iff, ih,
            List.filterMap_cons, Cell.decimal?]
          constructor
          · rintro ⟨_, ⟨hcells, rfl⟩, rfl⟩
            exact ⟨List.forall_mem_cons.mpr ⟨.inr ⟨n, rfl⟩, hcells⟩, rfl⟩
          · rintro ⟨hcells, rfl⟩
            exact ⟨_, ⟨(List.forall_mem_cons.mp hcells).2, rfl⟩, rfl⟩
      | _ => simp [numbers]

theorem numbers_perm {cells cells' : List Cell} (h : cells.Perm cells') :
    Agree List.Perm (numbers cells) (numbers cells') := by
  apply Agree.of_imp
  · intro values hvalues
    rw [numbers_eq_ok_iff] at hvalues
    rw [hvalues.2]
    exact ⟨_, numbers_eq_ok_iff.mpr ⟨fun cell hcell =>
      hvalues.1 cell (h.mem_iff.mpr hcell), rfl⟩,
      h.filterMap _⟩
  · intro values hvalues
    rw [numbers_eq_ok_iff] at hvalues
    exact ⟨_, numbers_eq_ok_iff.mpr ⟨fun cell hcell =>
      hvalues.1 cell (h.mem_iff.mp hcell), rfl⟩⟩

/-! ## Sums -/

/-- No addition to a running total rounds or overflows. -/
def AddsExactly : (total : Decimal) → List Decimal → Prop
  | _, [] => True
  | total, n :: rest =>
    ∃ next, total.add? n = some next ∧ next.value = total.value + n.value ∧
      AddsExactly next rest

instance decidableAddsExactly :
    (total : Decimal) → (values : List Decimal) →
      Decidable (AddsExactly total values)
  | _, [] => isTrue trivial
  | total, n :: rest =>
    match h : total.add? n with
    | none => isFalse fun ⟨_, hnext, _⟩ => nomatch h.symm.trans hnext
    | some next =>
      have := decidableAddsExactly next rest
      decidable_of_iff
        (next.value = total.value + n.value ∧ AddsExactly next rest)
        ⟨fun hnext => ⟨next, h, hnext⟩,
          fun ⟨_, h', hnext⟩ => by cases h.symm.trans h'; exact hnext⟩

theorem foldlM_add?_of_addsExactly {start : Decimal} {values : List Decimal}
    (h : AddsExactly start values) :
    ∃ sum, values.foldlM Decimal.add? start = some sum ∧
      sum.value = start.value + (values.map Decimal.value).sum := by
  induction values generalizing start with
  | nil => exact ⟨start, rfl, by simp⟩
  | cons n rest ih =>
      obtain ⟨next, hnext, hvalue, hrest⟩ := h
      obtain ⟨sum, hsum, hsumValue⟩ := ih hrest
      refine ⟨sum, by rw [List.foldlM_cons, hnext]; exact hsum, ?_⟩
      rw [hsumValue, hvalue, List.map_cons, List.sum_cons, add_assoc]

variable {values values' : List Decimal}

theorem sum_congr
    (h : (values.map Decimal.value).Perm (values'.map Decimal.value))
    (hexact : AddsExactly .zero values) (hexact' : AddsExactly .zero values') :
    Agree (fun x y => x.map Decimal.value = y.map Decimal.value) (sum values)
      (sum values') := by
  obtain ⟨total, htotal, hvalue⟩ := foldlM_add?_of_addsExactly hexact
  obtain ⟨total', htotal', hvalue'⟩ := foldlM_add?_of_addsExactly hexact'
  have hempty : values.isEmpty = values'.isEmpty := by
    have hlength : values.length = values'.length := by simpa using h.length_eq
    cases values <;> cases values' <;> simp_all
  rw [sum, sum, Statistics.total, Statistics.total, htotal, htotal', hempty]
  split
  case isTrue => exact .ok rfl
  case isFalse =>
      apply Agree.ok
      rw [Option.map_some, Option.map_some, hvalue, hvalue', h.sum_eq]

theorem mean_congr
    (h : (values.map Decimal.value).Perm (values'.map Decimal.value))
    (hexact : AddsExactly .zero values) (hexact' : AddsExactly .zero values') :
    Agree (fun x y => x.map Decimal.value = y.map Decimal.value) (mean values)
      (mean values') := by
  have hlength : values.length = values'.length := by simpa using h.length_eq
  apply (sum_congr h hexact hexact').bind
  intro x y hxy
  cases x <;> cases y <;> simp at hxy
  case none.none => exact .ok rfl
  case some.some total total' =>
      rw [hlength]
      apply (Computation.average.checked_congr
        (Decimal.map_value_div?_congr hxy rfl)).bind
      intro m m' hm
      exact .ok (congrArg some hm)

/-! ## Variances -/

def VariesExactly (values : List Decimal) : Prop :=
  AddsExactly .zero values ∧
    ∀ m squares, mean values = .ok (some m) →
      values.mapM (squaredDistance m) = some squares → AddsExactly .zero squares

theorem map_value_squaredDistance (m n : Decimal) :
    (squaredDistance m n).map Decimal.value =
      (Decimal.rounded (n.value - m.value)).bind fun d =>
        Decimal.rounded (d * d) := by
  rw [← Decimal.map_value_sub?, Option.bind_map, squaredDistance,
    Option.bind_eq_bind, Option.map_bind]
  congr 1
  funext d
  rw [Function.comp_apply, Function.comp_apply, Decimal.map_value_mul?]

theorem checked_mapM (c : Computation) {α β : Type} (f : α → Option β)
    (as : List α) :
    c.checked (as.mapM f) = as.mapM fun a => c.checked (f a) := by
  induction as with
  | nil => rfl
  | cons a as ih =>
      rw [List.mapM_cons, List.mapM_cons, ← ih]
      cases f a with
      | none => rfl
      | some b => cases as.mapM f <;> rfl

private theorem squares_perm (h : values.Perm values') {m m' : Decimal}
    (hm : m.value = m'.value) :
    Agree (fun xs ys => (xs.map Decimal.value).Perm (ys.map Decimal.value))
      (Computation.variance.checked (values.mapM (squaredDistance m)))
      (Computation.variance.checked (values'.mapM (squaredDistance m'))) := by
  have hrounded : ∀ n ∈ values', ∀ n' ∈ values', n = n' →
      Agree (fun x y => x.value = y.value)
        (Computation.variance.checked (squaredDistance m n))
        (Computation.variance.checked (squaredDistance m' n')) := by
    rintro n - _ - rfl
    apply Computation.checked_congr
    rw [map_value_squaredDistance, map_value_squaredDistance, hm]
  -- First the order of the values changes, then the mean that they are compared
  -- with.
  rw [checked_mapM, checked_mapM]
  apply (Agree.mapM_perm h _).trans
    (Agree.mapM (List.forall₂_refl values') hrounded)
  intro xs ys zs hperm hvalues
  have hsame : ys.map Decimal.value = zs.map Decimal.value := by
    rwa [← List.forall₂_eq_eq_eq, List.forall₂_map_left_iff,
      List.forall₂_map_right_iff]
  rw [← hsame]
  exact hperm.map Decimal.value

theorem variance_perm (h : values.Perm values') (hexact : VariesExactly values)
    (hexact' : VariesExactly values') :
    Agree (fun x y => x.map Decimal.value = y.map Decimal.value)
      (variance values)
      (variance values') := by
  have hmean := mean_congr (h.map Decimal.value) hexact.1 hexact'.1
  rcases hmean.cases with ⟨x, y, hx, hy, hxy⟩ | ⟨e, e', hx, hy⟩
  · rw [variance, variance, hx, hy]
    cases x <;> cases y <;> simp at hxy
    case none.none => exact .ok rfl
    case some.some m m' =>
        show Agree _ (_ >>= mean) (_ >>= mean)
        rcases (squares_perm h hxy).cases with ⟨xs, ys, hxs, hys, hsquares⟩ |
          ⟨e, e', hxs, hys⟩
        · rw [hxs, hys]
          exact mean_congr hsquares
            (hexact.2 m xs hx (Computation.checked_eq_ok_iff.mp hxs))
            (hexact'.2 m' ys hy (Computation.checked_eq_ok_iff.mp hys))
        · rw [hxs, hys]
          exact .error e e'
  · rw [variance, variance, hx, hy]
    exact .error e e'

/-! ## Percentiles -/

theorem map_value_sorted (values : List Decimal) :
    (sorted values).map Decimal.value =
      (values.map Decimal.value).mergeSort := by
  apply List.map_mergeSort
  intro m _ n _
  rw [Bool.eq_iff_iff, Decimal.le_iff, decide_eq_true_iff]

theorem sorted_perm (h : values.Perm values') :
    (sorted values).map Decimal.value = (sorted values').map Decimal.value := by
  rw [map_value_sorted, map_value_sorted,
    mergeSort_eq_of_perm (h.map Decimal.value)]

private theorem map_value_bind {x y : Option Decimal}
    {f g : Decimal → Option Decimal}
    (h : x.map Decimal.value = y.map Decimal.value)
    (hfg : ∀ m n, m.value = n.value →
      (f m).map Decimal.value = (g n).map Decimal.value) :
    (x >>= f).map Decimal.value = (y >>= g).map Decimal.value := by
  cases x <;> cases y <;> simp at h
  case none.none => rfl
  case some.some m n => exact hfg m n h

theorem interpolate?_congr {low low' high high' fraction fraction' : Decimal}
    (hlow : low.value = low'.value) (hhigh : high.value = high'.value)
    (hfraction : fraction.value = fraction'.value) :
    (interpolate? low high fraction).map Decimal.value =
      (interpolate? low' high' fraction').map Decimal.value := by
  apply map_value_bind
  · rw [Decimal.map_value_sub?, Decimal.map_value_sub?, hhigh, hlow]
  · intro step step' hstep
    apply map_value_bind
    · rw [Decimal.map_value_mul?, Decimal.map_value_mul?, hstep, hfraction]
    · intro part part' hpart
      rw [Decimal.map_value_add?, Decimal.map_value_add?, hlow, hpart]

theorem percentile?_perm (h : values.Perm values') {p p' : Decimal}
    (hp : p.value = p'.value) :
    (percentile? values p).map Decimal.value =
      (percentile? values' p').map Decimal.value := by
  have hsorted : ∀ i : Nat, (sorted values)[i]?.map Decimal.value =
      (sorted values')[i]?.map Decimal.value := by
    intro i
    rw [← List.getElem?_map, ← List.getElem?_map, sorted_perm h]
  apply map_value_bind
  · rw [Decimal.map_value_mul?, Decimal.map_value_mul?, hp, h.length_eq]
  · intro rank rank' hrank
    have hlower : rank.floor.value = rank'.floor.value := by
      rw [Decimal.value_floor, Decimal.value_floor, hrank]
    have hindex : rank.floor.toInt.toNat = rank'.floor.toInt.toNat := by
      rw [Decimal.toInt_floor, Decimal.toInt_floor, hrank]
    apply map_value_bind
    · rw [Decimal.map_value_sub?, Decimal.map_value_sub?, hrank, hlower]
    · intro fraction fraction' hfraction
      apply map_value_bind
      · rw [hindex]
        exact hsorted _
      · intro low low' hlow
        apply interpolate?_congr hlow _ hfraction
        rw [hindex, ← Option.getD_map Decimal.value, hsorted, hlow,
          Option.getD_map]

theorem percentile_perm (h : values.Perm values') {p p' : Decimal}
    (hp : p.value = p'.value) :
    Agree (fun x y => x.content = y.content) (percentile values p)
      (percentile values' p') := by
  have hvalue := percentile?_perm h hp
  have hempty : values.isEmpty = values'.isEmpty := h.isEmpty_eq
  rw [percentile, percentile, hempty]
  split
  case isTrue => exact .ok rfl
  case isFalse =>
      cases hx : percentile? values p <;> cases hy : percentile? values' p' <;>
        simp only [hx, hy, Option.map_some, Option.map_none, reduceCtorEq,
          Option.some.injEq]
          at hvalue
      case none.none => exact .error _ _
      case some.some => exact .ok (Cell.content_number hvalue)

end Statistics

end TableQuery
