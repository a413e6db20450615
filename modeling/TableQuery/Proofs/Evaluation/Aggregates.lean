import TableQuery.Proofs.Evaluation.Gathering
import TableQuery.Proofs.Evaluation.Renumbering
import TableQuery.Proofs.Evaluation.Statistics
import TableQuery.Proofs.Expression

/-!
# Aggregations in any order

The value of an aggregation for a group does not depend on the order of its
rows, as long as sums are exact and extrema are not looked for among strings and
temporal cells at once.
-/

namespace TableQuery.Database

open Statistics (AddsExactly VariesExactly)

variable {db db' : Database} {rows rows' : List Row}

/-! ## Rows -/

theorem evalRow_congr (hvalue : db.value = db'.value) :
    db.evalRow = db'.evalRow := by
  funext row e
  induction e using Expression.induct with
  | number value => rfl
  | string value => rfl
  | column id => rw [evalRow, evalRow, hvalue]
  | call f args ih =>
      have hargs : args.mapM (db.evalRow row) = args.mapM (db'.evalRow row) :=
        mapM_congr_of_mem ih
      rw [evalRow, evalRow, evalArgs_eq_mapM, evalArgs_eq_mapM, hargs]
  | binary op left right ihLeft ihRight =>
      rw [evalRow, evalRow, ihLeft, ihRight]
  | unary op operand ih => rw [evalRow, evalRow, ih]
  | unrecognized stored => rfl

theorem evalColumn_perm (hrow : db.evalRow = db'.evalRow) (h : rows.Perm rows')
    (e : Expression) :
    Agree List.Perm (db.evalColumn rows e) (db'.evalColumn rows' e) := by
  rw [evalColumn, evalColumn, hrow]
  exact .mapM_perm h _

theorem numbersOf_perm (hrow : db.evalRow = db'.evalRow) (h : rows.Perm rows')
    (f : Function) (args : List Expression) (index : Nat) :
    Agree List.Perm (db.numbersOf rows f args index)
      (db'.numbersOf rows' f args index) := by
  apply (Agree.refl Eq.refl (argumentOf f args index)).bind
  rintro e _ rfl
  exact (evalColumn_perm hrow h e).bind fun _ _ => Statistics.numbers_perm

theorem hits_perm (hrow : db.evalRow = db'.evalRow) (h : rows.Perm rows')
    (f : Function) (args : List Expression) (index : Nat) :
    Agree List.Perm (db.hits rows f args index)
      (db'.hits rows' f args index) := by
  have haccepts : ∀ e, db.accepts e = db'.accepts e := by
    intro e
    funext row
    rw [accepts, accepts, hrow]
  apply (Agree.refl Eq.refl (argumentOf f args index)).bind
  rintro e _ rfl
  rw [matching, matching, haccepts]
  exact .filterM_perm h _

/-! ## Aggregate functions -/

theorem content_ofNumber? {x y : Option Decimal}
    (h : x.map Decimal.value = y.map Decimal.value) :
    (ofNumber? x).content = (ofNumber? y).content := by
  cases x <;> cases y <;> simp at h
  case none.none => rfl
  case some.some => exact Cell.content_number h

theorem sumOf_perm (hrow : db.evalRow = db'.evalRow) (h : rows.Perm rows')
    {f : Function} {args : List Expression} {index : Nat}
    (hexact : ∀ values, db.numbersOf rows f args index = .ok values →
      AddsExactly .zero values)
    (hexact' : ∀ values, db'.numbersOf rows' f args index = .ok values →
      AddsExactly .zero values) :
    Agree (fun x y => x.content = y.content)
      (do
        return ofNumber? (← Statistics.sum (← db.numbersOf rows f args index)))
      (do
        return ofNumber?
          (← Statistics.sum (← db'.numbersOf rows' f args index))) := by
  apply (numbersOf_perm hrow h f args index).bind_of_ok
  intro values values' hvalues hvalues' hperm
  apply (Statistics.sum_congr (hperm.map Decimal.value) (hexact values hvalues)
    (hexact' values' hvalues')).bind
  exact fun x y hxy => .ok (content_ofNumber? hxy)

theorem extremumOf_perm (hrow : db.evalRow = db'.evalRow) (h : rows.Perm rows')
    {f : Function} {better : Ordering → Bool}
    (hbetter : better = Ordering.isLT ∨ better = Ordering.isGT) {e : Expression}
    (hunmixed : Unmixed (db.evalRow · e) rows) :
    Agree (fun x y => x.content = y.content)
      (db.evalColumn rows e >>= extremum f better .null)
      (db'.evalColumn rows' e >>= extremum f better .null) := by
  apply (evalColumn_perm hrow h e).bind_of_ok
  intro cells cells' hcells hcells' hperm
  rcases (extremum_perm hbetter hperm .null).cases with
    ⟨c, c', hc, hc', hplace⟩ | ⟨_, _, hc, hc'⟩
  · rw [hc, hc']
    apply Agree.ok
    -- Both are null, or both are values of rows, among which no two kinds share
    -- a place.
    have hrank := Cell.rank_eq_of_place hplace
    have hnull := Cell.isNull_eq_of_rank hrank
    rcases mem_of_extremum hc with rfl | hmem
    · cases c' <;> simp_all [Cell.isNull]
    · rcases mem_of_extremum hc' with rfl | hmem'
      · cases c <;> simp_all [Cell.isNull]
      · obtain ⟨row, hmem, hvalue⟩ := exists_of_mem_mapM hcells hmem
        obtain ⟨row', hmem', hvalue'⟩ := exists_of_mem_mapM hcells' hmem'
        rw [← hrow] at hvalue'
        exact hunmixed.content_eq hmem (h.mem_iff.mpr hmem') hvalue
          hvalue' hplace
  · rw [hc, hc']
    exact .error _ _

private theorem percentileAt_perm {values values' : List Decimal}
    (h : values.Perm values') {m n : Decimal} (hmn : m.value = n.value) :
    Agree (fun x y => x.content = y.content)
      (if m.lt .zero || Decimal.one.lt m then
        .error (.fault (.percentileOutOfRange m))
        else Statistics.percentile values m)
      (if n.lt .zero || Decimal.one.lt n then
        .error (.fault (.percentileOutOfRange n))
        else Statistics.percentile values' n) := by
  have hlow : m.lt .zero = n.lt .zero := by
    rw [Bool.eq_iff_iff, Decimal.lt_iff, Decimal.lt_iff, hmn]
  have hhigh : Decimal.one.lt m = Decimal.one.lt n := by
    rw [Bool.eq_iff_iff, Decimal.lt_iff, Decimal.lt_iff, hmn]
  rw [hlow, hhigh]
  split
  case isTrue => exact .error _ _
  case isFalse => exact Statistics.percentile_perm h hmn

/-- What a call needs of the rows of a group for their order not to matter. -/
def SettledCall (db : Database) (rows : List Row) (f : Function)
    (args : List Expression) : Prop :=
  match f with
  | .count | .cumulativeCount | .distinct | .median | .percentile
  | .countIf | .share => True
  | .min | .max => ∀ e, args[0]? = some e → Unmixed (db.evalRow · e) rows
  | .sum | .cumulativeSum | .average =>
    ∀ values, db.numbersOf rows f args 0 = .ok values → AddsExactly .zero values
  | .variance => ∀ values, db.numbersOf rows f args 0 = .ok values →
    VariesExactly values
  | .sumIf =>
    ∀ found values, db.hits rows f args 1 = .ok found →
      db.numbersOf found f args 0 = .ok values → AddsExactly .zero values
  | _ => False

theorem argumentOf_eq_ok_iff {f : Function} {args : List Expression}
    {index : Nat} {e : Expression} : argumentOf f args index = .ok e ↔
      args[index]? = some e := by
  unfold argumentOf
  cases args[index]? <;> simp

theorem aggregate_perm (hrow : db.evalRow = db'.evalRow) (h : rows.Perm rows')
    {f : Function} {args : List Expression}
    (hsettled : SettledCall db rows f args)
    (hsettled' : SettledCall db' rows' f args)
    {rank rank' : Unit → Except EvaluationError Cell}
    (hrank : f = .percentile →
      Agree (fun x y => x.content = y.content) (rank ()) (rank' ())) :
    Agree (fun x y => x.content = y.content) (db.aggregate rows rank f args)
      (db'.aggregate rows' rank' f args) := by
  have hempty : rows.isEmpty = rows'.isEmpty := h.isEmpty_eq
  have hargument : ∀ index,
      Agree Eq (argumentOf f args index) (argumentOf f args index) :=
    fun index => .refl Eq.refl _
  have hcounts : Agree (fun x y => x.content = y.content)
      (db.aggregate rows rank .count args)
      (db'.aggregate rows' rank' .count args) := by
    cases args with
    | nil => exact .ok (by rw [h.length_eq])
    | cons e _ =>
        apply (evalColumn_perm hrow h e).bind
        intro cells cells' hperm
        exact .ok (by rw [hperm.countP_eq])
  cases f
  case count => exact hcounts
  case cumulativeCount => exact hcounts
  case sum => exact sumOf_perm hrow h hsettled hsettled'
  case cumulativeSum => exact sumOf_perm hrow h hsettled hsettled'
  case distinct =>
      apply (hargument 0).bind
      rintro e _ rfl
      apply (evalColumn_perm hrow h e).bind
      intro cells cells' hperm
      exact .ok (by rw [length_distinct_perm (hperm.filter _)])
  case average =>
      apply (numbersOf_perm hrow h .average args 0).bind_of_ok
      intro values values' hvalues hvalues' hperm
      apply (Statistics.mean_congr (hperm.map Decimal.value)
        (hsettled values hvalues) (hsettled' values' hvalues')).bind
      exact fun x y hxy => .ok (content_ofNumber? hxy)
  case min =>
      apply (hargument 0).bind_of_ok
      rintro e _ he - rfl
      exact extremumOf_perm hrow h (.inl rfl)
        (hsettled e (argumentOf_eq_ok_iff.mp he))
  case max =>
      apply (hargument 0).bind_of_ok
      rintro e _ he - rfl
      exact extremumOf_perm hrow h (.inr rfl)
        (hsettled e (argumentOf_eq_ok_iff.mp he))
  case median =>
      apply (numbersOf_perm hrow h .median args 0).bind
      exact fun values values' hperm => Statistics.percentile_perm hperm rfl
  case percentile =>
      apply (numbersOf_perm hrow h .percentile args 0).bind
      intro values values' hperm
      apply (hargument 1).bind
      rintro _ _ -
      apply (hrank rfl).bind
      intro p p' hp
      rcases Cell.eq_or_numbers hp with rfl | ⟨m, n, rfl, rfl, hmn⟩
      · cases p with
        | number m => exact percentileAt_perm hperm rfl
        | _ => exact .error _ _
      · exact percentileAt_perm hperm hmn
  case variance =>
      apply (numbersOf_perm hrow h .variance args 0).bind_of_ok
      intro values values' hvalues hvalues' hperm
      apply (Statistics.variance_perm hperm (hsettled values hvalues)
        (hsettled' values' hvalues')).bind
      exact fun x y hxy => .ok (content_ofNumber? hxy)
  case share =>
      rw [aggregate, aggregate, hempty]
      split
      case isTrue => exact .ok rfl
      case isFalse =>
          apply (hits_perm hrow h .share args 0).bind
          intro found found' hperm
          rw [hperm.length_eq, h.length_eq]
          apply Agree.refl
          exact fun _ => rfl
  case countIf =>
      apply (hits_perm hrow h .countIf args 0).bind
      intro found found' hperm
      exact .ok (by rw [hperm.length_eq])
  case sumIf =>
      apply (hits_perm hrow h .sumIf args 1).bind_of_ok
      intro found found' hfound hfound' hperm
      exact sumOf_perm hrow hperm (fun values => hsettled found values hfound)
        fun values => hsettled' found' values hfound'
  all_goals exact absurd hsettled id

/-! ## Aggregations -/

/-- Aggregations whose value for a group does not depend on the order of its
rows: calls combined with operators. -/
inductive Steady (db : Database) (rows : List Row) : Expression → Prop
  | number (value : Decimal) : Steady db rows (.number value)
  | string (value : String) : Steady db rows (.string value)
  | aggregation (index : Nat) : Steady db rows (.column (.aggregation index))
  | call {f : Function} {args : List Expression}
      (h : SettledCall db rows f args)
      (hrank : f = .percentile → ∀ e, args[1]? = some e → Steady db rows e) :
      Steady db rows (.call f args)
  | binary (op : BinaryOp) {left right : Expression}
      (hleft : Steady db rows left) (hright : Steady db rows right) :
      Steady db rows (.binary op left right)
  | unary (op : UnaryOp) {operand : Expression} (h : Steady db rows operand) :
      Steady db rows (.unary op operand)

theorem isAggregate_of_settledCall {f : Function} {args : List Expression}
    (h : SettledCall db rows f args) : f.isAggregate = true := by
  cases f <;> first | rfl | exact absurd h id

theorem evalGroup_perm (hrow : db.evalRow = db'.evalRow) (h : rows.Perm rows')
    {done done' : List Cell}
    (hdone : done.map Cell.content = done'.map Cell.content) {e : Expression}
    (he : Steady db rows e) (he' : Steady db' rows' e) :
    Agree (fun x y => x.content = y.content) (db.evalGroup rows done e)
      (db'.evalGroup rows' done' e) := by
  induction he with
  | number value => exact .ok rfl
  | string value => exact .ok rfl
  | aggregation index =>
      have hcell := congrArg (·[index]?) hdone
      simp only [List.getElem?_map] at hcell
      rw [evalGroup, evalGroup]
      cases hx : done[index]? <;> cases hy : done'[index]? <;>
        simp [hx, hy] at hcell
      case none.none => exact .error _ _
      case some.some => exact .ok hcell
  | @call f args hsettled _ ih =>
      cases he' with
      | call hsettled' hrank' =>
          have hf := isAggregate_of_settledCall hsettled
          rw [evalGroup, evalGroup, if_pos hf, if_pos hf]
          apply aggregate_perm hrow h hsettled hsettled'
          intro hpercentile
          cases args with
          | nil => exact .ok rfl
          | cons _ rest =>
              cases rest with
              | nil => exact .ok rfl
              | cons e _ =>
                  exact ih hpercentile e rfl (hrank' hpercentile e rfl)
  | binary op _ _ ihLeft ihRight =>
      cases he' with
      | binary _ hleft' hright' =>
          rw [evalGroup, evalGroup]
          apply (ihLeft hleft').bind
          intro a a' ha
          apply (ihRight hright').bind
          intro b b' hb
          exact Scalar.applyBinary_congr op ha hb
  | unary op _ ih =>
      cases he' with
      | unary _ hoperand' =>
          rw [evalGroup, evalGroup]
          exact (ih hoperand').bind fun _ _ => Scalar.applyUnary_congr op

theorem aggregations_perm (hrow : db.evalRow = db'.evalRow)
    (h : rows.Perm rows') {aggs : List Aggregation}
    (hsteady : ∀ a ∈ aggs, Steady db rows a.expression)
    (hsteady' : ∀ a ∈ aggs, Steady db' rows' a.expression)
    {done done' : List Cell}
    (hdone : done.map Cell.content = done'.map Cell.content) :
    Agree (fun x y => x.map Cell.content = y.map Cell.content)
      (db.aggregations rows done aggs)
      (db'.aggregations rows' done' aggs) := by
  induction aggs generalizing done done' with
  | nil => exact .ok hdone
  | cons a aggs ih =>
      obtain ⟨ha, hrest⟩ := List.forall_mem_cons.mp hsteady
      obtain ⟨ha', hrest'⟩ := List.forall_mem_cons.mp hsteady'
      rw [aggregations, aggregations]
      apply (evalGroup_perm hrow h hdone ha ha').bind
      intro cell cell' hcell
      apply ih hrest hrest'
      rw [List.map_append, List.map_append, hdone, List.map_singleton,
        List.map_singleton, hcell]

end TableQuery.Database
