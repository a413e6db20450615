import TableQuery.Proofs.Evaluation.Unsorted
import TableQuery.Sample
import TableQuery.Wire.Clause

/-!
# Filters and conjunctions

A conjunction evaluates both operands and may be null, while a list of filters
is tried up to the first that is not true.  On a row where the predicates have
values both let the same rows pass, and the order of the filters does not
matter.
-/

namespace TableQuery.Database

variable {db : Database} {row : Row}

def Evaluates (db : Database) (row : Row) (e : Expression) : Prop :=
  ∃ cell, db.evalRow row e = .ok cell

theorem holdsOf_iff {e : Expression} {cell : Cell}
    (h : db.evalRow row e = .ok cell) :
    db.holdsOf row e = true ↔ cell = .boolean true := by
  simp [holdsOf, h, Except.toOption]

theorem Evaluates.accepts_eq {e : Expression} (h : db.Evaluates row e) :
    db.accepts e row = .ok (db.holdsOf row e) := by
  obtain ⟨cell, hcell⟩ := h
  have haccepts : db.accepts e row = .ok (cell.same (.boolean true)) := by
    rw [accepts, hcell]
    rfl
  rw [haccepts, accepts_eq_ok haccepts]

theorem passes_eq_all {filters : List Expression}
    (h : ∀ f ∈ filters, db.Evaluates row f) :
    db.passes filters row = .ok (filters.all (db.holdsOf row)) := by
  induction filters with
  | nil => rfl
  | cons f filters ih =>
      obtain ⟨hf, hfilters⟩ := List.forall_mem_cons.mp h
      rw [passes, hf.accepts_eq, List.all_cons]
      cases db.holdsOf row f with
      | true => exact ih hfilters
      | false => rfl

/-! ## Conjunctions -/

theorem truth_eq_true_iff {a : Cell} {s : Option Bool}
    (h : Scalar.truth a = .ok s) : s = some true ↔ a = .boolean true := by
  cases a <;> cases h <;> simp

theorem conjunction_eq_true_iff (s t : Option Bool) :
    Scalar.conjunction s t = some true ↔ s = some true ∧ t = some true := by
  rcases s with _ | _ | _ <;> rcases t with _ | _ | _ <;> decide

theorem ofTruth_eq_true_iff (s : Option Bool) :
    Scalar.ofTruth s = .boolean true ↔ s = some true := by
  cases s <;> simp [Scalar.ofTruth]

/-- A conjunction has a value only if its operands have truth values, and it is
true only if both of them are. -/
theorem evaluates_and {left right : Expression}
    (h : db.Evaluates row (.binary .and left right)) :
    db.Evaluates row left ∧ db.Evaluates row right ∧
      db.holdsOf row (.binary .and left right) =
        (db.holdsOf row left && db.holdsOf row right) := by
  obtain ⟨cell, hcell⟩ := h
  obtain ⟨a, ha, hright⟩ := bind_eq_ok_iff.mp hcell
  obtain ⟨b, hb, happly⟩ := bind_eq_ok_iff.mp hright
  obtain ⟨s, hs, happly⟩ := bind_eq_ok_iff.mp happly
  obtain ⟨t, ht, happly⟩ := bind_eq_ok_iff.mp happly
  refine ⟨⟨a, ha⟩, ⟨b, hb⟩, ?_⟩
  have hcell' : Scalar.ofTruth (Scalar.conjunction s t) = cell :=
    pure_eq_ok_iff.mp happly
  rw [Bool.eq_iff_iff, Bool.and_eq_true, holdsOf_iff hcell, holdsOf_iff ha,
    holdsOf_iff hb, ← hcell', ofTruth_eq_true_iff, conjunction_eq_true_iff,
    truth_eq_true_iff hs, truth_eq_true_iff ht]

theorem evaluates_conjuncts {e : Expression} (h : db.Evaluates row e) :
    (∀ f ∈ Wire.conjuncts e, db.Evaluates row f) ∧
      (Wire.conjuncts e).all (db.holdsOf row) = db.holdsOf row e := by
  induction e using Wire.conjuncts.induct with
  | case1 left right ihLeft ihRight =>
      obtain ⟨hleft, hright, hholds⟩ := evaluates_and h
      obtain ⟨hleftAll, hleftHolds⟩ := ihLeft hleft
      obtain ⟨hrightAll, hrightHolds⟩ := ihRight hright
      rw [Wire.conjuncts]
      constructor
      · exact List.forall_mem_append.mpr ⟨hleftAll, hrightAll⟩
      · rw [List.all_append, hleftHolds, hrightHolds, hholds]
  | case2 e hother =>
      rw [Wire.conjuncts.eq_2 _ hother]
      exact ⟨List.forall_mem_singleton.mpr h, by simp⟩

theorem ne_and_of_mem_conjuncts {e f : Expression} (h : f ∈ Wire.conjuncts e)
    (left right : Expression) : f ≠ .binary .and left right := by
  induction e using Wire.conjuncts.induct with
  | case1 _ _ ihLeft ihRight =>
      rw [Wire.conjuncts] at h
      exact (List.mem_append.mp h).elim ihLeft ihRight
  | case2 e hother =>
      rw [Wire.conjuncts.eq_2 _ hother, List.mem_singleton] at h
      rw [h]
      exact hother left right

/-- On a row for which a predicate has a value, its conjuncts, none of which is
a conjunction, let the row pass just as the predicate does, which is if it is
true; and filters that all have values let the same rows pass in any order. -/
theorem passes_conjuncts (db : Database) (row : Row) :
    (∀ e cell, db.evalRow row e = .ok cell →
      (∀ f ∈ Wire.conjuncts e, ∀ left right, f ≠ .binary .and left right) ∧
      ∃ passed, db.passes [e] row = .ok passed ∧
        db.passes (Wire.conjuncts e) row = .ok passed ∧
        (passed = true ↔ cell = .boolean true)) ∧
    ∀ filters filters' : List Expression, filters.Perm filters' →
      (∀ f ∈ filters, ∃ cell, db.evalRow row f = .ok cell) →
      ∃ passed, db.passes filters row = .ok passed ∧
        db.passes filters' row = .ok passed := by
  constructor
  · intro e cell hcell
    have he : db.Evaluates row e := ⟨cell, hcell⟩
    obtain ⟨hconjuncts, hholds⟩ := evaluates_conjuncts he
    refine ⟨fun f hf => ne_and_of_mem_conjuncts hf, db.holdsOf row e, ?_, ?_,
      holdsOf_iff hcell⟩
    · rw [passes_eq_all (List.forall_mem_singleton.mpr he), List.all_cons,
        List.all_nil, Bool.and_true]
    · rw [passes_eq_all hconjuncts, hholds]
  · intro filters filters' hperm hfilters
    refine ⟨_, passes_eq_all hfilters, ?_⟩
    rw [passes_eq_all fun f hf => hfilters f (hperm.mem_iff.mpr hf),
      hperm.all_eq]

/-! ### An order without a discount -/

def plainOrder : Row :=
  .ofRecord (Sample.orderRow 1 1 3765 207 3972 none "2024-01-05T10:33:00" 2)

def above (id : FieldId) (n : Nat) : Expression :=
  .binary .gt (.column (.field id)) (.number (.ofNat n))

def discountedOrder : Expression :=
  .binary .and (.binary .and (above Sample.Order.total 20)
      (above Sample.Order.discount 5))
    (above Sample.Order.quantity 1)

theorem passes_conjuncts_discountedOrder :
    Sample.database.evalRow plainOrder discountedOrder = .ok .null ∧
      Sample.database.passes [discountedOrder] plainOrder = .ok false ∧
      Sample.database.passes [above Sample.Order.total 20,
        above Sample.Order.discount 5, above Sample.Order.quantity 1]
        plainOrder = .ok false ∧
      Sample.database.passes [above Sample.Order.quantity 1,
        above Sample.Order.discount 5, above Sample.Order.total 20]
        plainOrder = .ok false := by
  have heval : Sample.database.evalRow plainOrder discountedOrder =
      .ok .null := rfl
  have hfilters : ∀ f ∈ Wire.conjuncts discountedOrder,
      Sample.database.Evaluates plainOrder f :=
      (evaluates_conjuncts ⟨_, heval⟩).1
  obtain ⟨hsplit, hperm⟩ := passes_conjuncts Sample.database plainOrder
  obtain ⟨-, passed, hwhole, hconjuncts, htrue⟩ :=
    hsplit discountedOrder .null heval
  obtain ⟨passed', hforward, hbackward⟩ :=
    hperm _ _ (Wire.conjuncts discountedOrder).reverse_perm.symm hfilters
  have hfalse : passed = false := by
    simpa using htrue
  cases hconjuncts.symm.trans hforward
  rw [hfalse] at hwhole hconjuncts hbackward
  exact ⟨heval, hwhole, hconjuncts, hbackward⟩

end TableQuery.Database
