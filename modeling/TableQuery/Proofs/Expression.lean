import Mathlib.Data.List.Basic
import TableQuery.Expression

/-!
# Induction over expressions

Expressions nest through lists of arguments.  The principle below hands a proof
about a call the hypothesis for each of its arguments, and the functions that
walk over arguments are the usual functions on lists.
-/

namespace TableQuery.Expression

@[elab_as_elim]
theorem induct {motive : Expression → Prop}
    (number : ∀ value, motive (.number value))
    (string : ∀ value, motive (.string value))
    (column : ∀ id, motive (.column id))
    (call : ∀ function args, (∀ arg ∈ args, motive arg) →
      motive (.call function args))
    (binary : ∀ op left right, motive left → motive right →
      motive (.binary op left right))
    (unary : ∀ op operand, motive operand → motive (.unary op operand))
    (unrecognized : ∀ stored, motive (.unrecognized stored)) (e : Expression) :
      motive e :=
  Expression.rec (motive_1 := motive)
    (motive_2 := fun args => ∀ arg ∈ args, motive arg)
    number string column call binary unary unrecognized
    (fun _ h => absurd h List.not_mem_nil)
    (fun _ _ first rest arg h => (List.mem_cons.mp h).elim (fun h => h ▸ first)
      (rest arg)) e

/-! ## Lists of arguments -/

theorem argIdentifiers_eq_flatMap (args : List Expression) :
    argIdentifiers args = args.flatMap identifiers := by
  induction args with
  | nil => rfl
  | cons arg args ih => simp [argIdentifiers, ih]

theorem mapArgIdentifiers_eq_map (f : Identifier → Identifier)
    (args : List Expression) :
    mapArgIdentifiers f args = args.map (mapIdentifiers f) := by
  induction args with
  | nil => rfl
  | cons arg args ih => simp [mapArgIdentifiers, ih]

/-! ## Renaming -/

theorem identifiers_mapIdentifiers (f : Identifier → Identifier)
    (e : Expression) :
    (e.mapIdentifiers f).identifiers = e.identifiers.map f := by
  induction e using induct with
  | number value => rfl
  | string value => rfl
  | column id => rfl
  | call function args ih =>
      simp only [mapIdentifiers, identifiers, mapArgIdentifiers_eq_map,
        argIdentifiers_eq_flatMap, List.flatMap_map, List.map_flatMap]
      exact List.flatMap_congr ih
  | binary op left right ihLeft ihRight =>
      simp [mapIdentifiers, identifiers, ihLeft, ihRight]
  | unary op operand ih => simpa [mapIdentifiers, identifiers] using ih
  | unrecognized stored => rfl

theorem mapIdentifiers_mapIdentifiers (f g : Identifier → Identifier)
    (e : Expression) :
    (e.mapIdentifiers g).mapIdentifiers f = e.mapIdentifiers (f ∘ g) := by
  induction e using induct with
  | number value => rfl
  | string value => rfl
  | column id => rfl
  | call function args ih =>
      simp only [mapIdentifiers, mapArgIdentifiers_eq_map, List.map_map]
      exact congrArg _ (List.map_congr_left ih)
  | binary op left right ihLeft ihRight =>
      simp [mapIdentifiers, ihLeft, ihRight]
  | unary op operand ih => simp [mapIdentifiers, ih]
  | unrecognized stored => rfl

theorem mapIdentifiers_eq_self {f : Identifier → Identifier} {e : Expression}
    (h : ∀ id ∈ e.identifiers, f id = id) : e.mapIdentifiers f = e := by
  induction e using induct with
  | number value => rfl
  | string value => rfl
  | column id => simpa [mapIdentifiers, identifiers] using h
  | call function args ih =>
      simp only [identifiers, argIdentifiers_eq_flatMap, List.mem_flatMap] at h
      simp only [mapIdentifiers, mapArgIdentifiers_eq_map]
      have kept : args.map (mapIdentifiers f) = args.map id :=
        List.map_congr_left fun arg harg => ih arg harg fun i hi =>
          h i ⟨arg, harg, hi⟩
      rw [kept, List.map_id]
  | binary op left right ihLeft ihRight =>
      simp only [identifiers, List.mem_append] at h
      rw [mapIdentifiers, ihLeft fun i hi => h i (.inl hi),
        ihRight fun i hi => h i (.inr hi)]
  | unary op operand ih => rw [mapIdentifiers, ih h]
  | unrecognized stored => rfl

/-! ## References to aggregations -/

def aggregationRefs (e : Expression) : List Nat :=
  e.identifiers.filterMap (·.aggregationIndex?)

@[simp] theorem aggregationRefs_call (function : Function)
    (args : List Expression) :
    (call function args).aggregationRefs = args.flatMap aggregationRefs := by
  rw [aggregationRefs, identifiers, argIdentifiers_eq_flatMap,
    List.filterMap_flatMap]
  rfl

@[simp] theorem aggregationRefs_binary (op : BinaryOp)
    (left right : Expression) :
    (binary op left right).aggregationRefs =
      left.aggregationRefs ++ right.aggregationRefs :=
  List.filterMap_append

theorem mem_aggregationRefs {i : Nat} {e : Expression} :
    i ∈ e.aggregationRefs ↔ .aggregation i ∈ e.identifiers := by
  simp only [aggregationRefs, List.mem_filterMap]
  constructor
  · rintro ⟨id, hid, h⟩
    cases id <;> simp only [Identifier.aggregationIndex?, Option.some.injEq,
      reduceCtorEq] at h
    exact h ▸ hid
  · intro h
    exact ⟨_, h, rfl⟩

theorem aggregationRefs_eq_nil_iff {e : Expression} :
    e.aggregationRefs = [] ↔ ∀ id ∈ e.identifiers,
    id.aggregationIndex? = none :=
  List.filterMap_eq_nil_iff

theorem readsAggregation_iff {i : Nat} {e : Expression} :
    e.readsAggregation i = true ↔ i ∈ e.aggregationRefs := by
  simp [readsAggregation, aggregationRefs, List.mem_filterMap]

@[simp] theorem aggregationRefs_renumber (f : Nat → Nat) (e : Expression) :
    (e.renumber f).aggregationRefs = e.aggregationRefs.map f := by
  rw [aggregationRefs, renumber, identifiers_mapIdentifiers, aggregationRefs,
    List.filterMap_map, List.map_filterMap]
  congr 1
  funext id
  cases id <;> rfl

section

variable (f : Nat → Nat)

@[simp] theorem renumber_call (function : Function) (args : List Expression) :
    (call function args).renumber f = call function (args.map (renumber f)) :=
  congrArg _ (mapArgIdentifiers_eq_map _ args)

@[simp] theorem renumber_binary (op : BinaryOp) (left right : Expression) :
    (binary op left right).renumber f =
      binary op (left.renumber f) (right.renumber f) := rfl

@[simp] theorem renumber_unary (op : UnaryOp) (operand : Expression) :
    (unary op operand).renumber f = unary op (operand.renumber f) := rfl

end

theorem renumber_renumber (f g : Nat → Nat) (e : Expression) :
    (e.renumber g).renumber f = e.renumber (f ∘ g) := by
  rw [renumber, renumber, mapIdentifiers_mapIdentifiers, renumber]
  congr 1
  funext id
  cases id <;> rfl

theorem renumber_eq_self {f : Nat → Nat} {e : Expression}
    (h : ∀ i ∈ e.aggregationRefs, f i = i) : e.renumber f = e := by
  apply mapIdentifiers_eq_self
  intro id hid
  cases id with
  | aggregation i => simp [h i (mem_aggregationRefs.mpr hid)]
  | field id => rfl
  | foreign key id => rfl
  | customColumn name => rfl
  | stageColumn name kind => rfl

end TableQuery.Expression
