import TableQuery.Query.Basic

/-!
# Renumbering

Where the clauses of a list stand after one is inserted, erased or moved, and
how the references to aggregations and breakouts by position follow them.
-/

namespace TableQuery

/-! ## Positions in one list -/

/-- Where the clause at `i` stands once another is inserted at `index`. -/
def indexAfterInsert (index i : Nat) : Nat := if index ≤ i then i + 1 else i

def indexAfterErase (index i : Nat) : Nat := if index < i then i - 1 else i

/-- Where the clause at `i` stands once the one at `start` is moved to
`stop`. -/
def indexAfterMove (start stop i : Nat) : Nat :=
  if i = start then stop
  else if start < i ∧ i ≤ stop then i - 1
  else if stop ≤ i ∧ i < start then i + 1
  else i

theorem indexAfterErase_indexAfterInsert (index i : Nat) :
    indexAfterErase index (indexAfterInsert index i) = i := by
  simp only [indexAfterErase, indexAfterInsert]
  repeat' split <;> try omega

theorem indexAfterMove_indexAfterMove (start stop i : Nat) :
    indexAfterMove stop start (indexAfterMove start stop i) = i := by
  simp only [indexAfterMove]
  repeat' split <;> try omega

/-! ## References -/

def OrderTarget.mapAggregation (f : Nat → Nat) : OrderTarget → OrderTarget
  | aggregation i => aggregation (f i)
  | target => target

def OrderTarget.mapBreakout (f : Nat → Nat) : OrderTarget → OrderTarget
  | breakout i => breakout (f i)
  | target => target

def OrderTarget.isColumn : OrderTarget → Bool
  | column _ => true
  | _ => false

def OrderBy.mapTarget (f : OrderTarget → OrderTarget) (o : OrderBy) : OrderBy :=
  { o with target := f o.target }

def Aggregation.renumber (f : Nat → Nat) (a : Aggregation) : Aggregation :=
  { a with expression := a.expression.renumber f }

namespace Stage

def renumberExpressions (f : Nat → Nat) (s : Stage) : Stage :=
  { s with aggregations := s.aggregations.map (Aggregation.renumber f) }

def renumber (kind : ClauseKind) (f : Nat → Nat) (s : Stage) : Stage :=
  match kind with
  | .aggregation =>
    { s.renumberExpressions f with
      orderBy :=
        s.orderBy.map (OrderBy.mapTarget (OrderTarget.mapAggregation f)) }
  | .breakout =>
    { s with
      orderBy := s.orderBy.map (OrderBy.mapTarget (OrderTarget.mapBreakout f)) }
  | _ => s

def dropColumnSorts (s : Stage) : Stage :=
  { s with orderBy := s.orderBy.filter (!·.target.isColumn) }

def move (s : Stage) (position : ClausePosition) (stop : Nat) : Stage :=
  match s.clause? position with
  | some clause => (s.erase position).insert stop clause
  | none => s

end Stage

end TableQuery
