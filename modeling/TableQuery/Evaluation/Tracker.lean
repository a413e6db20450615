import TableQuery.Evaluation.Query
import TableQuery.Fingerprint.Basic

/-!
# Tracking runs

A tracker remembers the state of the query that was submitted last, so that the
result of a run that was overtaken by a later submission can be told apart and
left out.
-/

namespace TableQuery

structure RunRequest where
  fingerprint : Fingerprint
  draft : Draft
deriving Repr

def RunRequest.ofDraft (d : Draft) : Except WireError RunRequest := do
  return ⟨← d.fingerprint, d⟩

inductive Outcome (α : Type) where
  | current (value : α)
  | stale (fingerprint : Fingerprint)
deriving Repr

structure Tracker where
  latest : Option Fingerprint := none
  submissions : Nat := 0
deriving DecidableEq, Repr

namespace Tracker

instance : Inhabited Tracker := ⟨{}⟩

def submit (t : Tracker) (d : Draft) :
    Except WireError (Tracker × RunRequest) := do
  let request ← RunRequest.ofDraft d
  return (⟨some request.fingerprint, t.submissions + 1⟩, request)

/-- Judges a finished run: it counts if the latest state has its fingerprint. -/
def accept {α : Type} (t : Tracker) (request : RunRequest) (value : α) :
    Outcome α :=
  if t.latest = some request.fingerprint then .current value
  else .stale request.fingerprint

def run (t : Tracker) (db : Database) (d : Draft) :
    Tracker × Except EvaluationError (Outcome ResultSet) :=
  match t.submit d with
  | .error e => (t, .error (.wire e))
  | .ok (t, request) => (t, (db.run request.draft.query).map (t.accept request))

def changedSince (t : Tracker) (seen : Nat) : Bool := t.submissions != seen

end Tracker

end TableQuery
