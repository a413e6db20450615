import TableQuery.Word

/-!
# Arithmetic in words

A computation in words holds the number that integers of any size give, as long
as every result on the way to it fits its word (`Word64.Computes`).
-/

namespace TableQuery

namespace Word

variable {size : Nat} {n : Int}

theorem fitsSigned_iff : fitsSigned size n = true ↔
    -((size / 2 : Nat) : Int) ≤ n ∧ n < (size / 2 : Nat) := by
  simp only [fitsSigned, Bool.and_eq_true, decide_eq_true_eq]

theorem fitsSigned_size64_iff : fitsSigned size64 n = true ↔
    -9223372036854775808 ≤ n ∧ n < 9223372036854775808 := by
  have hsize : ((size64 / 2 : Nat) : Int) = 9223372036854775808 := rfl
  rw [fitsSigned_iff, hsize]

end Word

namespace Word64

variable {a b yes no : Word64} {m n bound : Int} {f : Int → Int → Int}

theorem checked_eq_of_iff : checked m = of n ↔
    (-9223372036854775808 ≤ m ∧ m < 9223372036854775808) ∧ m = n := by
  rw [checked, ← Word.fitsSigned_size64_iff]
  split
  case isTrue hfits => simp [hfits]
  case isFalse hfits => simp [hfits]

theorem binary_eq_of_iff : binary f a b = of n ↔
    ∃ i j, a = of i ∧ b = of j ∧ checked (f i j) = of n := by
  constructor
  · cases a <;> cases b <;> intro h
    case of.of i j => exact ⟨i, j, rfl, rfl, h⟩
    all_goals cases h
  · rintro ⟨i, j, rfl, rfl, h⟩
    exact h

/-- The word holds a number: no result on the way to it was an overflow. -/
structure Computes (w : Word64) (n : Int) : Prop where
  eq_of : w = of n

namespace Computes

theorem of (n : Int) : (Word64.of n).Computes n := ⟨rfl⟩

theorem ofNat (n : Nat) : (OfNat.ofNat n : Word64).Computes n := ⟨rfl⟩

theorem binary (ha : a.Computes m) (hb : b.Computes n)
    (h : -9223372036854775808 ≤ f m n ∧ f m n < 9223372036854775808) :
    (Word64.binary f a b).Computes (f m n) :=
  ⟨binary_eq_of_iff.mpr ⟨m, n, ha.eq_of, hb.eq_of,
    checked_eq_of_iff.mpr ⟨h, rfl⟩⟩⟩

theorem add (ha : a.Computes m) (hb : b.Computes n)
    (h : -9223372036854775808 ≤ m + n ∧ m + n < 9223372036854775808) :
    (a + b).Computes (m + n) := ha.binary hb h

theorem sub (ha : a.Computes m) (hb : b.Computes n)
    (h : -9223372036854775808 ≤ m - n ∧ m - n < 9223372036854775808) :
    (a - b).Computes (m - n) := ha.binary hb h

theorem mul (ha : a.Computes m) (hb : b.Computes n)
    (h : -9223372036854775808 ≤ m * n ∧ m * n < 9223372036854775808) :
    (a * b).Computes (m * n) := ha.binary hb h

theorem div (ha : a.Computes m) (divisor : Nat) :
    (a.div divisor).Computes (m / divisor) := by
  rw [ha.eq_of]
  exact .of _

theorem mod (ha : a.Computes m) (divisor : Nat) :
    (a.mod divisor).Computes (m % divisor) := by
  rw [ha.eq_of]
  exact .of _

theorem ifLess (ha : a.Computes m) (hyes : m < bound → yes.Computes n)
    (hno : ¬m < bound → no.Computes n) :
    (a.ifLess bound yes no).Computes n := by
  rw [ha.eq_of, Word64.ifLess]
  split
  case isTrue hlt => exact hyes hlt
  case isFalse hlt => exact hno hlt

end Computes

end Word64

end TableQuery
