/-!
# Words

How many numbers the words of a machine can tell apart, for the values that are
stored or counted in them, and arithmetic in signed words of 64 bits.
-/

namespace TableQuery

namespace Word

/-- The numbers below it fit 32 bits. -/
def size32 : Nat := 4294967296

def size64 : Nat := 18446744073709551616

def size128 : Nat := 340282366920938463463374607431768211456

def fitsSigned (size : Nat) (n : Int) : Bool :=
  -((size / 2 : Nat) : Int) ≤ n && n < ((size / 2 : Nat) : Int)

end Word

/-- A number that is computed in signed words of 64 bits.  A result that does
not fit is an overflow, and so is everything that is computed from it. -/
inductive Word64 where
  | of (n : Int)
  | overflow
deriving DecidableEq, Repr

namespace Word64

instance (n : Nat) : OfNat Word64 n := ⟨of n⟩

def checked (n : Int) : Word64 :=
  if Word.fitsSigned Word.size64 n then of n else overflow

def binary (f : Int → Int → Int) : Word64 → Word64 → Word64
  | of m, of n => checked (f m n)
  | _, _ => overflow

instance : Add Word64 := ⟨binary (· + ·)⟩

instance : Sub Word64 := ⟨binary (· - ·)⟩

instance : Mul Word64 := ⟨binary (· * ·)⟩

/-- Division by a positive number, rounded down, cannot leave the range. -/
def div (a : Word64) (divisor : Nat) : Word64 :=
  match a with
  | of n => of (n / divisor)
  | overflow => overflow

def mod (a : Word64) (divisor : Nat) : Word64 :=
  match a with
  | of n => of (n % divisor)
  | overflow => overflow

def ifLess (a : Word64) (bound : Int) (yes no : Word64) : Word64 :=
  match a with
  | of n => if n < bound then yes else no
  | overflow => overflow

end Word64

end TableQuery
