/-!
# Bounded decimals

A decimal is a sign, a coefficient below `2 ^ 96` and a scale of at most 28; it
stands for `± coefficient / 10 ^ scale`.  Two decimals of one value may differ
in scale, and a zero may carry either sign, so comparison by value is kept apart
from equality of representations.
-/

namespace TableQuery

namespace Decimal

def coefficientBound : Nat := 79228162514264337593543950336

def maxScale : Nat := 28

def scaleFactor (scale : Nat) : Nat := Nat.pow 10 scale

theorem scaleFactor_succ (scale : Nat) :
    scaleFactor (scale + 1) = scaleFactor scale * 10 := rfl

theorem scaleFactor_pos (scale : Nat) : 0 < scaleFactor scale := by
  induction scale with
  | zero => decide
  | succ scale ih =>
    rw [scaleFactor_succ]
    omega

end Decimal

structure Decimal where
  negative : Bool
  coefficient : Nat
  scale : Nat
  coefficient_lt : coefficient < Decimal.coefficientBound
  scale_le : scale ≤ Decimal.maxScale
deriving DecidableEq, Repr

namespace Decimal

def ofParts? (negative : Bool) (coefficient scale : Nat) : Option Decimal :=
  if h : coefficient < coefficientBound ∧ scale ≤ maxScale then
    some ⟨negative, coefficient, scale, h.1, h.2⟩
  else none

/-- A count as a decimal; counts beyond the largest coefficient saturate. -/
def ofNat (n : Nat) : Decimal :=
  ⟨false, min n (coefficientBound - 1), 0, by unfold coefficientBound; omega,
    Nat.zero_le _⟩

def zero : Decimal := ofNat 0

def one : Decimal := ofNat 1

def two : Decimal := ofNat 2

def half : Decimal := ⟨false, 5, 1, by decide, by decide⟩

instance : Inhabited Decimal := ⟨zero⟩

def isZero (d : Decimal) : Bool := d.coefficient == 0

def signed (d : Decimal) : Int :=
  if d.negative then -(d.coefficient : Int)
  else d.coefficient

/-! ## Comparison by value -/

def compare (a b : Decimal) : Ordering :=
  Ord.compare (a.signed * scaleFactor b.scale) (b.signed * scaleFactor a.scale)

def sameValue (a b : Decimal) : Bool := a.compare b == .eq

def le (a b : Decimal) : Bool := (a.compare b).isLE

def lt (a b : Decimal) : Bool := (a.compare b).isLT

/-! ## Sign -/

/-- Flips the sign; a zero keeps the flipped sign too. -/
def neg (d : Decimal) : Decimal := { d with negative := !d.negative }

def abs (d : Decimal) : Decimal := { d with negative := false }

/-! ## Canonical form -/

/-- Removes trailing zeros of the fraction from a coefficient and its scale. -/
def stripZeros (coefficient : Nat) : (scale : Nat) → Nat × Nat
  | 0 => (coefficient, 0)
  | scale + 1 =>
    if coefficient % 10 = 0 then stripZeros (coefficient / 10) scale
    else (coefficient, scale + 1)

theorem stripZeros_fst_le (c s : Nat) : (stripZeros c s).1 ≤ c := by
  induction s generalizing c with
  | zero => simp [stripZeros]
  | succ s ih =>
    simp only [stripZeros]
    split
    · exact Nat.le_trans (ih _) (Nat.div_le_self _ _)
    · exact Nat.le_refl _

theorem stripZeros_snd_le (c s : Nat) : (stripZeros c s).2 ≤ s := by
  induction s generalizing c with
  | zero => simp [stripZeros]
  | succ s ih =>
    simp only [stripZeros]
    split
    · exact Nat.le_succ_of_le (ih _)
    · exact Nat.le_refl _

def normalize (d : Decimal) : Decimal :=
  if d.coefficient = 0 then zero
  else
    ⟨d.negative, (stripZeros d.coefficient d.scale).1,
      (stripZeros d.coefficient d.scale).2,
      Nat.lt_of_le_of_lt (stripZeros_fst_le _ _) d.coefficient_lt,
      Nat.le_trans (stripZeros_snd_le _ _) d.scale_le⟩

/-! ## Text -/

def digits (d : Decimal) : List Char :=
  let ds := Nat.toDigits 10 d.coefficient
  List.replicate (d.scale + 1 - ds.length) '0' ++ ds

def toChars (d : Decimal) : List Char :=
  let ds := d.digits
  let whole := ds.take (ds.length - d.scale)
  let fraction := ds.drop (ds.length - d.scale)
  (if d.negative then ['-'] else []) ++ whole ++
    (if d.scale = 0 then [] else '.' :: fraction)

def render (d : Decimal) : String := String.ofList d.toChars

def digitsValue (ds : List Char) : Nat :=
  ds.foldl (fun n c => 10 * n + (c.toNat - '0'.toNat)) 0

def unsigned? (negative : Bool) (cs : List Char) : Option Decimal :=
  let whole := cs.takeWhile Char.isDigit
  if whole.isEmpty then none
  else
    match cs.dropWhile Char.isDigit with
    | [] => number whole []
    | '.' :: fraction =>
      if !fraction.isEmpty && fraction.all Char.isDigit then
        number whole fraction
      else none
    | _ => none
where
  number (whole fraction : List Char) : Option Decimal :=
    let value := digitsValue (whole ++ fraction)
    ofParts? (negative && value != 0) value fraction.length

/-- Reads a decimal exactly or not at all; a zero loses its sign. -/
def ofChars? : List Char → Option Decimal
  | '-' :: cs => unsigned? true cs
  | '+' :: cs => unsigned? false cs
  | cs => unsigned? false cs

def ofString? (s : String) : Option Decimal := ofChars? s.toList

end Decimal

end TableQuery
