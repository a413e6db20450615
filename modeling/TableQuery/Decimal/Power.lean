import TableQuery.Decimal.Arithmetic

/-!
# Roots, powers, exponentials and logarithms of decimals

Square roots are found by Newton's iteration in decimal arithmetic, whole powers
by repeated squaring.  Exponentials and logarithms are summed as series over
integers that count `10 ^ -64`, and rounded to a decimal once.
-/

namespace TableQuery.Decimal

/-! ## Square root -/

/-- Repeats `r ↦ (r + x / r) / 2` until `r` no longer changes in value, `steps`
times at most. -/
def newton (x : Decimal) : (steps : Nat) → Decimal → Decimal
  | 0, r => r
  | steps + 1, r =>
    match (div? x r).bind (add? r ·) |>.bind (div? · two) with
    | none => r
    | some next => if next.sameValue r then next else newton x steps next

/-- There is no root of a decimal with a negative sign, not even of a negative
zero. -/
def sqrt? (x : Decimal) : Option Decimal :=
  if x.negative then none
  else if x.isZero then some zero
  else
    let half := (div? x two).getD x
    some (newton x 1000 (if half.isZero then x else half))

/-! ## Whole powers -/

def powTimes? (x product : Decimal) (n : Nat) : Option Decimal := do
  let product ← if n % 2 = 1 then mul? product x else some product
  if n < 2 then some product else powTimes? (← mul? x x) product (n / 2)
termination_by n
decreasing_by omega

def powNat? (x : Decimal) (n : Nat) : Option Decimal := powTimes? x one n

/-! ## Series -/

def seriesUnit : Nat := scaleFactor 64

/-- The sum of `term * x ^ i * k! / (k + i)!` over `i`, until a term
vanishes. -/
def expTail (x : Nat) : (fuel k term : Nat) → Nat
  | 0, _, _ => 0
  | fuel + 1, k, term =>
    if term = 0 then 0
    else term + expTail x fuel (k + 1) (term * x / (seriesUnit * (k + 1)))

def expUnsigned? (x : Decimal) : Option Decimal :=
  if x.coefficient ≥ 67 * scaleFactor x.scale then none
  else
    let fixed := x.coefficient * scaleFactor (64 - x.scale)
    ofRatio? false (expTail fixed 1000 0 seriesUnit) seriesUnit maxScale

def exp? (x : Decimal) : Option Decimal :=
  if x.isZero then some one
  else if x.negative then (expUnsigned? x.abs).bind (div? one ·)
  else expUnsigned? x

def atanhTail (ySquared : Nat) : (fuel k power : Nat) → Nat
  | 0, _, _ => 0
  | fuel + 1, k, power =>
    if power = 0 then 0
    else power / k + atanhTail ySquared fuel (k + 2)
      (power * ySquared / seriesUnit)

def logBelowTwo (num den : Nat) : Nat :=
  let y := (num - den) * seriesUnit / (num + den)
  2 * atanhTail (y * y / seriesUnit) 400 1 y

def logSeries (num den : Nat) : Int :=
  let k : Int := (num.log2 : Int) - den.log2
  let k := if num <<< (-k).toNat < den <<< k.toNat then k - 1 else k
  k * logBelowTwo 2 1 + logBelowTwo (num <<< (-k).toNat) (den <<< k.toNat)

def ofSeries? (n : Int) : Option Decimal :=
  ofRatio? (n < 0) n.natAbs seriesUnit maxScale

def ln? (x : Decimal) : Option Decimal :=
  if x.isZero then none
  else ofSeries? (logSeries x.coefficient (scaleFactor x.scale))

def powerOfTen? (x : Decimal) : Option Int :=
  let (digit, zerosLeft) := stripZeros x.coefficient maxScale
  if digit = 1 then some ((maxScale - zerosLeft : Nat) - (x.scale : Int))
  else none

def log10? (x : Decimal) : Option Decimal :=
  if x.isZero || x.negative then none
  else
    match powerOfTen? x with
    | some n => ofParts? (n < 0) n.natAbs 0
    | none =>
      let n := logSeries x.coefficient (scaleFactor x.scale)
      ofRatio? (n < 0) n.natAbs (logSeries 10 1).toNat maxScale

/-- The power with any exponent.  A fractional power is taken of the absolute
value and gets the sign of the base. -/
def pow? (x exponent : Decimal) : Option Decimal :=
  if exponent.isZero then some one
  else if x.isZero then some zero
  else if x.sameValue one then some one
  else if exponent.sameValue one then some x
  else
    let n := exponent.normalize
    if n.scale = 0 then
      if n.coefficient ≥ Word.size32 then none
      else if n.negative then (powNat? x n.coefficient).bind (div? one ·)
      else powNat? x n.coefficient
    else do
      let scaled ← mul? (← ln? x) n
      let power ← exp? scaled
      some { power with negative := x.negative }

end TableQuery.Decimal
