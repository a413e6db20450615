import TableQuery.Decimal.Basic
import TableQuery.Word

/-!
# Decimal arithmetic

Every operation takes the exact rational result and rounds it once, half to
even, at the largest scale that fits (`ofRatio?`).  There is no result when the
value does not fit even at scale zero.
-/

namespace TableQuery.Decimal

/-- The quotient rounded to the nearest integer, a half to the even
neighbour. -/
def divHalfEven (num den : Nat) : Nat :=
  let q := num / den
  let r := num % den
  if den < 2 * r ∨ (2 * r = den ∧ q % 2 = 1) then q + 1 else q

theorem divHalfEven_le (num den : Nat) :
    divHalfEven num den ≤ num / den + 1 := by
  unfold divHalfEven
  simp only
  split <;> omega

/-- The decimal nearest to `num / den` at the largest scale, up to `limit`, at
which it fits. -/
def ofRatio? (negative : Bool) (num den : Nat) : (limit : Nat) → Option Decimal
  | 0 => ofParts? negative (divHalfEven num den) 0
  | limit + 1 =>
    match ofParts? negative (divHalfEven (num * scaleFactor (limit + 1)) den)
      (limit + 1) with
    | some d => some d
    | none => ofRatio? negative num den limit

/-! ## The four operations -/

def add? (a b : Decimal) : Option Decimal :=
  if a.isZero then some b
  else if b.isZero then some a
  else
    let scale := max a.scale b.scale
    let total := a.signed * scaleFactor (scale - a.scale) +
      b.signed * scaleFactor (scale - b.scale)
    ofRatio? (total < 0) total.natAbs (scaleFactor scale) scale

def sub? (a b : Decimal) : Option Decimal :=
  if b.isZero then some (if a.isZero then b else a) else add? a b.neg

def mul? (a b : Decimal) : Option Decimal :=
  if a.isZero || b.isZero then some zero
  else
    let scale := a.scale + b.scale
    ofRatio? (a.negative != b.negative) (a.coefficient * b.coefficient)
      (scaleFactor scale) (min maxScale scale)

def shorten (floor : Nat) (d : Decimal) : Decimal :=
  let parts := stripZeros d.coefficient (d.scale - floor)
  if h : parts.1 < coefficientBound ∧
    parts.2 + min floor d.scale ≤ maxScale then
    ⟨d.negative, parts.1, parts.2 + min floor d.scale, h.1, h.2⟩
  else d

/-- There is no quotient by zero.  An exact quotient keeps no more digits than
it needs. -/
def div? (a b : Decimal) : Option Decimal :=
  if b.isZero then none
  else if a.isZero then some zero
  else
    let num := a.coefficient * scaleFactor b.scale
    let den := b.coefficient * scaleFactor a.scale
    (ofRatio? (a.negative != b.negative) num den maxScale).map fun q =>
      if q.coefficient * den = num * scaleFactor q.scale then
        shorten (a.scale - b.scale) q
      else q

/-! ## Whole numbers -/

theorem ten_le_scaleFactor {scale : Nat} (h : scale ≠ 0) :
    10 ≤ scaleFactor scale := by
  obtain ⟨s, rfl⟩ := Nat.exists_eq_succ_of_ne_zero h
  have := scaleFactor_pos s
  rw [Nat.succ_eq_add_one, scaleFactor_succ]
  omega

theorem whole_succ_lt (d : Decimal) (h : d.scale ≠ 0) :
    d.coefficient / scaleFactor d.scale + 1 < coefficientBound := by
  have hc := d.coefficient_lt
  have : d.coefficient / scaleFactor d.scale ≤ d.coefficient / 10 :=
    Nat.div_le_div_left (ten_le_scaleFactor h) (by decide)
  unfold coefficientBound at *
  omega

def hasFraction (d : Decimal) : Bool := d.coefficient % scaleFactor d.scale != 0

def trunc (d : Decimal) : Decimal :=
  ⟨d.negative, d.coefficient / scaleFactor d.scale, 0,
    Nat.lt_of_le_of_lt (Nat.div_le_self _ _) d.coefficient_lt, Nat.zero_le _⟩

def awayFromZero (d : Decimal) (h : d.scale ≠ 0) : Decimal :=
  ⟨d.negative, d.coefficient / scaleFactor d.scale + 1, 0, whole_succ_lt d h,
    Nat.zero_le _⟩

def floor (d : Decimal) : Decimal :=
  if h : d.scale = 0 then d
  else if d.negative && d.hasFraction then awayFromZero d h else trunc d

def ceil (d : Decimal) : Decimal :=
  if h : d.scale = 0 then d
  else if !d.negative && d.hasFraction then awayFromZero d h else trunc d

def round (d : Decimal) : Decimal :=
  if h : d.scale = 0 then d
  else
    ⟨d.negative, divHalfEven d.coefficient (scaleFactor d.scale), 0,
      Nat.lt_of_le_of_lt (divHalfEven_le _ _) (whole_succ_lt d h),
      Nat.zero_le _⟩

def toInt (d : Decimal) : Int :=
  let n : Nat := d.coefficient / scaleFactor d.scale
  if d.negative then -(n : Int) else n

def toInt64? (d : Decimal) : Option Int :=
  let n := d.toInt
  if Word.fitsSigned Word.size64 n then some n else none

end TableQuery.Decimal
