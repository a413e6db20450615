import TableQuery.Decimal.Basic
import TableQuery.Word

/-!
# Numbers of the stored form

Numbers are read exactly or not at all, in plain or in scientific notation.  An
exponent is taken into the scale or multiplied out in words of 64 and 128 bits,
almost all of which are checked.
-/

namespace TableQuery.Wire

inductive Misfit where
  | refused
  | overflow
deriving DecidableEq, Repr

/-! ## Words -/

def orRefused {α : Type} : Option α → Except Misfit α
  | some a => .ok a
  | none => .error .refused

def checked (size : Nat) (n : Int) : Except Misfit Int :=
  if Word.fitsSigned size n then .ok n else .error .refused

/-- A result that has to fit a signed word without a check. -/
def unchecked (size : Nat) (n : Int) : Except Misfit Int :=
  if Word.fitsSigned size n then .ok n else .error .overflow

def unsigned32 (n : Int) : Except Misfit Nat :=
  if 0 ≤ n && n < Word.size32 then .ok n.toNat else .error .refused

def magnitude64? (negative : Bool) (digits : List Char) : Option Int :=
  if digits.isEmpty || !digits.all Char.isDigit then none
  else
    let magnitude : Int := Decimal.digitsValue digits
    let n := if negative then -magnitude else magnitude
    if Word.fitsSigned Word.size64 n then some n else none

def int64? : List Char → Option Int
  | '-' :: digits => magnitude64? true digits
  | '+' :: digits => magnitude64? false digits
  | digits => magnitude64? false digits

/-! ## Decimals -/

def ofSigned (n : Int) (scale : Nat) : Except Misfit Decimal :=
  orRefused (Decimal.ofParts? (n < 0) n.natAbs scale)

/-- A factor times a power of ten.  It is given up at the first product that is
too large, so a large power takes no longer than a small one. -/
def timesPowerOfTen (factor : Int) : (power : Nat) → Except Misfit Int
  | 0 => .ok factor
  | power + 1 => do timesPowerOfTen (← checked Word.size128 (factor * 10)) power

def scaleBy (m : Decimal) (exponent : Int) : Except Misfit Decimal := do
  let scale ← checked Word.size64 (m.scale - exponent)
  if 0 ≤ scale then ofSigned m.signed (← unsigned32 scale)
  else
    let factor ←
      timesPowerOfTen 1 (← unsigned32 (← unchecked Word.size64 (-scale)))
    ofSigned (← checked Word.size128 (m.signed * factor)) 0

def exactDecimal (text : String) : Except Misfit Decimal :=
  let isMark (c : Char) : Bool := c == 'e' || c == 'E'
  let cs := text.toList
  match cs.dropWhile (!isMark ·) with
  | [] => orRefused (Decimal.ofChars? cs)
  | _ :: exponent => do
    let m ← orRefused (Decimal.ofChars? (cs.takeWhile (!isMark ·)))
    scaleBy m (← orRefused (int64? exponent))

def exactDecimal? (text : String) : Option Decimal :=
  (exactDecimal text).toOption

end TableQuery.Wire
