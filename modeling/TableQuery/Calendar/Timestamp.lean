import TableQuery.Calendar.Civil
import TableQuery.Text.Trim
import TableQuery.Word

/-!
# Timestamps

Temporal values as text: a date `2024-03-15`, a time `10:30:00`, or both with a
`T` or a blank between them.  Fractions of seconds and offsets from universal
time are read over.
-/

namespace TableQuery

structure Timestamp where
  date : Option CivilDate
  time : Option ClockTime
deriving DecidableEq, Repr

namespace Timestamp

/-! ## Pieces of text -/

def splitOnce? (p : Char → Bool) (cs : List Char) :
    Option (List Char × List Char) :=
  match cs.dropWhile (!p ·) with
  | [] => none
  | _ :: rest => some (cs.takeWhile (!p ·), rest)

def digits? (bound : Nat) (cs : List Char) : Option Nat :=
  if cs.isEmpty || !cs.all Char.isDigit then none
  else
    let n := cs.foldl (fun n c => 10 * n + (c.toNat - '0'.toNat)) 0
    if n < bound then some n else none

def number? (bound : Nat) : List Char → Option Nat
  | '+' :: cs => digits? bound cs
  | cs => digits? bound cs

/-! ## Reading -/

/-- A year, a month and a day between dashes.  A month may have up to 31
days. -/
def date? (cs : List Char) : Option CivilDate := do
  let (year, rest) ← splitOnce? (· == '-') cs
  let (month, day) ← splitOnce? (· == '-') rest
  let year ← number? (Word.size64 / 2) year
  let month ← number? Word.size32 month
  let day ← number? Word.size32 day
  if 1 ≤ month ∧ month ≤ 12 ∧ 1 ≤ day ∧ day ≤ 31 then some ⟨year, month, day⟩
  else none

def withoutOffset (cs : List Char) : List Char :=
  cs.takeWhile fun c => c != 'Z' && c != '+'

def time? (cs : List Char) : Option ClockTime := do
  let (hour, rest) ← splitOnce? (· == ':') (withoutOffset cs)
  let (minute, second) := match splitOnce? (· == ':') rest with
    | some (minute, second) => (minute, some second)
    | none => (rest, none)
  let hour ← number? Word.size32 hour
  let minute ← number? Word.size32 minute
  let second ← match second with
    | some second => number? Word.size32 (second.takeWhile (· != '.'))
    | none => some 0
  if hour < 24 ∧ minute < 60 ∧ second < 61 then some ⟨hour, minute, second⟩
  else none

def ofChars? (cs : List Char) : Option Timestamp :=
  let cs := Text.trim cs
  match splitOnce? (fun c => c == 'T' || c == ' ') cs with
  | some (date, time) => do
    let date ← date? date
    return ⟨some date, some (← time? time)⟩
  | none =>
    if cs.contains ':' then do return ⟨none, some (← time? cs)⟩
    else do return ⟨some (← date? cs), none⟩

def parse? (s : String) : Option Timestamp := ofChars? s.toList

/-! ## Writing -/

def padded (width n : Nat) : List Char :=
  let ds := Nat.toDigits 10 n
  List.replicate (width - ds.length) '0' ++ ds

/-- A year in four places at least, the sign among them. -/
def yearChars (year : Int) : List Char :=
  if year < 0 then '-' :: padded 3 year.natAbs else padded 4 year.natAbs

def dateChars (d : CivilDate) : List Char :=
  yearChars d.year ++ '-' :: padded 2 d.month ++ '-' :: padded 2 d.day

def timeChars (t : ClockTime) : List Char :=
  padded 2 t.hour ++ ':' :: padded 2 t.minute ++ ':' :: padded 2 t.second

def toChars (t : Timestamp) : List Char :=
  match t.date, t.time with
  | some date, some time => dateChars date ++ 'T' :: timeChars time
  | some date, none => dateChars date
  | none, some time => timeChars time
  | none, none => []

def render (t : Timestamp) : String := String.ofList t.toChars

end Timestamp

end TableQuery
