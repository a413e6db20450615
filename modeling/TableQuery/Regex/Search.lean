import TableQuery.Regex.Syntax

/-!
# Searching with patterns

A pattern becomes a program, which runs over the text once with a list of
threads in order of preference.  The match found is the leftmost, and among
those the one that the pattern prefers.
-/

namespace TableQuery.Regex

/-! ## Programs -/

inductive Instruction where
  | consume (set : CharClass) (next : Nat)
  /-- Goes on in both ways, the first of which is preferred. -/
  | fork (first second : Nat)
  | save (slot next : Nat)
  | look (assertion : Assertion) (next : Nat)
  | jump (next : Nat)
  | accept

instance : Inhabited Instruction := ⟨.accept⟩

abbrev Program := Array Instruction

def emit (i : Instruction) (p : Program) : Nat × Program := (p.size, p.push i)

def forkBy (greedy : Bool) (inside outside : Nat) : Instruction :=
  if greedy then .fork inside outside else .fork outside inside

def matchesEmpty : Regex → Bool
  | .empty | .look _ => true
  | .char _ => false
  | .sequence a b => matchesEmpty a && matchesEmpty b
  | .either a b => matchesEmpty a || matchesEmpty b
  | .repeats min _ _ body => min == 0 || matchesEmpty body
  | .capture _ body => matchesEmpty body

def copies (compile : Nat → Program → Nat × Program) :
    (n : Nat) → (next : Nat) → Program →
    Nat × Program
  | 0, next, p => (next, p)
  | n + 1, next, p =>
    let (start, p) := compile next p
    copies compile n start p

def optionalCopies (compile : Nat → Program → Nat × Program) (greedy : Bool)
    (exit : Nat) :
    (n : Nat) → (next : Nat) → Program → Nat × Program
  | 0, next, p => (next, p)
  | n + 1, next, p =>
    let (start, p) := compile next p
    let (fork, p) := emit (forkBy greedy start exit) p
    optionalCopies compile greedy exit n fork p

def compile : Regex → (next : Nat) → Program → Nat × Program
  | .empty, next, p => (next, p)
  | .char set, next, p => emit (.consume set next) p
  | .look a, next, p => emit (.look a next) p
  | .sequence a b, next, p =>
    let (start, p) := compile b next p
    compile a start p
  | .either a b, next, p =>
    let (second, p) := compile b next p
    let (first, p) := compile a next p
    emit (.fork first second) p
  | .capture index body, next, p =>
    if index = 1 then
      let (close, p) := emit (.save 3 next) p
      let (start, p) := compile body close p
      emit (.save 2 start) p
    else compile body next p
  | .repeats min (some max) greedy body, next, p =>
    let (start, p) :=
      optionalCopies (compile body) greedy next (max - min) next p
    copies (compile body) min start p
  | .repeats min none greedy body, next, p =>
    let (loop, p) := emit (.jump next) p
    let (start, p) := compile body loop p
    let p := p.setIfInBounds loop (forkBy greedy start next)
    if min = 0 then
      if matchesEmpty body then emit (forkBy greedy start next) p else (loop, p)
    else copies (compile body) (min - 1) start p

/-! ## Threads -/

abbrev Slots := Array (Option Nat)

structure Place where
  position : Nat
  before : Option Char
  after : Option Char

def WordEdge.holds (isWord : Char → Bool) (p : Place) : WordEdge → Bool
  | .boundary => p.before.any isWord != p.after.any isWord
  | .notBoundary => p.before.any isWord == p.after.any isWord
  | .start => !p.before.any isWord && p.after.any isWord
  | .stop => p.before.any isWord && !p.after.any isWord
  | .startHalf => !p.before.any isWord
  | .stopHalf => !p.after.any isWord

def Assertion.holds (p : Place) : Assertion → Bool
  | .textStart => p.before.isNone
  | .textEnd => p.after.isNone
  | .lineStart carriageReturns =>
    p.before.isNone || p.before == some '\n' ||
      (carriageReturns && p.before == some '\r' && p.after != some '\n')
  | .lineEnd carriageReturns =>
    p.after.isNone || (carriageReturns && p.after == some '\r') ||
      (p.after == some '\n' && !(carriageReturns && p.before == some '\r'))
  | .word edge unicode =>
    edge.holds (if unicode then CharClass.isWord else CharClass.isAsciiWord) p

structure Threads where
  waiting : List (Nat × Slots)
  reached : Array Bool

/-- Follows instructions that read nothing, those on a stack in order of
preference. -/
def follow (program : Program) (place : Place) :
    (fuel : Nat) → (stack : List (Nat × Slots)) → Threads → Threads
  | 0, _, threads => threads
  | _ + 1, [], threads => threads
  | fuel + 1, (i, slots) :: stack, threads =>
    if threads.reached.getD i true then follow program place fuel stack threads
    else
      let threads :=
        { threads with reached := threads.reached.setIfInBounds i true }
      match program.getD i .accept with
      | .fork a b =>
        follow program place fuel ((a, slots) :: (b, slots) :: stack) threads
      | .jump next => follow program place fuel ((next, slots) :: stack) threads
      | .save slot next =>
        follow program place fuel
          ((next, slots.setIfInBounds slot (some place.position)) ::
            stack) threads
      | .look a next =>
        follow program place fuel (if a.holds place then (next, slots) :: stack
          else stack) threads
      | .consume _ _ | .accept =>
        follow program place fuel stack
          { threads with waiting := (i, slots) :: threads.waiting }

def enter (program : Program) (place : Place) (starts : List (Nat × Slots)) :
    List (Nat × Slots) :=
  (follow program place (3 * program.size + starts.length + 3) starts
    ⟨[], Array.replicate program.size false⟩).waiting.reverse

/-- Lets threads read a character, up to the first that accepts, whose slots are
the match. -/
def advance (program : Program) (c : Option Char) :
    List (Nat × Slots) → List (Nat × Slots) × Option Slots
  | [] => ([], none)
  | (i, slots) :: threads =>
    match program.getD i .accept with
    | .accept => ([], some slots)
    | .consume set next =>
      let (rest, found) := advance program c threads
      if c.any set.contains then ((next, slots) :: rest, found)
      else (rest, found)
    | _ => advance program c threads

def run (program : Program) (start : Nat) :
    (position : Nat) → (before : Option Char) →
    (best : Option Slots) → List (Nat × Slots) → List Char → Option Slots
  | position, before, best, threads, rest =>
    let place : Place := ⟨position, before, rest.head?⟩
    let fresh : List (Nat × Slots) :=
      if best.isNone then [(start, #[some position, none, none, none])] else []
    let waiting := enter program place (threads ++ fresh)
    let (threads, found) := advance program rest.head? waiting
    let best := match found with
      | some slots => some (slots.setIfInBounds 1 (some position))
      | none => best
    match rest with
    | [] => best
    | c :: rest =>
      if threads.isEmpty && best.isSome then best
      else run program start (position + 1) (some c) best threads rest

/-- The text of the first capture of the first match, or of the match if the
capture has no part in it. -/
def extract (r : Regex) (text : String) : Option String :=
  let (start, program) := compile r 0 #[.accept]
  let cs := text.toList
  match run program start 0 none none [] cs with
  | none => none
  | some slots =>
    let slice (a b : Nat) : String := String.ofList ((cs.drop a).take (b - a))
    match slots.getD 2 none, slots.getD 3 none with
    | some a, some b => some (slice a b)
    | _, _ =>
      match slots.getD 0 none, slots.getD 1 none with
      | some a, some b => some (slice a b)
      | _, _ => none

end TableQuery.Regex
