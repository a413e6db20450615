import Mathlib.Data.String.Basic
import TableQuery.Formula.Span

/-!
# Texts at spans

A span cuts a text out of a formula, unless it leaves the formula or divides a
character.
-/

namespace TableQuery

/-! ## Lengths in bytes -/

@[simp] theorem byteLength_nil : byteLength [] = 0 := rfl

@[simp] theorem byteLength_cons (c : Char) (cs : List Char) :
    byteLength (c :: cs) = c.utf8Size + byteLength cs := rfl

@[simp] theorem byteLength_append (cs cs' : List Char) :
    byteLength (cs ++ cs') = byteLength cs + byteLength cs' := by
  induction cs with
  | nil => simp
  | cons c cs ih =>
      simp [ih]
      omega

theorem utf8ByteSize_ofList (cs : List Char) :
    (String.ofList cs).utf8ByteSize = byteLength cs := by
  induction cs with
  | nil => rfl
  | cons c cs ih =>
      rw [String.ofList_cons, String.utf8ByteSize_append,
        String.utf8ByteSize_singleton, ih, byteLength_cons]

theorem byteLength_toList (s : String) :
    byteLength s.toList = s.utf8ByteSize := by
  rw [← utf8ByteSize_ofList, String.ofList_toList]

/-! ## Cutting at an offset -/

def splitAtByte? : Nat → List Char → Option (List Char × List Char)
  | 0, cs => some ([], cs)
  | _ + 1, [] => none
  | offset + 1, c :: cs =>
    if c.utf8Size ≤ offset + 1 then
      (splitAtByte? (offset + 1 - c.utf8Size) cs).map fun (before, rest) =>
        (c :: before, rest)
    else none

theorem splitAtByte?_append (before rest : List Char) :
    splitAtByte? (byteLength before) (before ++ rest) =
      some (before, rest) := by
  induction before with
  | nil => cases rest <;> rfl
  | cons c before ih =>
      have hpos := c.utf8Size_pos
      obtain ⟨n, hn⟩ : ∃ n, byteLength (c :: before) = n + 1 :=
        ⟨c.utf8Size + byteLength before - 1, by rw [byteLength_cons]; omega⟩
      have hrest : n + 1 - c.utf8Size = byteLength before := by
        rw [byteLength_cons] at hn
        omega
      rw [hn, List.cons_append, splitAtByte?, hrest, ih,
        if_pos (by rw [byteLength_cons] at hn; omega)]
      rfl

theorem splitAtByte?_eq_some_iff {offset : Nat} {cs before rest : List Char} :
    splitAtByte? offset cs = some (before, rest) ↔
      cs = before ++ rest ∧ byteLength before = offset := by
  constructor
  · intro h
    induction cs generalizing offset before with
    | nil =>
        cases offset with
        | zero =>
            cases h
            simp
        | succ offset => cases h
    | cons c cs ih =>
        cases offset with
        | zero =>
            cases h
            simp
        | succ offset =>
            rw [splitAtByte?] at h
            split at h
            case isTrue hle =>
                rw [Option.map_eq_some_iff] at h
                rcases h with ⟨⟨before', rest'⟩, hcut, heq⟩
                cases heq
                rcases ih hcut with ⟨rfl, hlength⟩
                constructor
                · rfl
                · rw [byteLength_cons]
                  omega
            case isFalse => cases h
  · rintro ⟨rfl, rfl⟩
    exact splitAtByte?_append before rest

/-! ## Texts -/

namespace Span

def text? (source : String) (span : Span) : Option String :=
  match splitAtByte? span.stop source.toList with
  | none => none
  | some (upTo, _) => (splitAtByte? span.start upTo).map fun (_, text) =>
    String.ofList text

theorem text?_eq_some_iff {source text : String} {span : Span} :
    span.text? source = some text ↔
      ∃ before after, source.toList = before ++ text.toList ++ after ∧
        byteLength before = span.start ∧
        byteLength (before ++ text.toList) = span.stop := by
  unfold text?
  constructor
  · intro h
    split at h
    case h_1 => cases h
    case h_2 upTo after hupTo =>
        rw [Option.map_eq_some_iff] at h
        rcases h with ⟨⟨before, cs⟩, hcut, rfl⟩
        rcases splitAtByte?_eq_some_iff.mp hupTo with ⟨hsource, hstop⟩
        rcases splitAtByte?_eq_some_iff.mp hcut with ⟨rfl, hstart⟩
        use before, after
        rw [String.toList_ofList]
        exact ⟨hsource, hstart, hstop⟩
  · rintro ⟨before, after, hsource, hstart, hstop⟩
    rw [hsource, ← hstop, splitAtByte?_append]
    dsimp only
    rw [← hstart, splitAtByte?_append, Option.map_some, String.ofList_toList]

/-- The span does not run backwards, it ends in the source, and both its ends
are between two characters. -/
def InSource (source : String) (span : Span) : Prop :=
  span.start ≤ span.stop ∧ span.stop ≤ source.utf8ByteSize ∧
  (span.text? source).isSome

theorem inSource_iff {source : String} {span : Span} :
    span.InSource source ↔ ∃ before text after,
    source.toList = before ++ text ++ after ∧
      span = ⟨byteLength before, byteLength (before ++ text)⟩ := by
  constructor
  · rintro ⟨-, -, htext⟩
    rcases Option.isSome_iff_exists.mp htext with ⟨text, htext⟩
    rcases text?_eq_some_iff.mp htext with
      ⟨before, after, hsource, hstart, hstop⟩
    use before, text.toList, after
    rw [hstart, hstop]
    exact ⟨hsource, rfl⟩
  · rintro ⟨before, text, after, hsource, rfl⟩
    have htext :
        (Span.mk (byteLength before) (byteLength (before ++ text))).text?
          source = some (String.ofList text) :=
      text?_eq_some_iff.mpr ⟨before, after, by simpa using hsource, rfl,
        by simp⟩
    refine ⟨?_, ?_, by rw [htext]; rfl⟩
    · simp
    · rw [← byteLength_toList, hsource]
      simp

def Inside (inner outer : Span) : Prop :=
  outer.start ≤ inner.start ∧ inner.stop ≤ outer.stop

end Span

end TableQuery
