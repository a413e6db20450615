import Mathlib.Data.List.Basic
import TableQuery.Compilation.Resolution

/-!
# Cutting names into segments

A qualified name joins the segments of a path with a separator between blanks.
Cutting it gives the segments back, unless one of them has blanks at its ends or
holds a separator itself.
-/

namespace TableQuery

/-! ## Texts -/

namespace Text

theorem trim_blank_cons (cs : List Char) : trim (' ' :: cs) = trim cs := rfl

theorem trim_append_blank (cs : List Char) : trim (cs ++ [' ']) = trim cs := by
  have hend : ∀ cs : List Char, trimEnd (cs ++ [' ']) = trimEnd cs := by
    intro cs
    rw [trimEnd, List.reverse_append]
    rfl
  rw [trim, trim, trimStart, trimStart, List.dropWhile_append]
  split
  case isTrue h =>
      rw [List.isEmpty_iff.mp h]
      rfl
  case isFalse => exact hend _

theorem isPrefixOf_of_suffix {find cs : List Char}
    (h : isInfixOf find cs = false) {c : Char} {tail : List Char}
    (hsuffix : c :: tail <:+ cs) : find.isPrefixOf (c :: tail) = false := by
  induction cs with
  | nil => cases List.suffix_nil.mp hsuffix
  | cons x cs ih =>
      obtain ⟨hfirst, hrest⟩ := Bool.or_eq_false_iff.mp h
      rcases List.suffix_cons_iff.mp hsuffix with heq | hsuffix
      · exact heq ▸ hfirst
      · exact ih hrest hsuffix

theorem replaceFrom_append {find replacement cs rest : List Char}
    (h : ∀ c tail, c :: tail <:+ cs →
      find.isPrefixOf (c :: (tail ++ rest)) = false) :
    replaceFrom find replacement 0 (cs ++ rest) =
      cs ++ replaceFrom find replacement 0 rest := by
  induction cs with
  | nil => rfl
  | cons c cs ih =>
      have hrest := ih fun d tail hsuffix =>
        h d tail (hsuffix.trans (List.suffix_cons c cs))
      rw [List.cons_append, replaceFrom, h c cs List.suffix_rfl, hrest]
      rfl

theorem replaceFrom_eq_self {find replacement cs : List Char}
    (h : isInfixOf find cs = false) :
    replaceFrom find replacement 0 cs = cs := by
  have happend : replaceFrom find replacement 0 (cs ++ []) = cs ++ [] := by
    refine replaceFrom_append fun c tail hsuffix => ?_
    rw [List.append_nil]
    exact isPrefixOf_of_suffix h hsuffix
  rwa [List.append_nil] at happend

theorem replaceFrom_single_append {a : Char} {replacement cs : List Char}
    (h : isInfixOf [a] cs = false) (rest : List Char) :
    replaceFrom [a] replacement 0 (cs ++ rest) =
      cs ++ replaceFrom [a] replacement 0 rest := by
  refine replaceFrom_append fun c tail hsuffix => ?_
  simpa [List.isPrefixOf] using isPrefixOf_of_suffix h hsuffix

/-- An occurrence of two characters does not reach over one that is not the
second of them. -/
theorem replaceFrom_pair_append {a b c : Char} (hc : b ≠ c)
    {replacement cs : List Char} (h : isInfixOf [a, b] cs = false)
    (rest : List Char) :
    replaceFrom [a, b] replacement 0 (cs ++ c :: rest) =
      cs ++ replaceFrom [a, b] replacement 0 (c :: rest) := by
  refine replaceFrom_append fun d tail hsuffix => ?_
  cases tail with
  | nil => simp [List.isPrefixOf, hc]
  | cons e tail => simpa [List.isPrefixOf] using isPrefixOf_of_suffix h hsuffix

theorem splitOn_of_not_mem {mark : Char} {cs : List Char} (h : mark ∉ cs) :
    splitOn mark cs = [cs] := by
  induction cs with
  | nil => rfl
  | cons c cs ih =>
      rw [List.mem_cons, not_or] at h
      simp [splitOn, Ne.symm h.1, ih h.2]

theorem splitOn_append_cons {mark : Char} {cs : List Char} (h : mark ∉ cs)
    (rest : List Char) :
    splitOn mark (cs ++ mark :: rest) = cs :: splitOn mark rest := by
  induction cs with
  | nil => simp [splitOn]
  | cons c cs ih =>
      rw [List.mem_cons, not_or] at h
      simp [splitOn, Ne.symm h.1, ih h.2]

theorem replaceFrom_intercalate {find replacement joint joint' : List Char}
    {pieces : List (List Char)}
    (hpiece : ∀ cs ∈ pieces, isInfixOf find cs = false)
    (hjoint : ∀ cs ∈ pieces, ∀ rest,
      replaceFrom find replacement 0 (cs ++ joint ++ rest) =
        cs ++ joint' ++ replaceFrom find replacement 0 rest) :
    replaceFrom find replacement 0 (joint.intercalate pieces) =
      joint'.intercalate pieces := by
  induction pieces with
  | nil => rfl
  | cons cs pieces ih =>
      cases pieces with
      | nil => simpa using replaceFrom_eq_self (hpiece cs List.mem_cons_self)
      | cons next pieces =>
          rw [List.intercalate_cons_cons, List.intercalate_cons_cons,
            hjoint cs List.mem_cons_self,
            ih (fun p hp => hpiece p (List.mem_cons_of_mem _ hp))
              (fun p hp => hjoint p (List.mem_cons_of_mem _ hp))]

end Text

/-! ## Segments -/

/-- A text that is still one segment when it stands in a qualified name. -/
structure IsSegment (s : String) : Prop where
  trimmed : Text.trimmed s = s
  unmarked : segmentMark ∉ s.toList
  unseparated : ∀ separator ∈ defaultSeparators,
    Text.isInfixOf separator.toList s.toList = false

instance (s : String) : Decidable (IsSegment s) :=
  decidable_of_iff
    (Text.trimmed s = s ∧ segmentMark ∉ s.toList ∧
      ∀ separator ∈ defaultSeparators,
      Text.isInfixOf separator.toList s.toList = false)
    ⟨fun ⟨trimmed, unmarked, unseparated⟩ => ⟨trimmed, unmarked, unseparated⟩,
      fun h => ⟨h.trimmed, h.unmarked, h.unseparated⟩⟩

theorem markSegments_intercalate {pieces : List (List Char)}
    (h : ∀ cs ∈ pieces, ∀ separator ∈ defaultSeparators,
      Text.isInfixOf separator.toList cs = false) :
    markSegments defaultSeparators ([' ', '→', ' '].intercalate pieces) =
      [' ', segmentMark, ' '].intercalate pieces := by
  have harrow : ∀ cs ∈ pieces, Text.isInfixOf ['→'] cs = false :=
    fun cs hcs => h cs hcs "→" (by simp [defaultSeparators])
  have hascii : ∀ cs ∈ pieces, Text.isInfixOf ['-', '>'] cs = false :=
    fun cs hcs => h cs hcs "->" (by simp [defaultSeparators])
  have hfirst : Text.replaceAll ['→'] [segmentMark]
      ([' ', '→', ' '].intercalate pieces) =
        [' ', segmentMark, ' '].intercalate pieces := by
    refine Text.replaceFrom_intercalate harrow fun cs hcs rest => ?_
    rw [List.append_assoc, Text.replaceFrom_single_append (harrow cs hcs),
      List.append_assoc]
    rfl
  have hsecond : Text.replaceAll ['-', '>'] [segmentMark]
      ([' ', segmentMark, ' '].intercalate pieces) =
        [' ', segmentMark, ' '].intercalate pieces := by
    -- A piece may end with `-`, but the blank of the joint comes before any
    -- `>`.
    refine Text.replaceFrom_intercalate hascii fun cs hcs rest => ?_
    rw [List.append_assoc, List.append_assoc]
    exact Text.replaceFrom_pair_append (by decide) (hascii cs hcs) _
  calc markSegments defaultSeparators ([' ', '→', ' '].intercalate pieces)
      = Text.replaceAll ['-', '>'] [segmentMark]
          (Text.replaceAll ['→'] [segmentMark]
            ([' ', '→', ' '].intercalate pieces)) := rfl
    _ = [' ', segmentMark, ' '].intercalate pieces := by rw [hfirst, hsecond]

/-- The pieces between marks, up to blanks.  From the second one on, each has
the blank in front of it that stood behind the mark. -/
theorem map_trim_splitOn {lead : List Char} (hlead : segmentMark ∉ lead)
    (htrim : ∀ cs, Text.trim (lead ++ cs) = Text.trim cs)
    {pieces : List (List Char)} (hpieces : pieces ≠ [])
    (h : ∀ cs ∈ pieces, segmentMark ∉ cs ∧ Text.trim cs = cs) :
    (Text.splitOn segmentMark
        (lead ++ [' ', segmentMark, ' '].intercalate pieces)).map
      Text.trim = pieces := by
  induction pieces generalizing lead with
  | nil => exact absurd rfl hpieces
  | cons cs pieces ih =>
      obtain ⟨⟨hmark, hcs⟩, hrest⟩ := List.forall_mem_cons.mp h
      -- The last piece has no mark behind it.
      cases pieces with
      | nil =>
          rw [List.intercalate_singleton,
            Text.splitOn_of_not_mem (by simp [hlead, hmark])]
          simp [htrim, hcs]
      | cons next pieces =>
          have hsplit : lead ++ [' ', segmentMark, ' '].intercalate
              (cs :: next :: pieces) = (lead ++ cs ++ [' ']) ++ segmentMark ::
                ([' '] ++ [' ', segmentMark, ' '].intercalate
                  (next :: pieces)) := by
            simp
          have hne : segmentMark ≠ ' ' := by decide
          have hblank : segmentMark ∉ lead ++ cs ++ [' '] := by
            simp [hlead, hmark, hne]
          rw [hsplit, Text.splitOn_append_cons hblank, List.map_cons,
            Text.trim_append_blank, htrim, hcs,
            ih (by decide) Text.trim_blank_cons (by simp) hrest]

theorem segments_intercalate {parts : List String} (hparts : parts ≠ [])
    (h : ∀ part ∈ parts, IsSegment part) :
    segments defaultSeparators (Entry.pathSeparator.intercalate parts) =
      parts := by
  have hpieces : ∀ cs ∈ parts.map String.toList, segmentMark ∉ cs ∧
      Text.trim cs = cs := by
    intro cs hcs
    obtain ⟨part, hpart, rfl⟩ := List.mem_map.mp hcs
    refine ⟨(h part hpart).unmarked, ?_⟩
    have htrimmed := congrArg String.toList (h part hpart).trimmed
    simpa [Text.trimmed] using htrimmed
  have hseparators : ∀ cs ∈ parts.map String.toList,
      ∀ separator ∈ defaultSeparators, Text.isInfixOf separator.toList cs =
        false := by
    intro cs hcs
    obtain ⟨part, hpart, rfl⟩ := List.mem_map.mp hcs
    exact (h part hpart).unseparated
  have hcut : (Text.splitOn segmentMark ([' ', segmentMark, ' '].intercalate
      (parts.map String.toList))).map Text.trim = parts.map String.toList :=
    @map_trim_splitOn [] (by simp) (fun _ => rfl) _
      (by simpa using hparts) hpieces
  have hjoin : (Entry.pathSeparator.intercalate parts).toList =
      [' ', '→', ' '].intercalate (parts.map String.toList) :=
      String.toList_intercalate
  calc segments defaultSeparators (Entry.pathSeparator.intercalate parts)
      = ((Text.splitOn segmentMark (markSegments defaultSeparators
          ([' ', '→', ' '].intercalate (parts.map String.toList)))).map
          Text.trim).map
            String.ofList := by rw [segments, hjoin, List.map_map]; rfl
    _ = (parts.map String.toList).map String.ofList := by
        rw [markSegments_intercalate hseparators, hcut]
    _ = parts := by simp

/-- The label of a column of another table holds a separator, so it does not
stay one segment. -/
example : segments defaultSeparators "Product → Category" =
    ["Product", "Category"] := by decide

end TableQuery
