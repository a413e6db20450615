import TableQuery.Evaluation.Scalar
import TableQuery.Proofs.Decimal.Value
import TableQuery.Proofs.Word

/-!
# Parts of texts

A part of a text is cut out by a position and a length, which are decimals.
What is meant are the characters at the positions of a range, counted from 1.
Positions and lengths are computed as words, and one that is too large for a
word counts as the least.
-/

namespace TableQuery

/-! ## Whole parts -/

def truncated (q : ℚ) : Int := if 0 ≤ q then ⌊q⌋ else ⌈q⌉

def wordBound : Int := 9223372036854775808

theorem truncated_of_nonneg {q : ℚ} (hq : 0 ≤ q) : truncated q = ⌊q⌋ :=
  if_pos hq

theorem truncated_neg (q : ℚ) : truncated (-q) = -truncated q := by
  obtain hlt | rfl | hgt := lt_trichotomy q 0
  · rw [truncated, truncated, if_pos (neg_nonneg.mpr hlt.le),
      if_neg (not_le.mpr hlt), Int.floor_neg]
  · simp [truncated]
  · rw [truncated, truncated, if_neg (not_le.mpr (neg_neg_of_pos hgt)),
      if_pos hgt.le, Int.ceil_neg]

theorem truncated_lt_iff {q : ℚ} {n : Int} (hn : 0 < n) :
    truncated q < n ↔ q < n := by
  unfold truncated
  split
  case isTrue => exact Int.floor_lt
  case isFalse hq =>
      have hcast : (0 : ℚ) < n := Int.cast_pos.mpr hn
      have hceil : ⌈q⌉ ≤ 0 := Int.ceil_le.mpr (by simpa using (not_le.mp hq).le)
      exact iff_of_true (hceil.trans_lt hn) ((not_le.mp hq).trans hcast)

theorem truncated_le_truncated {p q : ℚ} (hle : p ≤ q) :
    truncated p ≤ truncated q := by
  unfold truncated
  split
  case isTrue hp => exact (if_pos (hp.trans hle)).symm ▸ Int.floor_mono hle
  case isFalse hp =>
      have hceil : ⌈p⌉ ≤ 0 := Int.ceil_le.mpr (by simpa using (not_le.mp hp).le)
      split
      case isTrue hq => exact hceil.trans (Int.floor_nonneg.mpr hq)
      case isFalse hq => exact Int.ceil_mono hle

namespace Decimal

theorem toInt_eq_truncated (d : Decimal) : d.toInt = truncated d.value := by
  have hsize : truncated (d.coefficient / scaleFactor d.scale) =
      (d.coefficient / scaleFactor d.scale : Nat) := by
    rw [truncated_of_nonneg
      (div_nonneg (Nat.cast_nonneg _) (Nat.cast_nonneg _))]
    exact Rat.floor_natCast_div_natCast _ _
  rw [toInt, value_eq]
  cases d.negative with
  | true => rw [sign, if_pos rfl, if_pos rfl, neg_one_mul, truncated_neg, hsize]
  | false =>
      rw [sign, if_neg Bool.false_ne_true, if_neg Bool.false_ne_true,
        one_mul, hsize]

/-- The whole part of a number, but at least a given one.  A number that is too
large for a word counts as the least. -/
def wholeWord (d : Decimal) (least : Int) : Int :=
  if d.value < wordBound then max least (truncated d.value) else least

theorem wholeWord_of_lt {d : Decimal} (h : d.value < wordBound) (least : Int) :
    d.wholeWord least = max least (truncated d.value) :=
  if_pos h

theorem wholeWord_of_le {d : Decimal} (h : wordBound ≤ d.value) (least : Int) :
    d.wholeWord least = least :=
  if_neg (not_lt.mpr h)

theorem le_wholeWord (d : Decimal) (least : Int) :
    least ≤ d.wholeWord least := by
  unfold wholeWord
  split
  case isTrue => exact le_max_left _ _
  case isFalse => exact le_rfl

theorem max_toInt64? (d : Decimal) {least : Int} (hleast : 0 ≤ least) :
    max least (d.toInt64?.getD least) = d.wholeWord least := by
  have hbound : truncated d.value < wordBound ↔ d.value < wordBound :=
    truncated_lt_iff (by decide)
  have hword : wordBound = 9223372036854775808 := rfl
  have hfits := Word.fitsSigned_size64_iff (n := truncated d.value)
  rw [wholeWord, toInt64?, toInt_eq_truncated, if_congr hbound.symm rfl rfl]
  split
  case isTrue h => rw [Option.getD_some, if_pos (hword ▸ (hfits.mp h).2)]
  case isFalse h =>
      rw [Option.getD_none, max_self]
      rw [hfits] at h
      split
      case isTrue hlt => exact (max_eq_left (by omega)).symm
      case isFalse => rfl

end Decimal

/-! ## Ranges of characters -/

def charsBetween (cs : List Char) (first count : Int) : List Char :=
  ((cs.zipIdx 1).filter fun (_, i) => first ≤ i ∧ i ≤ first + count - 1).map
    Prod.fst

theorem map_filter_zipIdx (cs : List Char) (low high k : Nat) :
    ((cs.zipIdx k).filter fun x => low ≤ x.2 ∧ x.2 < high).map Prod.fst =
      (cs.drop (low - k)).take (high - max low k) := by
  induction cs generalizing k with
  | nil => simp
  | cons c cs ih =>
      rw [List.zipIdx_cons, List.filter_cons]
      obtain hbefore | hwithin | hafter :
        k < low ∨ (low ≤ k ∧ k < high) ∨ low ≤ k ∧ high ≤ k := by omega
      · have hdrop : low - k = low - (k + 1) + 1 := by omega
        have htake : max low k = max low (k + 1) := by omega
        rw [if_neg (by simp; omega), ih, hdrop, List.drop_succ_cons, htake]
      · have hdrop : low - k = 0 := by omega
        have hdrop' : low - (k + 1) = 0 := by omega
        have htake : high - max low k = high - max low (k + 1) + 1 := by omega
        rw [if_pos (by simp; omega), List.map_cons, ih, hdrop, hdrop', htake]
        rfl
      · have htake : high - max low k = 0 := by omega
        have htake' : high - max low (k + 1) = 0 := by omega
        rw [if_neg (by simp; omega), ih, htake, htake']
        rfl

section

variable {cs : List Char} {first count : Int}

theorem charsBetween_eq (hfirst : 1 ≤ first) (hcount : 0 ≤ count) :
    charsBetween cs first count =
      (cs.drop (first.toNat - 1)).take count.toNat := by
  have hrange :
      (fun x : Char × Nat => decide (first ≤ x.2 ∧ x.2 ≤ first + count - 1)) =
        fun x => decide (first.toNat ≤ x.2 ∧ x.2 < (first + count).toNat) := by
    funext x
    exact decide_eq_decide.mpr (by omega)
  have hcount' : (first + count).toNat - max first.toNat 1 =
      count.toNat := by omega
  rw [← hcount', ← map_filter_zipIdx, ← hrange]
  rfl

theorem charsBetween_eq_nil_iff (hfirst : 1 ≤ first) (hcount : 0 ≤ count) :
    charsBetween cs first count = [] ↔ cs.length < first ∨ count = 0 := by
  rw [charsBetween_eq hfirst hcount, List.take_eq_nil_iff, List.drop_eq_nil_iff]
  omega

theorem charsBetween_eq_drop (hfirst : 1 ≤ first) (hcount : 0 ≤ count)
    (h : cs.length < first + count) :
    charsBetween cs first count = cs.drop (first.toNat - 1) := by
  rw [charsBetween_eq hfirst hcount]
  apply List.take_of_length_le
  rw [List.length_drop]
  omega

theorem charsBetween_prefix {count' : Int} (hfirst : 1 ≤ first)
    (hcount : 0 ≤ count) (hle : count ≤ count') :
    charsBetween cs first count <+: charsBetween cs first count' := by
  rw [charsBetween_eq hfirst hcount, charsBetween_eq hfirst (hcount.trans hle)]
  exact List.take_prefix_take_left (by omega)

end

/-! ## Cuts -/

section

variable (cs : List Char) (start length : Decimal)

theorem substring_eq_charsBetween : Scalar.substring cs start length =
    charsBetween cs (start.wholeWord 1) (length.wholeWord 0) := by
  have hfirst : max 1 (start.toInt64?.getD 1) = start.wholeWord 1 :=
    start.max_toInt64? (by decide)
  have hcount : max 0 (length.toInt64?.getD 0) = length.wholeWord 0 :=
    length.max_toInt64? le_rfl
  rw [← hfirst, ← hcount, charsBetween_eq (le_max_left _ _) (le_max_left _ _)]
  rfl

/-- A start that is too large for a word cuts from the beginning, and a length
that is too large cuts nothing. -/
theorem charsBetween_wholeWord_iff (hcs : cs.length < wordBound) :
    charsBetween cs (start.wholeWord 1) (length.wholeWord 0) =
        charsBetween cs (max 1 (truncated start.value))
            (max 0 (truncated length.value)) ↔
      ¬(wordBound ≤ start.value ∧ cs ≠ [] ∧ 1 ≤ length.value ∧
        length.value < wordBound ∨
        start.value < wordBound ∧ wordBound ≤ length.value ∧
          max 1 (truncated start.value) ≤ cs.length) := by
  have hword : (0 : Int) < wordBound := by decide
  have hfirst : 1 ≤ max 1 (truncated start.value) := le_max_left _ _
  have hcount : 0 ≤ max 0 (truncated length.value) := le_max_left _ _
  obtain hstart | hstart := lt_or_ge start.value wordBound
  · rw [Decimal.wholeWord_of_lt hstart]
    obtain hlength | hlength := lt_or_ge length.value wordBound
    · rw [Decimal.wholeWord_of_lt hlength]
      simp [hstart, hlength]
    · have hlarge :=
        not_lt.mp (mt (truncated_lt_iff hword).mp (not_lt.mpr hlength))
      have hnone : charsBetween cs (max 1 (truncated start.value)) 0 = [] :=
        (charsBetween_eq_nil_iff hfirst le_rfl).mpr (.inr rfl)
      rw [Decimal.wholeWord_of_le hlength, hnone, eq_comm,
        charsBetween_eq_nil_iff hfirst hcount]
      simp only [hstart, hlength, not_le.mpr hstart, false_and,
        false_or, true_and]
      omega
  · have hlarge :=
      not_lt.mp (mt (truncated_lt_iff hword).mp (not_lt.mpr hstart))
    have hpast : charsBetween cs (max 1 (truncated start.value))
        (max 0 (truncated length.value)) = [] :=
      (charsBetween_eq_nil_iff hfirst hcount).mpr (.inl (by omega))
    rw [Decimal.wholeWord_of_le hstart, hpast]
    obtain hlength | hlength := lt_or_ge length.value wordBound
    · have hone : 1 ≤ length.value ↔ ¬truncated length.value < 1 := by
        rw [truncated_lt_iff (by decide), Int.cast_one, not_lt]
      rw [Decimal.wholeWord_of_lt hlength,
        charsBetween_eq_nil_iff le_rfl hcount]
      simp only [hstart, hlength, not_lt.mpr hstart, hone, true_and, and_true,
        false_and, or_false, ← List.length_pos_iff]
      omega
    · rw [Decimal.wholeWord_of_le hlength]
      simp [hlength, hstart, charsBetween_eq_nil_iff]

end

namespace Scalar

variable {v : Cell} {cs : List Char}

theorem applyFunction_substring_eq (htext : text .substring v = .ok cs)
    (start length : Decimal) :
    applyFunction .substring [v, .number start, .number length] =
      .ok (ofChars (substring cs start length)) := by
  cases v with
  | null => cases htext
  | _ =>
      simp [applyFunction, nullAware?, applyToValues, textArgument,
        numberArgument, argument, number, Cell.isNull, htext, bind, Except.bind,
        pure, Except.pure]

/-- A part of a text is the characters at the positions that the whole parts of
the start and the length say.  This fails where a start is too large for a word,
which then counts as 1, and where a length is, which then counts as 0; of a text
with fewer characters than there are words, nowhere else. -/
theorem applyFunction_substring (htext : text .substring v = .ok cs)
    (start length : Decimal) :
    ∃ part, applyFunction .substring [v, .number start, .number length] = .ok
        (ofChars part) ∧
      part = charsBetween cs (start.wholeWord 1) (length.wholeWord 0) ∧
      (cs.length < wordBound →
        (part = charsBetween cs (max 1 (truncated start.value))
          (max 0 (truncated length.value)) ↔
          ¬(wordBound ≤ start.value ∧ cs ≠ [] ∧ 1 ≤ length.value ∧
            length.value < wordBound ∨
            start.value < wordBound ∧ wordBound ≤ length.value ∧
              max 1 (truncated start.value) ≤ cs.length))) ∧
      (start.value < wordBound → cs.length < truncated start.value →
        part = []) ∧
      (start.value < wordBound → length.value < wordBound →
        cs.length <
          max 1 (truncated start.value) + max 0 (truncated length.value) →
        part = cs.drop ((max 1 (truncated start.value)).toNat - 1)) ∧
      ∀ longer : Decimal, length.value ≤ longer.value →
        longer.value < wordBound →
        ∃ longerPart,
          applyFunction .substring [v, .number start, .number longer] =
            .ok (ofChars longerPart) ∧ part <+: longerPart := by
  refine ⟨_, applyFunction_substring_eq htext start length,
    substring_eq_charsBetween cs start length, ?exact, ?empty, ?rest, ?longer⟩
  case exact =>
    intro hcs
    rw [substring_eq_charsBetween,
      charsBetween_wholeWord_iff cs start length hcs]
  case empty =>
    intro hstart hpast
    rw [substring_eq_charsBetween,
      charsBetween_eq_nil_iff (start.le_wholeWord 1) (length.le_wholeWord 0)]
    exact .inl (hpast.trans_le (start.wholeWord_of_lt hstart 1 ▸
      le_max_right _ _))
  case rest =>
    intro hstart hlength hreaches
    rw [substring_eq_charsBetween, start.wholeWord_of_lt hstart,
      length.wholeWord_of_lt hlength]
    exact charsBetween_eq_drop (le_max_left _ _) (le_max_left _ _) hreaches
  case longer =>
    intro longer hle hlonger
    refine ⟨_, applyFunction_substring_eq htext start longer, ?_⟩
    rw [substring_eq_charsBetween, substring_eq_charsBetween]
    apply charsBetween_prefix (start.le_wholeWord 1) (length.le_wholeWord 0)
    rw [length.wholeWord_of_lt (hle.trans_lt hlonger),
      longer.wholeWord_of_lt hlonger]
    exact max_le_max_left 0 (truncated_le_truncated hle)

theorem applyFunction_substring_year :
    text .substring (.temporal "2024-03-15") = .ok "2024-03-15".toList ∧
      ∃ part, applyFunction .substring
          [.temporal "2024-03-15", .number Decimal.half.neg,
            .number (.ofNat 4)] =
            .ok (ofChars part) ∧
        part = charsBetween "2024-03-15".toList
          (max 1 (truncated Decimal.half.neg.value))
          (max 0 (truncated (Decimal.ofNat 4).value)) ∧
        applyFunction .substring
          [.temporal "2024-03-15", .number Decimal.half.neg,
            .number (.ofNat 4)] =
            .ok (.string "2024") := by
  obtain ⟨part, happly, -, hexact, -⟩ :=
    applyFunction_substring (v := .temporal "2024-03-15") rfl Decimal.half.neg
      (.ofNat 4)
  refine ⟨rfl, part, happly, (hexact (by decide)).mpr ?_, rfl⟩
  have hstart : Decimal.half.neg.value = -5 / 10 := rfl
  have hlength : (Decimal.ofNat 4).value = 4 :=
    Decimal.value_of_scale_eq_zero rfl
  rw [hstart, hlength, wordBound]
  norm_num

/-- The position after the largest word is taken for the first. -/
theorem not_forall_applyFunction_substring :
    ¬∀ (v : Cell) (cs : List Char) (start length : Decimal),
      text .substring v = .ok cs →
      applyFunction .substring [v, .number start, .number length] =
        .ok (ofChars (charsBetween cs (max 1 (truncated start.value))
          (max 0 (truncated length.value)))) := by
  intro hall
  have hcut :=
    hall (.string "hello") _ (.ofNat 9223372036854775808) (.ofNat 3) rfl
  have hvalue : (Decimal.ofNat 9223372036854775808).value = (wordBound : Int) :=
    Decimal.value_of_scale_eq_zero rfl
  have hnone : charsBetween "hello".toList
      (max 1 (truncated (Decimal.ofNat 9223372036854775808).value))
      (max 0 (truncated (Decimal.ofNat 3).value)) = [] := by
    have hlarge :=
      not_lt.mp (mt (truncated_lt_iff (n := wordBound) (by decide)).mp
        hvalue.not_lt)
    rw [charsBetween_eq_nil_iff (le_max_left _ _) (le_max_left _ _)]
    exact .inl ((show (5 : Int) < wordBound by decide).trans_le
      (hlarge.trans (le_max_right _ _)))
  have hfirst : applyFunction .substring [.string "hello",
      .number (.ofNat 9223372036854775808), .number (.ofNat 3)] =
      .ok (.string "hel") := rfl
  rw [hnone, hfirst] at hcut
  exact absurd (Cell.string.inj (Except.ok.inj hcut)) (by decide)

end Scalar

end TableQuery
