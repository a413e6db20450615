import Mathlib.Data.List.TakeWhile
import TableQuery.Text.Trim

/-!
# Runs of characters

Where a run of characters of one kind ends, and what trimming leaves alone.
-/

namespace TableQuery

section

variable {α : Type} {p : α → Bool}

theorem takeWhile_append_of_head? {as bs : List α} (has : ∀ a ∈ as, p a)
    (hbs : ∀ b ∈ bs.head?, p b = false) : (as ++ bs).takeWhile p = as := by
  rw [List.takeWhile_append_of_pos has]
  cases bs with
  | nil => simp
  | cons b bs => simp [hbs b rfl]

theorem dropWhile_append_of_head? {as bs : List α} (has : ∀ a ∈ as, p a)
    (hbs : ∀ b ∈ bs.head?, p b = false) : (as ++ bs).dropWhile p = bs := by
  rw [List.dropWhile_append_of_pos has]
  cases bs with
  | nil => rfl
  | cons b bs => simp [hbs b rfl]

end

/-! ## Digits -/

theorem bounds_of_isDigit {c : Char} (h : c.isDigit = true) :
    48 ≤ c.toNat ∧ c.toNat ≤ 57 := by
  simpa [Char.isDigit, UInt32.le_iff_toNat_le] using h

theorem isWhiteSpace_of_isDigit {c : Char} (h : c.isDigit = true) :
    Unicode.isWhiteSpace c = false := by
  obtain ⟨hlow, hhigh⟩ := bounds_of_isDigit h
  simp only [Unicode.isWhiteSpace, Bool.or_eq_false_iff, Bool.and_eq_false_iff,
    decide_eq_false_iff_not, beq_eq_false_iff_ne]
  omega

/-! ## Blanks at the ends -/

structure Text.Trimmed (cs : List Char) : Prop where
  head : ∀ c ∈ cs.head?, Unicode.isWhiteSpace c = false
  last : ∀ c ∈ cs.getLast?, Unicode.isWhiteSpace c = false

theorem Text.Trimmed.trim_eq {cs : List Char} (h : Text.Trimmed cs) :
    Text.trim cs = cs := by
  have hstart : Text.trimStart cs = cs := by
    cases cs with
    | nil => rfl
    | cons c cs => exact List.dropWhile_cons_of_neg (by simp [h.head c rfl])
  rw [Text.trim, hstart, Text.trimEnd]
  cases hcs : cs.reverse with
  | nil => rw [List.reverse_eq_nil_iff.mp hcs]; rfl
  | cons c rest =>
      have hlast : c ∈ cs.getLast? := by rw [← List.head?_reverse, hcs]; rfl
      rw [List.dropWhile_cons_of_neg (by simp [h.last c hlast]), ← hcs,
        List.reverse_reverse]

end TableQuery
