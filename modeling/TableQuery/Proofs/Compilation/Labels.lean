import TableQuery.Context.Label
import TableQuery.Formula.Tree.Printer
import TableQuery.Proofs.Compilation.WellKinded

/-!
# Parentheses of labels

A formula and the label of its expression are written by two rules that put
parentheses around the operands that bind too loosely.  A layout says which
operands these are, and both texts are written from one.  The rules differ in
one place: the formula groups a comparison that is the left operand of a
comparison, because comparisons do not chain, and the label does not.
-/

namespace TableQuery

namespace Tree

def chainsInto (left : Tree) (op : BinaryOp) : Bool :=
  op.isComparison && left.precedence == Precedence.comparison

/-- How many comparisons are the left operands of comparisons.  Calls are not
looked into. -/
def chainedComparisons : Tree → Nat
  | binary op left right _ =>
    (left.chainsInto op).toNat + chainedComparisons left +
      chainedComparisons right
  | unary _ operand _ => chainedComparisons operand
  | _ => 0

end Tree

/-- Where parentheses stand in the text of a tree.  What is neither a binary
operation nor has a prefix is a leaf. -/
inductive Layout : Tree → Type
  | leaf {t : Tree} (h : t.precedence = Precedence.atom) : Layout t
  | binary (op : BinaryOp) (span : Span) {left right : Tree} (l : Layout left)
      (r : Layout right) :
      Layout (.binary op left right span)
  | unary (op : UnaryOp) (span : Span) {operand : Tree} (x : Layout operand) :
      Layout (.unary op operand span)
  | group {t : Tree} (inner : Layout t) : Layout t

structure Spelling where
  leaf : Tree → List Char
  binary : BinaryOp → List Char
  unary : UnaryOp → List Char

namespace Spelling

def formula : Spelling where
  leaf := Tree.toChars
  binary op := ' ' :: op.symbol.toList ++ [' ']
  unary op := op.symbol.toList

def label (ctx : Context) : Spelling where
  leaf t := (t.expression?.map fun e => (e.labelIn ctx).toList).getD []
  binary op := ' ' :: op.sign.toList ++ [' ']
  unary op := op.sign.toList

def bareLength (s : Spelling) : Tree → Nat
  | .binary op left right _ =>
  bareLength s left + (s.binary op).length + bareLength s right
  | .unary op operand _ => (s.unary op).length + bareLength s operand
  | t => (s.leaf t).length

end Spelling

namespace Layout

variable {t : Tree}

def write (s : Spelling) : {t : Tree} → Layout t → List Char
  | t, leaf _ => s.leaf t
  | _, binary op _ l r => write s l ++ s.binary op ++ write s r
  | _, unary op _ x => s.unary op ++ write s x
  | _, group inner => '(' :: write s inner ++ [')']

def groups : {t : Tree} → Layout t → Nat
  | _, leaf _ => 0
  | _, binary _ _ l r => groups l + groups r
  | _, unary _ _ x => groups x
  | _, group inner => groups inner + 1

theorem length_write (s : Spelling) (x : Layout t) :
    (x.write s).length = s.bareLength t + 2 * x.groups := by
  induction x with
  | leaf h =>
      cases ‹Tree› with
      | binary op left right span => cases op <;> cases h
      | unary op operand span => cases op <;> cases h
      | _ => rfl
  | binary op span l r ihl ihr =>
      simp only [write, groups, Spelling.bareLength, List.length_append,
        ihl, ihr]
      omega
  | unary op span x ih =>
      simp only [write, groups, Spelling.bareLength, List.length_append, ih]
      omega
  | group inner ih =>
      simp only [write, groups, List.length_append, List.length_cons,
        List.length_nil, ih]
      omega

def grouped (needed : Bool) (x : Layout t) : Layout t :=
  if needed then group x
  else x

@[simp] theorem write_grouped (s : Spelling) (needed : Bool) (x : Layout t) :
    (x.grouped needed).write s = Tree.parenthesized needed (x.write s) := by
  cases needed <;> rfl

@[simp] theorem groups_grouped (needed : Bool) (x : Layout t) :
    (x.grouped needed).groups = x.groups + needed.toNat := by
  cases needed <;> rfl

/-! ## Chained comparisons -/

def ungroup : {t : Tree} → Layout t → Layout t
  | _, group inner => inner
  | _, x => x

def unchained : {t : Tree} → Layout t → Layout t
  | _, leaf h => leaf h
  | .binary _ left _ _, binary op span l r =>
    binary op span (if left.chainsInto op then (unchained l).ungroup else
      unchained l) (unchained r)
  | _, unary op span x => unary op span (unchained x)
  | _, group inner => group (unchained inner)

end Layout

/-! ## The two rules -/

namespace Tree

variable {t : Tree} {e : Expression}

/-- The parentheses that a rule puts around the operands of binary operators.
The operand of a prefix has them if it binds more loosely. -/
def layout (rule : Nat → BinaryOp → Side → Bool) : (t : Tree) → Layout t
  | number _ _ | string _ _ | reference _ _ _ | call _ _ _ => .leaf rfl
  | binary op left right span =>
    .binary op span ((layout rule left).grouped (rule left.precedence op .left))
      ((layout rule right).grouped (rule right.precedence op .right))
  | unary op operand span =>
    .unary op span ((layout rule operand).grouped (operand.precedence <
      op.precedence))

/-- The rule by which labels have parentheses. -/
def labelNeedsParens (child : Nat) (parent : BinaryOp) (side : Side) : Bool :=
  Label.needsParens child parent.precedence (side = .right)

theorem needsParens_left (left : Tree) (op : BinaryOp) :
    needsParens left.precedence op .left =
      (labelNeedsParens left.precedence op .left || left.chainsInto op) := by
  have hside : (Side.left == Side.right) = false := rfl
  cases hop : op.isComparison with
  | false =>
      simp [needsParens, labelNeedsParens, Label.needsParens,
        chainsInto, hop, hside]
  | true =>
      have hprecedence : op.precedence = Precedence.comparison := by
        simpa [BinaryOp.isComparison] using hop
      simp [needsParens, labelNeedsParens, Label.needsParens, chainsInto, hop,
        hprecedence, hside]

theorem labelNeedsParens_of_chainsInto {left : Tree} {op : BinaryOp}
    (h : left.chainsInto op) :
    labelNeedsParens left.precedence op .left = false := by
  obtain ⟨hop, hleft⟩ := Bool.and_eq_true_iff.mp h
  rw [BinaryOp.isComparison, beq_iff_eq] at hop
  rw [beq_iff_eq] at hleft
  simp [labelNeedsParens, Label.needsParens, hop, hleft]

theorem needsParens_right (child : Nat) (op : BinaryOp) :
    needsParens child op .right = labelNeedsParens child op .right := by
  simp [needsParens, labelNeedsParens, Label.needsParens]

theorem toChars_eq_write (t : Tree) :
    t.toChars = (t.layout needsParens).write .formula := by
  induction t using induct with
  | number value span => rfl
  | string value span => rfl
  | reference name target span => rfl
  | call function args span => rfl
  | binary op left right span ihLeft ihRight =>
      simp [toChars, layout, Layout.write, Spelling.formula, ihLeft, ihRight]
  | unary op operand span ih =>
      simp [toChars, layout, Layout.write, Spelling.formula, ih]

theorem precedence_of_expression? (h : t.expression? = some e) :
    e.precedence = t.precedence := by
  cases t with
  | number | string =>
      cases h
      rfl
  | reference =>
      obtain ⟨id, -, rfl⟩ := Option.map_eq_some_iff.mp h
      rfl
  | call =>
      obtain ⟨function, -, h⟩ := Option.bind_eq_some_iff.mp h
      obtain ⟨args, -, rfl⟩ := Option.map_eq_some_iff.mp h
      rfl
  | binary =>
      obtain ⟨l, -, h⟩ := Option.bind_eq_some_iff.mp h
      obtain ⟨r, -, rfl⟩ := Option.map_eq_some_iff.mp h
      rfl
  | unary =>
      obtain ⟨x, -, rfl⟩ := Option.map_eq_some_iff.mp h
      rfl

theorem toList_parenthesized (needed : Bool) (text : String) :
    (Label.parenthesized needed text).toList =
      parenthesized needed text.toList := by
  cases needed <;> simp [Label.parenthesized, parenthesized]

theorem leaf_label (ctx : Context) (h : t.expression? = some e) :
    (Spelling.label ctx).leaf t = (e.labelIn ctx).toList := by
  simp [Spelling.label, h]

theorem toList_labelIn (ctx : Context) (h : t.expression? = some e) :
    (e.labelIn ctx).toList =
      (t.layout labelNeedsParens).write (.label ctx) := by
  induction t using induct generalizing e with
  | number value span => exact (leaf_label ctx h).symm
  | string value span => exact (leaf_label ctx h).symm
  | reference name target span => exact (leaf_label ctx h).symm
  | call function args span => exact (leaf_label ctx h).symm
  | binary op left right span ihLeft ihRight =>
      obtain ⟨l, hl, h⟩ := Option.bind_eq_some_iff.mp h
      obtain ⟨r, hr, rfl⟩ := Option.map_eq_some_iff.mp h
      rw [layout, Layout.write, Layout.write_grouped, Layout.write_grouped,
        ← ihLeft hl, ← ihRight hr, ← precedence_of_expression? hl,
        ← precedence_of_expression? hr]
      simp [Expression.labelIn, toList_parenthesized, labelNeedsParens,
        Spelling.label]
  | unary op operand span ih =>
      obtain ⟨x, hx, rfl⟩ := Option.map_eq_some_iff.mp h
      rw [layout, Layout.write, Layout.write_grouped, ← ih hx,
        ← precedence_of_expression? hx]
      simp [Expression.labelIn, toList_parenthesized, Label.needsParens,
        Spelling.label]

/-! ## Which parentheses differ -/

theorem unchained_eq_self (h : t.chainedComparisons = 0) (x : Layout t) :
    x.unchained = x := by
  induction x with
  | leaf hleaf => rw [Layout.unchained]
  | binary op span l r ihl ihr =>
      simp only [chainedComparisons, Nat.add_eq_zero_iff,
        Bool.toNat_eq_zero] at h
      rw [Layout.unchained, ihl h.1.2, ihr h.2, h.1.1]
      rfl
  | unary op span x ih => rw [Layout.unchained, ih h]
  | group inner ih => rw [Layout.unchained, ih h]

theorem unchained_grouped (needed : Bool) (x : Layout t) :
    (x.grouped needed).unchained = x.unchained.grouped needed := by
  cases needed <;> simp [Layout.grouped, Layout.unchained]

/-- The layout of the label is that of the formula without the parentheses of
comparisons that are compared. -/
theorem unchained_layout (t : Tree) :
    (t.layout needsParens).unchained = t.layout labelNeedsParens := by
  induction t using induct with
  | number value span => rfl
  | string value span => rfl
  | reference name target span => rfl
  | call function args span => rfl
  | binary op left right span ihLeft ihRight =>
      rw [layout, layout, Layout.unchained, unchained_grouped,
        unchained_grouped, ihLeft, ihRight, needsParens_left, needsParens_right]
      congr 1
      split
      case isTrue hchains =>
          simp [hchains, labelNeedsParens_of_chainsInto hchains]; rfl
      case isFalse hchains => simp [hchains]
  | unary op operand span ih =>
      rw [layout, layout, Layout.unchained, unchained_grouped, ih]

theorem groups_layout (t : Tree) : (t.layout needsParens).groups =
    (t.layout labelNeedsParens).groups + t.chainedComparisons := by
  induction t using induct with
  | number value span => rfl
  | string value span => rfl
  | reference name target span => rfl
  | call function args span => rfl
  | binary op left right span ihLeft ihRight =>
      have hleft : (labelNeedsParens left.precedence op .left ||
          left.chainsInto op).toNat =
          (labelNeedsParens left.precedence op .left).toNat +
          (left.chainsInto op).toNat := by
        cases hchains : left.chainsInto op with
        | false => simp
        | true => simp [labelNeedsParens_of_chainsInto hchains]
      simp only [layout, Layout.groups, Layout.groups_grouped, needsParens_left,
        needsParens_right, hleft, ihLeft, ihRight, chainedComparisons]
      omega
  | unary op operand span ih =>
      simp only [layout, Layout.groups, Layout.groups_grouped, ih,
        chainedComparisons]
      omega

/-- A formula and its label are written from one layout, but for the parentheses
of comparisons on the left of comparisons, which the label leaves out.  Without
such comparisons both group alike, and with one there is no layout from which
both could be written. -/
theorem labelIn_layout (h : t.expression? = some e) (ctx : Context) :
    (∃ x : Layout t, t.toChars = x.write .formula ∧
      (e.labelIn ctx).toList = x.unchained.write (.label ctx)) ∧
    ((∃ x : Layout t, t.toChars = x.write .formula ∧
      (e.labelIn ctx).toList = x.write (.label ctx)) ↔
      t.chainedComparisons = 0) := by
  have hformula := toChars_eq_write t
  have hlabel := toList_labelIn ctx h
  refine ⟨⟨t.layout needsParens, hformula, by rw [unchained_layout, hlabel]⟩,
    ?_, ?_⟩
  · rintro ⟨x, hx, hx'⟩
    -- The lengths of the two texts tell how many groups they have.
    have hlength := congrArg List.length (hformula.symm.trans hx)
    have hlength' := congrArg List.length (hlabel.symm.trans hx')
    simp only [Layout.length_write] at hlength hlength'
    have hgroups := groups_layout t
    omega
  · intro hchained
    refine ⟨t.layout needsParens, hformula, ?_⟩
    rw [hlabel, ← unchained_layout, unchained_eq_self hchained]

/-! ### A compared comparison -/

def columnNamed (name : String) (start : Nat) : Tree :=
  .reference name (some (.customColumn name)) ⟨start, start + name.length + 2⟩

def comparedOnTheLeft : Tree :=
  .binary .eq (.binary .lt (columnNamed "A" 1) (columnNamed "B" 7) ⟨0, 11⟩)
    (columnNamed "C" 14) ⟨0, 17⟩

def comparedOnTheRight : Tree :=
  .binary .ge
    (.unary .neg
      (.binary .sub (columnNamed "A" 2)
        (.binary .sub (columnNamed "B" 9) (.number (.ofNat 2) ⟨15, 16⟩) ⟨8, 17⟩)
        ⟨1, 18⟩) ⟨0, 18⟩)
    (.binary .eq (columnNamed "A" 23) (columnNamed "B" 29) ⟨22, 33⟩) ⟨0, 33⟩

theorem labelIn_layout_compared :
    (∃ e, comparedOnTheRight.expression? = some e ∧
      comparedOnTheRight.toChars = "-([A] - ([B] - 2)) >= ([A] = [B])".toList ∧
      e.labelIn ⟨[]⟩ = "−(A − (B − 2)) ≥ (A = B)" ∧
      ∃ x : Layout comparedOnTheRight,
        comparedOnTheRight.toChars = x.write .formula ∧
        (e.labelIn ⟨[]⟩).toList = x.write (.label ⟨[]⟩)) ∧
    ∃ e, comparedOnTheLeft.expression? = some e ∧
      comparedOnTheLeft.toChars = "([A] < [B]) = [C]".toList ∧
      e.labelIn ⟨[]⟩ = "A < B = C" ∧
      ¬∃ x : Layout comparedOnTheLeft,
        comparedOnTheLeft.toChars = x.write .formula ∧
        (e.labelIn ⟨[]⟩).toList = x.write (.label ⟨[]⟩) :=
  ⟨⟨_, rfl, rfl, rfl, (labelIn_layout rfl ⟨[]⟩).2.mpr rfl⟩, _, rfl, rfl, rfl,
    fun hlayout => absurd ((labelIn_layout rfl ⟨[]⟩).2.mp hlayout) (by decide)⟩

/-- The label of a compared comparison has no parentheses. -/
theorem not_forall_labelIn_layout :
    ¬∀ (t : Tree) (e : Expression) (ctx : Context), t.expression? = some e →
      ∃ x : Layout t, t.toChars = x.write .formula ∧
        (e.labelIn ctx).toList = x.write (.label ctx) := by
  intro hall
  obtain ⟨x, hx, hx'⟩ := hall comparedOnTheLeft _ ⟨[]⟩ rfl
  have hlength := congrArg List.length hx
  have hlength' := congrArg List.length hx'
  have hformula : comparedOnTheLeft.toChars.length = 17 := rfl
  have hbare : Spelling.formula.bareLength comparedOnTheLeft = 15 := rfl
  have hlabel : (Spelling.label ⟨[]⟩).bareLength comparedOnTheLeft = 9 := rfl
  rw [Layout.length_write, hformula, hbare] at hlength
  rw [Layout.length_write, hlabel] at hlength'
  change 9 = 9 + 2 * x.groups at hlength'
  omega

end Tree

end TableQuery
