import TableQuery.Proofs.Formula.Spelling

/-!
# Levels of written trees

How many levels it takes to read a written tree, and how many more that may be
than its source took.  The parser lets a prefix operator that binds loosely
stand as it is at the right of an operator or under a minus.  Writing puts it in
parentheses, and that is a level more.
-/

namespace TableQuery.Tree

/-! ## Written trees -/

/-- How tightly the operators outside all groups bind when the tree is
written. -/
def strength : Tree → Nat
  | binary op _ _ _ => op.precedence
  | _ => Precedence.atom

/-- How tightly an operator behind the written tree has to bind to be taken into
it. -/
def edge : Tree → Nat
  | binary op _ _ _ => op.precedence + 1
  | unary op _ _ => op.precedence
  | _ => Precedence.atom + 1

theorem precedence_ne (op : BinaryOp) (op' : UnaryOp) :
    op.precedence ≠ op'.precedence := by
  cases op <;> cases op' <;> decide

theorem precedence_le_strength (e : Tree) : e.precedence ≤ e.strength := by
  cases e with
  | unary op operand span => exact Nat.le_of_lt (unary_lt_atom op)
  | _ => exact Nat.le_refl _

theorem precedence_le_edge (e : Tree) : e.precedence ≤ e.edge := by
  cases e <;> simp [precedence, edge]

theorem lt_edge {op : BinaryOp} {e : Tree} (h : op.precedence ≤ e.precedence) :
    op.precedence < e.edge := by
  cases e with
  | binary op' left right span => exact Nat.lt_succ_of_le h
  | unary op' operand span => exact Nat.lt_of_le_of_ne h (precedence_ne op op')
  | _ => exact Nat.lt_succ_of_lt (binary_lt_atom op)

def strengthIn (needed : Bool) (strength : Nat) : Nat :=
  if needed then Precedence.atom else strength

def edgeIn (needed : Bool) (edge : Nat) : Nat :=
  if needed then Precedence.atom + 1
  else edge

/-! ### Operands, in parentheses where they need them -/

theorem lt_edgeIn_left (op : BinaryOp) (left : Tree) :
    op.precedence <
      edgeIn (needsParens left.precedence op .left) left.edge := by
  cases hneeded : needsParens left.precedence op .left with
  | true => exact Nat.lt_succ_of_lt (binary_lt_atom op)
  | false => exact lt_edge (precedence_le_of_not_needsParens hneeded).1

theorem lt_strengthIn_left {op : BinaryOp} (left : Tree)
    (hcomparison : op.isComparison = true) :
    op.precedence <
      strengthIn (needsParens left.precedence op .left) left.strength := by
  cases hneeded : needsParens left.precedence op .left with
  | true => exact binary_lt_atom op
  | false =>
      exact Nat.lt_of_lt_of_le
        ((precedence_le_of_not_needsParens hneeded).2 hcomparison)
        (precedence_le_strength left)

theorem lt_strengthIn_right (op : BinaryOp) (right : Tree) :
    op.precedence <
      strengthIn (needsParens right.precedence op .right) right.strength := by
  cases hneeded : needsParens right.precedence op .right with
  | true => exact binary_lt_atom op
  | false =>
      exact Nat.lt_of_lt_of_le (precedence_lt_of_not_needsParens hneeded)
        (precedence_le_strength right)

theorem lt_edgeIn_right (op : BinaryOp) (right : Tree) :
    op.precedence <
      edgeIn (needsParens right.precedence op .right) right.edge := by
  cases hneeded : needsParens right.precedence op .right with
  | true => exact Nat.lt_succ_of_lt (binary_lt_atom op)
  | false =>
      exact Nat.lt_of_lt_of_le (precedence_lt_of_not_needsParens hneeded)
        (precedence_le_edge right)

theorem le_strengthIn_operand (op : UnaryOp) (operand : Tree) :
    op.precedence ≤
      strengthIn (operand.precedence < op.precedence) operand.strength := by
  by_cases hneeded : operand.precedence < op.precedence
  · rw [decide_eq_true hneeded]
    exact Nat.le_of_lt (unary_lt_atom op)
  · rw [decide_eq_false hneeded]
    exact Nat.le_trans (Nat.le_of_not_lt hneeded)
      (precedence_le_strength operand)

theorem le_edgeIn_operand (op : UnaryOp) (operand : Tree) :
    op.precedence ≤
      edgeIn (operand.precedence < op.precedence) operand.edge := by
  by_cases hneeded : operand.precedence < op.precedence
  · rw [decide_eq_true hneeded]
    exact Nat.le_succ_of_le (Nat.le_of_lt (unary_lt_atom op))
  · rw [decide_eq_false hneeded]
    exact Nat.le_trans (Nat.le_of_not_lt hneeded) (precedence_le_edge operand)

theorem Spells.parenthesized {levels strength edge : Nat} {tokens : List Token}
    {e : Tree} (h : Spells levels strength edge tokens e) (needed : Bool) :
    Spells (levelsIn needed levels) (strengthIn needed strength)
      (edgeIn needed edge)
      (parenthesizedTokens needed tokens) e := by
  cases needed with
  | false => exact h
  | true => exact h.group

theorem spellsArgs_argTokens {args : List Tree}
    (h : ∀ arg ∈ args,
      Spells arg.levels arg.strength arg.edge arg.tokens arg.unresolved) :
    SpellsArgs (argLevels args) (argTokens args) (argsUnresolved args) := by
  induction args with
  | nil => exact spellsArgs_none
  | cons arg args ih =>
      rw [List.forall_mem_cons] at h
      cases args with
      | nil =>
          rw [argLevels, argLevels, Nat.max_zero]
          exact h.1.one
      | cons next args => exact h.1.more (ih h.2)

theorem spells_tokens {e : Tree} (h : e.Writable) :
    Spells e.levels e.strength e.edge e.tokens e.unresolved := by
  induction e using induct with
  | number value span => exact spells_number (Decimal.ofString?_render h) span
  | string value span => exact spells_string value span
  | reference name target span => exact spells_field name span
  | call function args span ih =>
      have hargs := spellsArgs_argTokens fun arg harg =>
        ih arg harg (argsWritable_iff.mp h.2 arg harg)
      exact hargs.call function span
  | binary op left right span ihLeft ihRight =>
      have hleft :=
        (ihLeft h.1).parenthesized (needsParens left.precedence op .left)
      have hright :=
        (ihRight h.2).parenthesized (needsParens right.precedence op .right)
      have hspells :=
        hleft.binary hright (lt_edgeIn_left op left) (lt_strengthIn_left left)
          (lt_strengthIn_right op right) span
      rwa [Nat.min_eq_left (lt_edgeIn_right op right)] at hspells
  | unary op operand span ih =>
      have hoperand := (ih h).parenthesized (operand.precedence < op.precedence)
      have hspells := hoperand.unary (le_strengthIn_operand op operand) span
      rwa [Nat.min_eq_left (le_edgeIn_operand op operand)] at hspells

theorem read_render {e : Tree} (h : e.Writable) :
    Token.read e.render.toList = some e.tokens :=
  Token.read_eq_some_iff.mpr (exists_scan_render h)

theorem parseWithin_render_of_lt {e : Tree} (h : e.Writable) {depth : Nat}
    (hdepth : depth < e.levels) :
    ∃ err, parseWithin depth e.render = .error (.parse err) ∧
      err.expected = .nestingAtMost depth :=
  (spells_tokens h).outOfLevels (read_render h) hdepth

/-! ## Levels that writing adds -/

def loosePrefix (bound : Nat) : Tree → Bool
  | unary op _ _ => op.precedence < bound
  | _ => false

mutual

/-- How many levels more than its source a written tree may take: one for each
prefix operator on the way down that stands where only an operator which binds
more tightly may stand bare. -/
def levelsAdded : Tree → Nat
  | number _ _ | string _ _ | reference _ _ _ => 0
  | call _ args _ => argLevelsAdded args
  | binary op left right _ =>
    max (levelsAdded left) (levelsIn (loosePrefix op.precedence right)
      (levelsAdded right))
  | unary op operand _ =>
    levelsIn (loosePrefix op.precedence operand) (levelsAdded operand)

def argLevelsAdded : List Tree → Nat
  | [] => 0
  | arg :: args => max (levelsAdded arg) (argLevelsAdded args)

end

@[simp] theorem levels_withSpan (span : Span) (e : Tree) :
    (e.withSpan span).levels = e.levels := by
  cases e <;> simp [withSpan, levels]

@[simp] theorem levelsAdded_withSpan (span : Span) (e : Tree) :
    (e.withSpan span).levelsAdded = e.levelsAdded := by
  cases e <;> simp [withSpan, levelsAdded]

def Bare (strength edge : Nat) (e : Tree) : Prop :=
  strength = e.precedence ∨ (∃ op operand span, e = unary op operand span) ∧
  edge ≤ e.precedence

theorem needsParens_right_iff {child : Nat} {op : BinaryOp} :
    needsParens child op .right = true ↔ child ≤ op.precedence := by
  simp only [needsParens, beq_self_eq_true, Bool.true_or, Bool.and_true,
    Bool.or_eq_true, decide_eq_true_eq, beq_iff_eq]
  omega

theorem needsParens_left_iff {child : Nat} {op : BinaryOp} :
    needsParens child op .left = true ↔
      child < op.precedence ∨
      child = op.precedence ∧ op.isComparison = true := by
  have hside : (Side.left == Side.right) = false := rfl
  simp [needsParens, hside]

theorem not_needsParens_of_bare {strength edge : Nat} {op : BinaryOp}
    {left : Tree} (h : Bare strength edge left) (hedge : op.precedence < edge)
    (hle : edge ≤ strength + 1)
    (hchain : op.isComparison = true → op.precedence < strength) :
    needsParens left.precedence op .left = false := by
  rw [← Bool.not_eq_true, needsParens_left_iff]
  rcases h with rfl | ⟨-, hprecedence⟩
  · rintro (hlt | ⟨heq, hcomparison⟩)
    · omega
    · have hlt := hchain hcomparison
      omega
  · omega

theorem loosePrefix_of_bare_right {strength edge : Nat} {op : BinaryOp}
    {right : Tree} (h : Bare strength edge right)
    (hstrength : op.precedence < strength)
    (hneeded : needsParens right.precedence op .right = true) :
    loosePrefix op.precedence right = true := by
  rw [needsParens_right_iff] at hneeded
  rcases h with rfl | ⟨⟨op', operand, span, rfl⟩, -⟩
  · omega
  · exact decide_eq_true
      (Nat.lt_of_le_of_ne hneeded (precedence_ne op op').symm)

theorem loosePrefix_of_bare_operand {strength edge : Nat} {op : UnaryOp}
    {operand : Tree} (h : Bare strength edge operand)
    (hstrength : op.precedence ≤ strength)
    (hneeded : operand.precedence < op.precedence) :
    loosePrefix op.precedence operand = true := by
  rcases h with rfl | ⟨⟨op', operand', span, rfl⟩, -⟩
  · omega
  · exact decide_eq_true hneeded

theorem levelsIn_false (levels : Nat) : levelsIn false levels = levels := rfl

theorem levelsIn_true (levels : Nat) : levelsIn true levels = levels + 1 := rfl

theorem levelsIn_le {levels needed added : Nat} {parens loose : Bool}
    (h : levels ≤ needed + added)
    (hparens : levels + 1 ≤ needed + added ∨ (parens = true → loose = true)) :
    levelsIn parens levels ≤ needed + levelsIn loose added := by
  have hloose := le_levelsIn loose added
  cases parens with
  | false =>
      rw [levelsIn_false]
      omega
  | true =>
      rw [levelsIn_true]
      rcases hparens with hgrouped | himp
      · omega
      · rw [himp rfl, levelsIn_true]
        omega

/-- A tree that was read in a group of its own takes one level less once it is
written. -/
theorem Written.levels_le {levels strength edge : Nat} {lexemes : List Lexeme}
    {e : Tree} (h : Written levels strength edge lexemes e) :
    e.levels ≤ levels + e.levelsAdded ∧
      (e.levels + 1 ≤ levels + e.levelsAdded ∨ Bare strength edge e) := by
  induction h using Written.rec (motive_2 := fun levels _ args _ =>
    argLevels args ≤ levels + argLevelsAdded args) with
  | number | string | field | word => exact ⟨Nat.le_refl _, .inr (.inl rfl)⟩
  | call function hargs start paren stop ih =>
      constructor
      · rw [Tree.levels, levelsAdded]
        omega
      · exact .inr (.inl rfl)
  | group h start stop ih =>
      rw [levels_withSpan, levelsAdded_withSpan]
      constructor
      · omega
      · left
        omega
  | @binary leftLevels _ _ rightLevels _ _ _ _ left right op span hleft
      hright hedge hchain
      hstrength ihLeft ihRight =>
      constructor
      · have hlevelsLeft : levelsIn (needsParens left.precedence op .left)
            left.levels ≤ leftLevels + levelsIn false left.levelsAdded := by
          apply levelsIn_le ihLeft.1
          apply ihLeft.2.imp_right
          intro hbare
          rw [not_needsParens_of_bare hbare hedge hleft.edge_le hchain]
          exact id
        have hlevelsRight : levelsIn (needsParens right.precedence op .right)
            right.levels ≤
              rightLevels + levelsIn (loosePrefix op.precedence right)
                right.levelsAdded := by
          apply levelsIn_le ihRight.1
          exact ihRight.2.imp_right fun hbare =>
            loosePrefix_of_bare_right hbare hstrength
        rw [levelsIn_false] at hlevelsLeft
        rw [Tree.levels, levelsAdded]
        omega
      · exact .inr (.inl rfl)
  | @unary _ _ _ _ operand op start h hstrength ih =>
      constructor
      · have hlevels := levelsIn_le ih.1 (ih.2.imp_right fun hbare hneeded =>
          loosePrefix_of_bare_operand hbare hstrength
            (of_decide_eq_true hneeded))
        rw [Tree.levels, levelsAdded]
        omega
      · exact .inr (.inr ⟨⟨op, operand, _, rfl⟩, Nat.min_le_left _ _⟩)
  | none => exact Nat.zero_le _
  | one h ih =>
      simp only [argLevels, argLevelsAdded, Nat.max_zero]
      exact ih.1
  | more h comma hrest ih ihRest =>
      rw [argLevels, argLevelsAdded]
      omega

/-! ## Limits for written trees -/

/-- A tree that was read within some levels is read again, once written, within
those and the ones that writing adds.  What it takes is just the levels of the
tree: with fewer, the parser runs out of them. -/
theorem parseWithin_render_limits {depth : Nat} {source : String} {e : Tree}
    (h : parseWithin depth source = .ok e) :
    (∃ e', parseWithin (depth + e.levelsAdded) e.render = .ok e' ∧
        e'.same e = true) ∧
      ∀ limit, (e.levels ≤ limit → ∃ e', parseWithin limit e.render = .ok e' ∧
        e'.same e = true) ∧
        (limit < e.levels → ∃ err,
          parseWithin limit e.render = .error (.parse err) ∧
          err.expected = .nestingAtMost limit) := by
  rcases plain_of_parseWithin h with ⟨hwritable, hunresolved⟩
  have hback : ∀ limit, e.levels ≤ limit →
      ∃ e', parseWithin limit e.render = .ok e' ∧ e'.same e = true := by
    intro limit hlimit
    rcases parseWithin_render hwritable hlimit with ⟨e', hparse, hsame⟩
    rw [hunresolved] at hsame
    exact ⟨e', hparse, same_of_withoutSpans_eq hsame⟩
  constructor
  · rcases exists_written_of_parseWithin h with
      ⟨lexemes, levels, strength, edge, -, hlevels, hwritten⟩
    have hadded := hwritten.levels_le.1
    exact hback _ (by omega)
  · exact fun limit => ⟨hback limit, parseWithin_render_of_lt hwritable⟩

def complement : Tree :=
  binary .mul (number .one ⟨0, 1⟩)
    (unary .not (reference "a" none ⟨8, 9⟩) ⟨4, 9⟩) ⟨0, 9⟩

theorem parseWithin_complement :
    parseWithin 3 "1 * NOT a" = .ok complement := by
  have hscan : Token.scan "1 * NOT a" =
      .ok [⟨.number "1", ⟨0, 1⟩⟩, ⟨.operator .mul, ⟨2, 3⟩⟩,
      ⟨.not, ⟨4, 7⟩⟩, ⟨.word "a", ⟨8, 9⟩⟩] := by decide +kernel
  rw [parseWithin, hscan]
  rfl

theorem parseWithin_render_limits_complement :
    (∃ e', parseWithin 4 "1 * (NOT [a])" = .ok e' ∧ e'.same complement = true) ∧
      ∃ err, parseWithin 3 "1 * (NOT [a])" = .error (.parse err) ∧
        err.expected = .nestingAtMost 3 := by
  have hlimits := parseWithin_render_limits parseWithin_complement
  have hrender : complement.render = "1 * (NOT [a])" := by decide +kernel
  rw [hrender] at hlimits
  exact ⟨hlimits.1, (hlimits.2 3).2 (by decide)⟩

theorem argLevels_map_withoutSpans {args : List Tree}
    (h : ∀ arg ∈ args, arg.withoutSpans.levels = arg.levels) :
    argLevels (args.map withoutSpans) = argLevels args := by
  induction args with
  | nil => rfl
  | cons arg args ih =>
      rw [List.forall_mem_cons] at h
      rw [List.map_cons, argLevels, argLevels, h.1, ih h.2]

theorem precedence_withoutSpans (e : Tree) :
    e.withoutSpans.precedence = e.precedence := by
  cases e <;> rfl

theorem levels_withoutSpans (e : Tree) : e.withoutSpans.levels = e.levels := by
  induction e using induct with
  | number value span => rfl
  | string value span => rfl
  | reference name target span => rfl
  | call function args span ih =>
      rw [withoutSpans, argsWithoutSpans_eq_map, levels, levels,
        argLevels_map_withoutSpans ih]
  | binary op left right span ihLeft ihRight =>
      simp only [withoutSpans, levels, precedence_withoutSpans, ihLeft, ihRight]
  | unary op operand span ih =>
      simp only [withoutSpans, levels, precedence_withoutSpans, ih]

def complementsChars : Nat → List Char
  | 0 => ['[', 'a', ']']
  | n + 1 =>
    '1' :: ' ' :: (BinaryOp.mul.symbol.toList ++
      ' ' :: (UnaryOp.not.symbol.toList ++ complementsChars n))

def complements : Nat → Tree
  | 0 => reference "a" none ⟨0, 0⟩
  | n + 1 =>
    binary .mul (number .one ⟨0, 0⟩) (unary .not (complements n) ⟨0, 0⟩) ⟨0, 0⟩

def complementsTokens : Nat → List Token
  | 0 => [.field "a"]
  | n + 1 => .number "1" :: .operator .mul :: .not :: complementsTokens n

theorem read_complementsChars (n : Nat) :
    Token.read (complementsChars n) = some (complementsTokens n) := by
  induction n with
  | zero => decide +kernel
  | succ n ih =>
      have hone :=
        @Token.read_before_blank '1' [] (.number "1")
          (BinaryOp.mul.symbol.toList ++
        ' ' :: (UnaryOp.not.symbol.toList ++ complementsChars n))
          (by decide) rfl
      rw [Token.read_infix, Token.read_prefix, ih] at hone
      exact hone

theorem spells_complements (n : Nat) :
    ∃ strength edge, Precedence.negation ≤ strength ∧
      Spells (2 * n + 1) strength edge (complementsTokens n)
        (complements n) := by
  induction n with
  | zero => exact ⟨Precedence.atom, _, by decide, spells_field "a" ⟨0, 0⟩⟩
  | succ n ih =>
      rcases ih with ⟨strength, edge, hstrength, hspells⟩
      have hone :
          Spells 1 Precedence.atom (Precedence.atom + 1) [.number "1"]
        (number .one ⟨0, 0⟩) := spells_number rfl ⟨0, 0⟩
      have hnot : Spells (2 * n + 2) Precedence.atom
          (min Precedence.negation edge) _ _ :=
        @Spells.unary _ _ _ _ _ hspells .not hstrength ⟨0, 0⟩
      have hproduct : Spells (max 1 (2 * n + 2 + 1)) BinaryOp.mul.precedence
        _ _ _ := hone.binary hnot (by decide) (by decide) (by decide) ⟨0, 0⟩
      rw [Nat.max_eq_right (by omega)] at hproduct
      exact ⟨_, _, show Precedence.negation ≤ BinaryOp.mul.precedence by decide,
        hproduct⟩

theorem levels_complements (n : Nat) : (complements n).levels = 3 * n + 1 := by
  induction n with
  | zero => rfl
  | succ n ih =>
      have hbare :
          decide ((complements n).precedence < UnaryOp.not.precedence) =
            false := by
        cases n <;> rfl
      have hcomplement : (unary .not (complements n) ⟨0, 0⟩).levels =
          3 * n + 2 := by
        rw [levels, hbare, levelsIn_false, ih]
      rw [complements, levels, hcomplement]
      -- The complement stands in parentheses, the number does not.
      change max (levelsIn false 1) (levelsIn true (3 * n + 2) + 1) = _
      rw [levelsIn_false, levelsIn_true]
      omega

/-- Twenty-two complements fit into the default limit, and what is written for
them does not. -/
theorem not_forall_parse_render_within_default :
    ¬ ∀ source e, parse source = .ok e → ∃ e', parse e.render = .ok e' ∧
      e'.same e = true := by
  intro h
  rcases spells_complements 22 with ⟨strength, edge, -, hspells⟩
  have hread : Token.read (String.ofList (complementsChars 22)).toList =
      some (complementsTokens 22) := by
    rw [String.toList_ofList, read_complementsChars]
  rcases hspells.exists_parse hread (show 45 ≤ defaultMaxDepth by decide) with
    ⟨e, hparse, hsame⟩
  rcases h _ e hparse with ⟨e', hparse', -⟩
  have hlevels : e.levels = 67 := by
    rw [← levels_withoutSpans, hsame, levels_withoutSpans, levels_complements]
  rcases parseWithin_render_of_lt (plain_of_parseWithin hparse).1
    (show defaultMaxDepth < e.levels by rw [hlevels]; decide)
    with ⟨err, hrefused, -⟩
  rw [parse, hrefused] at hparse'
  cases hparse'

end TableQuery.Tree
