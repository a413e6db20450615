import TableQuery.Proofs.Formula.Grammar

/-!
# What the parser reads

A grammar without ambiguities, which tells what a sequence of lexemes is read
as, how many levels that takes, and what may come next.  The parser reads a tree
from the lexemes that write it wherever it has the levels, and runs out of
levels where it has fewer; all that it reads is written this way.
-/

namespace TableQuery.Tree

/-! ## The grammar -/

mutual

/-- The lexemes write the tree, with its spans.  Reading takes `levels` levels.
The operators of the tree outside all groups bind at least as tightly as
`strength`.  An operator behind the lexemes that binds as tightly as `edge` is
taken into the tree, by its last operator or prefix. -/
inductive Written : (levels strength edge : Nat) → List Lexeme → Tree → Prop
  | number {digits : String} {value : Decimal}
      (h : Decimal.ofString? digits = some value) (span : Span) :
      Written 1 Precedence.atom (Precedence.atom + 1) [⟨.number digits, span⟩]
        (number value span)
  | string (value : String) (span : Span) :
      Written 1 Precedence.atom (Precedence.atom + 1) [⟨.string value, span⟩]
        (string value span)
  | field (name : String) (span : Span) :
      Written 1 Precedence.atom (Precedence.atom + 1) [⟨.field name, span⟩]
        (reference name none span)
  | word (name : String) (span : Span) :
      Written 1 Precedence.atom (Precedence.atom + 1) [⟨.word name, span⟩]
        (reference name none span)
  | call {levels : Nat} {lexemes : List Lexeme} {args : List Tree}
      (function : String) (hargs : WrittenArgs levels lexemes args)
      (start paren stop : Span) :
      Written (levels + 1) Precedence.atom (Precedence.atom + 1)
        (⟨.word function, start⟩ :: ⟨.leftParen, paren⟩ ::
          (lexemes ++ [⟨.rightParen, stop⟩]))
        (call function args (start.join stop))
  | group {levels strength edge : Nat} {lexemes : List Lexeme} {e : Tree}
      (h : Written levels strength edge lexemes e) (start stop : Span) :
      Written (levels + 1) Precedence.atom (Precedence.atom + 1)
        (⟨.leftParen, start⟩ :: (lexemes ++ [⟨.rightParen, stop⟩]))
        (e.withSpan (start.join stop))
  | binary {leftLevels leftStrength leftEdge rightLevels rightStrength
      rightEdge : Nat}
      {leftLexemes rightLexemes : List Lexeme} {left right : Tree}
      (op : BinaryOp) (span : Span)
      (hleft : Written leftLevels leftStrength leftEdge leftLexemes left)
      (hright : Written rightLevels rightStrength rightEdge rightLexemes right)
      (hedge : op.precedence < leftEdge)
      (hchain : op.isComparison = true → op.precedence < leftStrength)
      (hstrength : op.precedence < rightStrength) :
      Written (max leftLevels (rightLevels + 1)) op.precedence
        (min (op.precedence + 1) rightEdge)
        (leftLexemes ++ ⟨.operator op, span⟩ :: rightLexemes)
        (binary op left right (left.span.join right.span))
  | unary {levels strength edge : Nat} {lexemes : List Lexeme} {e : Tree}
      (op : UnaryOp) (start : Span) (h : Written levels strength edge lexemes e)
      (hstrength : op.precedence ≤ strength) :
      Written (levels + 1) Precedence.atom (min op.precedence edge)
        (⟨.ofUnary op, start⟩ :: lexemes) (unary op e (start.join e.span))

inductive WrittenArgs : (levels : Nat) → List Lexeme → List Tree → Prop
  | none : WrittenArgs 0 [] []
  | one {levels strength edge : Nat} {lexemes : List Lexeme} {arg : Tree}
      (h : Written levels strength edge lexemes arg) :
      WrittenArgs levels lexemes [arg]
  | more {levels strength edge restLevels : Nat}
      {lexemes restLexemes : List Lexeme} {arg next : Tree} {args : List Tree}
      (h : Written levels strength edge lexemes arg) (comma : Span)
      (hrest : WrittenArgs restLevels restLexemes (next :: args)) :
      WrittenArgs (max levels restLevels)
        (lexemes ++ ⟨.comma, comma⟩ :: restLexemes) (arg :: next :: args)

end

theorem binary_lt_atom (op : BinaryOp) : op.precedence < Precedence.atom := by
  cases op <;> decide

theorem unary_lt_atom (op : UnaryOp) : op.precedence < Precedence.atom := by
  cases op <;> decide

theorem Written.levels_pos {levels strength edge : Nat} {lexemes : List Lexeme}
    {e : Tree} (h : Written levels strength edge lexemes e) : 0 < levels := by
  cases h <;> omega

theorem Written.edge_le {levels strength edge : Nat} {lexemes : List Lexeme}
    {e : Tree} (h : Written levels strength edge lexemes e) :
    edge ≤ strength + 1 := by
  cases h with
  | unary op =>
      have hop := unary_lt_atom op
      omega
  | _ => omega

theorem Written.exists_cons {levels strength edge : Nat} {lexemes : List Lexeme}
    {e : Tree} (h : Written levels strength edge lexemes e) :
    ∃ first more, lexemes = first :: more ∧ first.token ≠ .rightParen := by
  induction h using Written.rec (motive_2 := fun _ _ _ _ => True) with
  | binary op span hleft hright hedge hchain hstrength ihLeft ihRight =>
      rcases ihLeft with ⟨first, more, rfl, hne⟩
      exact ⟨first, _, List.cons_append, hne⟩
  | unary op start h hstrength ih =>
      exact ⟨_, _, rfl, by cases op <;> simp [Token.ofUnary]⟩
  | none | one | more => trivial
  | _ => exact ⟨_, _, rfl, by simp⟩

theorem WrittenArgs.exists_cons {levels : Nat} {lexemes : List Lexeme}
    {arg : Tree} {args : List Tree}
    (h : WrittenArgs levels lexemes (arg :: args)) :
    ∃ first more, lexemes = first :: more ∧ first.token ≠ .rightParen := by
  cases h with
  | one h => exact h.exists_cons
  | more h comma hrest =>
      rcases h.exists_cons with ⟨first, more, rfl, hne⟩
      exact ⟨first, _, List.cons_append, hne⟩

/-! ## Reading what is written -/

/-- What comes behind a tree without being taken into it: no operator that binds
as tightly as `bound`, and no parenthesis that would make a call of a word. -/
structure Follows (bound : Nat) (rest : List Lexeme) : Prop where
  stops : Stops bound (rest.map (·.token))
  no_paren : (rest.map (·.token)).head? ≠ some .leftParen

theorem Follows.mono {bound bound' : Nat} {rest : List Lexeme}
    (h : Follows bound rest) (hle : bound ≤ bound') : Follows bound' rest :=
  ⟨h.stops.mono hle, h.no_paren⟩

theorem follows_nil (bound : Nat) : Follows bound [] :=
  ⟨by simp [Stops], by simp⟩

theorem follows_closing (bound : Nat) (span : Span) (rest : List Lexeme) :
    Follows bound (⟨.rightParen, span⟩ :: rest) := ⟨by simp [Stops], by simp⟩

theorem follows_comma (bound : Nat) (span : Span) (rest : List Lexeme) :
    Follows bound (⟨.comma, span⟩ :: rest) := ⟨by simp [Stops], by simp⟩

theorem follows_operator {bound : Nat} {op : BinaryOp}
    (h : op.precedence < bound) (span : Span) (rest : List Lexeme) :
    Follows bound (⟨.operator op, span⟩ :: rest) := by
  constructor
  · intro op' hop'
    cases hop'
    exact h
  · simp

variable {sourceEnd maxDepth : Nat}

/-- Set on the lexemes and more, the parser comes to hold the tree and goes on
with what follows, given enough levels. -/
def Reached (sourceEnd maxDepth levels strength edge : Nat)
    (lexemes : List Lexeme) (e : Tree) : Prop :=
  ∀ below least rest, levels ≤ below + 1 → least ≤ strength →
    Follows edge rest → ∃ fuel afterComparison, rest.length ≤ fuel ∧
      (afterComparison = true → strength = Precedence.comparison) ∧
      expression sourceEnd maxDepth (below + 1) least (lexemes ++ rest) =
        operators sourceEnd (expression sourceEnd maxDepth below) least fuel e
          afterComparison rest

theorem Reached.expression_eq {levels strength edge : Nat}
    {lexemes : List Lexeme} {e : Tree}
    (h : Reached sourceEnd maxDepth levels strength edge lexemes e)
    (hpos : 0 < levels) {within least : Nat} {rest : List Lexeme}
    (hlevels : levels ≤ within) (hleast : least ≤ strength)
    (hstops : Stops least (rest.map (·.token))) (hrest : Follows edge rest) :
    expression sourceEnd maxDepth within least (lexemes ++ rest) =
      .ok (e, rest) := by
  rcases Nat.exists_eq_add_one.mpr (Nat.lt_of_lt_of_le hpos hlevels) with
    ⟨below, rfl⟩
  rcases h below least rest hlevels hleast hrest with
    ⟨fuel, afterComparison, -, -, hexpression⟩
  rw [hexpression, operators_of_stops hstops]

theorem reached_of_operand {levels strength edge : Nat} {lexemes : List Lexeme}
    {e : Tree}
    (h : ∀ below rest, levels ≤ below + 1 → Follows edge rest →
      operand sourceEnd (expression sourceEnd maxDepth below)
          (lexemes ++ rest) = .ok (e, rest)) :
    Reached sourceEnd maxDepth levels strength edge lexemes e := by
  intro below least rest hlevels _ hrest
  use rest.length, false
  simp [expression, h below rest hlevels hrest]

theorem not_chained {op : BinaryOp} {afterComparison : Bool} {strength : Nat}
    (hchain : op.isComparison = true → op.precedence < strength)
    (hafter : afterComparison = true → strength = Precedence.comparison) :
    (op.isComparison && afterComparison) = false := by
  cases hcomparison : op.isComparison with
  | false => rfl
  | true =>
      cases afterComparison with
      | false => rfl
      | true =>
          have hlt := hchain hcomparison
          rw [hafter rfl, isComparison_iff.mp hcomparison] at hlt
          omega

theorem reached_binary
    {leftLevels leftStrength leftEdge rightLevels rightStrength rightEdge : Nat}
    {leftLexemes rightLexemes : List Lexeme} {left right : Tree} (op : BinaryOp)
    (span : Span)
    (hleft : Reached sourceEnd maxDepth leftLevels leftStrength leftEdge
      leftLexemes left)
    (hright : Reached sourceEnd maxDepth rightLevels rightStrength rightEdge
      rightLexemes right)
    (hpos : 0 < rightLevels) (hedge : op.precedence < leftEdge)
    (hle : leftEdge ≤ leftStrength + 1)
    (hchain : op.isComparison = true → op.precedence < leftStrength)
    (hstrength : op.precedence < rightStrength) :
    Reached sourceEnd maxDepth (max leftLevels (rightLevels + 1)) op.precedence
      (min (op.precedence + 1) rightEdge)
      (leftLexemes ++ ⟨.operator op, span⟩ :: rightLexemes)
      (binary op left right (left.span.join right.span)) := by
  intro below least rest hlevels hleast hrest
  have hbehind := follows_operator hedge span (rightLexemes ++ rest)
  rcases hleft below least _ (by omega) (by omega) hbehind with
    ⟨fuel, afterComparison, hfuel, hafter, hexpression⟩
  have hstops : Stops (op.precedence + 1) (rest.map (·.token)) :=
    hrest.stops.mono (Nat.min_le_left _ _)
  have hparse : expression sourceEnd maxDepth below (op.precedence + 1)
      (rightLexemes ++ rest) = .ok (right, rest) :=
    hright.expression_eq hpos (by omega) hstrength hstops
      (hrest.mono (Nat.min_le_right _ _))
  simp only [List.length_cons, List.length_append] at hfuel
  rcases Nat.exists_eq_add_one.mpr (show 0 < fuel by omega) with ⟨fuel, rfl⟩
  refine ⟨fuel, op.isComparison, by omega, isComparison_iff.mp, ?_⟩
  rw [List.append_assoc, List.cons_append, hexpression]
  simp [operators, Token.infixOp?, Nat.not_lt.mpr hleast,
    not_chained hchain hafter, hparse]

def ReadsArgs (sourceEnd maxDepth levels : Nat) (lexemes : List Lexeme)
    (args : List Tree) : Prop :=
  ∀ within fuel stop rest, args ≠ [] → levels ≤ within →
    (lexemes ++ ⟨.rightParen, stop⟩ :: rest).length < fuel →
    arguments sourceEnd (expression sourceEnd maxDepth within) fuel
      (lexemes ++ ⟨.rightParen, stop⟩ :: rest) =
        .ok (args, ⟨.rightParen, stop⟩ :: rest)

theorem callOperand_eq {levels : Nat} {lexemes : List Lexeme} {args : List Tree}
    (h : ReadsArgs sourceEnd maxDepth levels lexemes args)
    (hargs : WrittenArgs levels lexemes args) {within : Nat}
    (hlevels : levels ≤ within) (name : String) (start stop : Span)
    (rest : List Lexeme) :
    callOperand sourceEnd (expression sourceEnd maxDepth within) name start
      (lexemes ++ ⟨.rightParen, stop⟩ :: rest) =
        .ok (call name args (start.join stop), rest) := by
  cases args with
  | nil =>
      cases hargs
      rfl
  | cons arg args =>
      have hread := h within _ stop rest (by simp) hlevels (Nat.lt_succ_self _)
      rcases hargs.exists_cons with ⟨first, more, rfl, hne⟩
      unfold callOperand
      split
      case h_1 heq =>
          cases heq
          exact absurd rfl hne
      case h_2 => simp only [hread, closing]

theorem Written.reached {levels strength edge : Nat} {lexemes : List Lexeme}
    {e : Tree} (h : Written levels strength edge lexemes e) :
    Reached sourceEnd maxDepth levels strength edge lexemes e := by
  induction h using Written.rec (motive_2 := fun levels lexemes args _ =>
    ReadsArgs sourceEnd maxDepth levels lexemes args) with
  | number h span =>
      exact reached_of_operand fun below rest _ _ => by simp [operand, h]
  | string value span =>
      exact reached_of_operand fun below rest _ _ => by simp [operand]
  | field name span =>
      exact reached_of_operand fun below rest _ _ => by simp [operand]
  | word name span =>
      apply reached_of_operand
      intro below rest _ hrest
      simp only [List.singleton_append, operand]
      split
      case h_1 => exact absurd rfl hrest.no_paren
      case h_2 => rfl
  | call function hargs start paren stop ih =>
      apply reached_of_operand
      intro below rest hlevels _
      simp only [List.cons_append, List.append_assoc, List.nil_append, operand]
      exact callOperand_eq ih hargs (Nat.le_of_succ_le_succ hlevels) function
        start stop rest
  | group h start stop ih =>
      apply reached_of_operand
      intro below rest hlevels _
      have hparse :=
        ih.expression_eq h.levels_pos (Nat.le_of_succ_le_succ hlevels)
          (Nat.zero_le _) (by simp [Stops]) (follows_closing _ stop rest)
      simp only [List.cons_append, List.append_assoc, List.nil_append, operand,
        hparse, closing]
  | binary op span hleft hright hedge hchain hstrength ihLeft ihRight =>
      exact reached_binary op span ihLeft ihRight hright.levels_pos hedge
        hleft.edge_le hchain hstrength
  | unary op start h hstrength ih =>
      apply reached_of_operand
      intro below rest hlevels hrest
      have hparse :=
        ih.expression_eq h.levels_pos (Nat.le_of_succ_le_succ hlevels) hstrength
          (hrest.stops.mono (Nat.min_le_left _ _))
          (hrest.mono (Nat.min_le_right _ _))
      cases op <;> simp only [List.cons_append, Token.ofUnary, operand,
        prefixOperand, hparse]
  | none => exact fun _ _ _ _ hargs _ _ => absurd rfl hargs
  | one h ih =>
      intro within fuel stop rest _ hlevels hfuel
      rcases Nat.exists_eq_add_one.mpr (Nat.zero_lt_of_lt hfuel) with
        ⟨fuel, rfl⟩
      have hparse :=
        ih.expression_eq h.levels_pos hlevels (Nat.zero_le _) (by simp [Stops])
          (follows_closing _ stop rest)
      simp only [arguments, hparse]
  | @more _ _ _ _ _ restLexemes _ _ _ h comma hrest ih ihRest =>
      intro within fuel stop rest _ hlevels hfuel
      rcases Nat.exists_eq_add_one.mpr (Nat.zero_lt_of_lt hfuel) with
        ⟨fuel, rfl⟩
      rw [List.append_assoc, List.cons_append] at hfuel ⊢
      have hparse := ih.expression_eq h.levels_pos
        (Nat.le_trans (Nat.le_max_left _ _) hlevels) (Nat.zero_le _)
        (by simp [Stops])
        (follows_comma _ comma (restLexemes ++ ⟨.rightParen, stop⟩ :: rest))
      have hmore := ihRest within fuel stop rest (by simp)
        (Nat.le_trans (Nat.le_max_right _ _) hlevels)
        (by simp only [List.length_append, List.length_cons] at hfuel ⊢; omega)
      simp only [arguments, hparse, hmore]

/-! ## Running out of levels -/

def OutOfLevels {α : Type} (maxDepth : Nat) (parsed : Except ParseError α) :
    Prop :=
  ∃ err, parsed = .error err ∧ err.expected = .nestingAtMost maxDepth

def Refused (sourceEnd maxDepth levels strength edge : Nat)
    (lexemes : List Lexeme) : Prop :=
  ∀ within least rest, within < levels → least ≤ strength → Follows edge rest →
    OutOfLevels maxDepth (expression sourceEnd maxDepth within least
      (lexemes ++ rest))

theorem outOfLevels_zero (least : Nat) (lexemes : List Lexeme) :
    OutOfLevels maxDepth (expression sourceEnd maxDepth 0 least lexemes) := by
  use errorAt sourceEnd lexemes (.nestingAtMost maxDepth)
  constructor
  · rfl
  · cases lexemes <;> rfl

theorem refused_one (strength edge : Nat) (lexemes : List Lexeme) :
    Refused sourceEnd maxDepth 1 strength edge lexemes := by
  intro within least rest hlevels _ _
  rw [Nat.lt_one_iff.mp hlevels]
  exact outOfLevels_zero _ _

theorem refused_of_operand {levels strength edge : Nat} {lexemes : List Lexeme}
    (h : ∀ below rest, below + 1 < levels → Follows edge rest →
      OutOfLevels maxDepth
        (operand sourceEnd (expression sourceEnd maxDepth below)
          (lexemes ++ rest))) :
    Refused sourceEnd maxDepth levels strength edge lexemes := by
  intro within least rest hlevels _ hrest
  cases within with
  | zero => exact outOfLevels_zero _ _
  | succ below =>
      rcases h below rest hlevels hrest with ⟨err, hoperand, herr⟩
      exact ⟨err, by simp only [expression, hoperand], herr⟩

theorem refused_binary
    {leftLevels leftStrength leftEdge rightLevels rightStrength rightEdge : Nat}
    {leftLexemes rightLexemes : List Lexeme} {left : Tree} (op : BinaryOp)
    (span : Span)
    (hleft : Reached sourceEnd maxDepth leftLevels leftStrength leftEdge
      leftLexemes left)
    (ihLeft : Refused sourceEnd maxDepth leftLevels leftStrength leftEdge
      leftLexemes)
    (ihRight : Refused sourceEnd maxDepth rightLevels rightStrength
      rightEdge rightLexemes)
    (hedge : op.precedence < leftEdge) (hle : leftEdge ≤ leftStrength + 1)
    (hchain : op.isComparison = true → op.precedence < leftStrength)
    (hstrength : op.precedence < rightStrength) :
    Refused sourceEnd maxDepth (max leftLevels (rightLevels + 1)) op.precedence
      (min (op.precedence + 1) rightEdge)
      (leftLexemes ++ ⟨.operator op, span⟩ :: rightLexemes) := by
  intro within least rest hlevels hleast hrest
  have hbehind := follows_operator hedge span (rightLexemes ++ rest)
  rw [List.append_assoc, List.cons_append]
  by_cases hwithin : within < leftLevels
  · exact ihLeft within least _ hwithin (by omega) hbehind
  · cases within with
    | zero => exact outOfLevels_zero _ _
    | succ below =>
        rcases hleft below least _ (by omega) (by omega) hbehind with
          ⟨fuel, afterComparison, hfuel, hafter, hexpression⟩
        rcases ihRight below (op.precedence + 1) rest (by omega) hstrength
          (hrest.mono (Nat.min_le_right _ _)) with ⟨err, hparse, herr⟩
        rcases Nat.exists_eq_add_one.mpr (Nat.zero_lt_of_lt hfuel) with
          ⟨fuel, rfl⟩
        refine ⟨err, ?_, herr⟩
        rw [hexpression]
        simp [operators, Token.infixOp?, Nat.not_lt.mpr hleast,
          not_chained hchain hafter, hparse]

def RefusedArgs (sourceEnd maxDepth levels : Nat)
    (lexemes : List Lexeme) : Prop :=
  ∀ within fuel stop rest, within < levels →
    (lexemes ++ ⟨.rightParen, stop⟩ :: rest).length < fuel →
    OutOfLevels maxDepth
      (arguments sourceEnd (expression sourceEnd maxDepth within) fuel
      (lexemes ++ ⟨.rightParen, stop⟩ :: rest))

theorem Written.refused {levels strength edge : Nat} {lexemes : List Lexeme}
    {e : Tree} (h : Written levels strength edge lexemes e) :
    Refused sourceEnd maxDepth levels strength edge lexemes := by
  induction h using Written.rec (motive_2 := fun levels lexemes args _ =>
    RefusedArgs sourceEnd maxDepth levels lexemes) with
  | number | string | field | word => exact refused_one _ _ _
  | @call _ _ args function hargs start paren stop ih =>
      apply refused_of_operand
      intro below rest hlevels _
      cases args with
      | nil =>
          cases hargs
          omega
      | cons arg args =>
          rcases ih below _ stop rest (Nat.lt_of_succ_lt_succ hlevels)
            (Nat.lt_succ_self _) with
            ⟨err, hparse, herr⟩
          rcases hargs.exists_cons with ⟨first, more, rfl, hne⟩
          refine ⟨err, ?_, herr⟩
          simp only [List.cons_append, List.append_assoc, List.nil_append,
            operand] at hparse ⊢
          unfold callOperand
          split
          case h_1 heq =>
              cases heq
              exact absurd rfl hne
          case h_2 => simp only [hparse]
  | group h start stop ih =>
      apply refused_of_operand
      intro below rest hlevels _
      rcases ih below 0 _ (Nat.lt_of_succ_lt_succ hlevels) (Nat.zero_le _)
        (follows_closing _ stop rest) with ⟨err, hparse, herr⟩
      refine ⟨err, ?_, herr⟩
      simp only [List.cons_append, List.append_assoc, List.nil_append,
        operand, hparse]
  | binary op span hleft hright hedge hchain hstrength ihLeft ihRight =>
      exact refused_binary op span hleft.reached ihLeft ihRight hedge
        hleft.edge_le hchain hstrength
  | unary op start h hstrength ih =>
      apply refused_of_operand
      intro below rest hlevels hrest
      rcases ih below op.precedence rest (Nat.lt_of_succ_lt_succ hlevels)
        hstrength (hrest.mono (Nat.min_le_right _ _)) with ⟨err, hparse, herr⟩
      refine ⟨err, ?_, herr⟩
      cases op <;> simp only [List.cons_append, Token.ofUnary, operand,
        prefixOperand, hparse]
  | none => exact fun _ _ _ _ hlevels _ => absurd hlevels (Nat.not_lt_zero _)
  | one h ih =>
      intro within fuel stop rest hlevels hfuel
      rcases Nat.exists_eq_add_one.mpr (Nat.zero_lt_of_lt hfuel) with
        ⟨fuel, rfl⟩
      rcases ih within 0 _ hlevels (Nat.zero_le _)
        (follows_closing _ stop rest) with
        ⟨err, hparse, herr⟩
      exact ⟨err, by simp only [arguments, hparse], herr⟩
  | @more levels _ argEdge _ _ restLexemes _ _ _ h comma hrest ih ihRest =>
      intro within fuel stop rest hlevels hfuel
      rcases Nat.exists_eq_add_one.mpr (Nat.zero_lt_of_lt hfuel) with
        ⟨fuel, rfl⟩
      rw [List.append_assoc, List.cons_append] at hfuel ⊢
      have hcomma := follows_comma argEdge comma
        (restLexemes ++ ⟨.rightParen, stop⟩ :: rest)
      by_cases hwithin : within < levels
      · rcases ih within 0 _ hwithin (Nat.zero_le _) hcomma with
          ⟨err, hparse, herr⟩
        exact ⟨err, by simp only [arguments, hparse], herr⟩
      · have hreached : Reached sourceEnd maxDepth _ _ _ _ _ := h.reached
        have hparse :=
          hreached.expression_eq h.levels_pos (Nat.le_of_not_lt hwithin)
            (Nat.zero_le _) (by simp [Stops]) hcomma
        rw [List.length_append, List.length_cons] at hfuel
        rcases ihRest within fuel stop rest (by omega) (by omega) with
          ⟨err, hmore, herr⟩
        exact ⟨err, by simp only [arguments, hparse, hmore], herr⟩

/-! ## All lexemes at once -/

theorem Written.ofLexemes_eq {levels strength edge : Nat}
    {lexemes : List Lexeme} {e : Tree}
    (h : Written levels strength edge lexemes e) (hlevels : levels ≤ maxDepth) :
    ofLexemes sourceEnd maxDepth lexemes = .ok e := by
  have hreached : Reached sourceEnd maxDepth _ _ _ _ _ := h.reached
  have hparse := hreached.expression_eq h.levels_pos hlevels (Nat.zero_le _)
    (by simp [Stops]) (follows_nil _)
  rw [List.append_nil] at hparse
  simp only [ofLexemes, hparse]

theorem Written.outOfLevels_ofLexemes {levels strength edge : Nat}
    {lexemes : List Lexeme} {e : Tree}
    (h : Written levels strength edge lexemes e) (hlevels : maxDepth < levels) :
    OutOfLevels maxDepth (ofLexemes sourceEnd maxDepth lexemes) := by
  have hrefused : Refused sourceEnd maxDepth _ _ _ _ := h.refused
  rcases hrefused maxDepth 0 [] hlevels (Nat.zero_le _) (follows_nil _) with
    ⟨err, hparse, herr⟩
  rw [List.append_nil] at hparse
  exact ⟨err, by simp only [ofLexemes, hparse], herr⟩

end TableQuery.Tree
