import TableQuery.Formula.Tree.Parser
import TableQuery.Proofs.Formula.Writing

/-!
# Parsing written formulas

Parsing the tokens of a tree gives back the tree.  A binary tree is not read as
a whole before its operator: its left operand is the tree that the parser has at
hand when it gets to the operator.  So the statement carried through the tree is
that the parser, set on the tokens of a tree and more, reaches the point where
it holds the tree and goes on with what follows.
-/

namespace TableQuery.Tree

/-! ## Levels -/

def levelsIn (needed : Bool) (levels : Nat) : Nat :=
  if needed then levels + 1
  else levels

mutual

def levels : Tree → Nat
  | number _ _ | string _ _ | reference _ _ _ => 1
  | call _ args _ => argLevels args + 1
  | binary op left right _ =>
    max (levelsIn (needsParens left.precedence op .left) (levels left))
      (levelsIn (needsParens right.precedence op .right) (levels right) + 1)
  | unary op operand _ =>
    levelsIn (operand.precedence < op.precedence) (levels operand) + 1

def argLevels : List Tree → Nat
  | [] => 0
  | arg :: args => max (levels arg) (argLevels args)

end

theorem le_levelsIn (needed : Bool) (n : Nat) : n ≤ levelsIn needed n := by
  cases needed <;> simp [levelsIn]

theorem levels_pos (e : Tree) : 0 < e.levels := by
  induction e using induct with
  | binary op left right span ihLeft ihRight =>
      have hleft :=
        le_levelsIn (needsParens left.precedence op .left) left.levels
      rw [levels]
      omega
  | _ => simp [levels]

theorem levels_le_argLevels {arg : Tree} {args : List Tree} (h : arg ∈ args) :
    arg.levels ≤ argLevels args := by
  induction args with
  | nil => cases h
  | cons first rest ih =>
      rw [argLevels]
      obtain rfl | h := List.mem_cons.mp h
      · omega
      · have hrest := ih h
        omega

/-! ## What follows a tree -/

/-- No infix operator that binds at least as tightly as `least` comes next. -/
def Stops (least : Nat) (next : List Token) : Prop :=
  ∀ op, next.head? = some (.operator op) → op.precedence < least

theorem Stops.mono {least least' : Nat} {next : List Token}
    (h : Stops least next) (hle : least ≤ least') : Stops least' next :=
  fun op hop => Nat.lt_of_lt_of_le (h op hop) hle

theorem stops_closing (least : Nat) (next : List Token) :
    Stops least (.rightParen :: next) := by
  intro op hop
  cases hop

theorem stops_comma (least : Nat) (next : List Token) :
    Stops least (.comma :: next) := by
  intro op hop
  cases hop

theorem isComparison_iff {op : BinaryOp} :
    op.isComparison = true ↔ op.precedence = Precedence.comparison := by
  cases op <;> decide

theorem Stops.ofUnary {op : UnaryOp} {next : List Token}
    (h : Stops (op.precedence + 1) next) : Stops op.precedence next := by
  intro binary hbinary
  have hlt := h binary hbinary
  have hne : binary.precedence ≠ op.precedence := by
    cases op <;> cases binary <;> decide
  omega

theorem precedence_lt_of_not_needsParens {child : Nat} {op : BinaryOp}
    (h : needsParens child op .right = false) : op.precedence + 1 ≤ child := by
  simp only [needsParens, beq_self_eq_true, Bool.true_or, Bool.and_true,
    Bool.or_eq_false_iff, decide_eq_false_iff_not, beq_eq_false_iff_ne] at h
  omega

theorem precedence_le_of_not_needsParens {child : Nat} {op : BinaryOp}
    (h : needsParens child op .left = false) :
    op.precedence ≤ child ∧
      (op.isComparison = true → op.precedence < child) := by
  have hside : (Side.left == Side.right) = false := rfl
  simp only [needsParens, hside, Bool.false_or, Bool.or_eq_false_iff,
    decide_eq_false_iff_not, Bool.and_eq_false_iff, beq_eq_false_iff_ne] at h
  obtain ⟨hle, hne⟩ := h
  refine ⟨by omega, fun hcomparison => ?_⟩
  rw [hcomparison] at hne
  obtain hne | hfalse := hne
  · omega
  · cases hfalse

theorem exists_tokens_cons (e : Tree) :
    ∃ token tokens, e.tokens = token :: tokens ∧ token ≠ .rightParen := by
  induction e using induct with
  | binary op left right span ihLeft ihRight =>
      obtain ⟨token, rest, hleft, hne⟩ := ihLeft
      rw [tokens]
      cases needsParens left.precedence op .left with
      | true => exact ⟨.leftParen, _, rfl, by simp⟩
      | false =>
          exact ⟨token, _, by simp [parenthesizedTokens, hleft]; rfl, hne⟩
  | unary op operand span ih =>
      cases op <;> exact ⟨_, _, rfl, by simp [Token.ofUnary]⟩
  | _ => exact ⟨_, _, rfl, by simp⟩

theorem exists_argTokens_cons (arg : Tree) (args : List Tree) :
    ∃ token tokens, argTokens (arg :: args) = token :: tokens ∧
      token ≠ .rightParen := by
  obtain ⟨token, tokens, htokens, hne⟩ := exists_tokens_cons arg
  cases args with
  | nil => exact ⟨token, tokens, htokens, hne⟩
  | cons next args =>
      exact ⟨token, _, by rw [argTokens_cons_cons, htokens]; rfl, hne⟩

/-! ## Reading a tree -/

def Parses (parsed : Parsed) (e : Tree) (next : List Token) : Prop :=
  ∃ e' rest, parsed = .ok (e', rest) ∧
    e'.withoutSpans = e.unresolved.withoutSpans ∧ rest.map (·.token) = next

section

variable {sourceEnd maxDepth : Nat}

/-- The parser comes to hold the tree, and has to go on with the operators that
follow. -/
def Reaches (sourceEnd maxDepth levels least : Nat) (lexemes : List Lexeme)
    (e : Tree) (next : List Token) : Prop :=
  ∃ e' rest fuel afterComparison,
    expression sourceEnd maxDepth (levels + 1) least lexemes =
      operators sourceEnd (expression sourceEnd maxDepth levels) least fuel e'
        afterComparison rest ∧
    e'.withoutSpans = e.unresolved.withoutSpans ∧ rest.map (·.token) = next ∧
    rest.length ≤ fuel ∧
    (afterComparison = true → e.precedence = Precedence.comparison)

theorem operators_of_stops {nested : Nested} {least fuel : Nat} {left : Tree}
    {afterComparison : Bool} {rest : List Lexeme}
    (h : Stops least (rest.map (·.token))) :
    operators sourceEnd nested least fuel left afterComparison rest =
      .ok (left, rest) := by
  cases fuel with
  | zero => rfl
  | succ fuel =>
      cases rest with
      | nil => rfl
      | cons lexeme rest =>
          obtain ⟨token, span⟩ := lexeme
          cases hop : token.infixOp? with
          | none => simp [operators, hop]
          | some op =>
              have htoken : token = .operator op := by
                cases token <;> simp_all [Token.infixOp?]
              have hlt := h op (by simp [htoken])
              simp [operators, hop, hlt]

theorem Reaches.parses {levels least : Nat} {lexemes : List Lexeme} {e : Tree}
    {next : List Token}
    (h : Reaches sourceEnd maxDepth levels least lexemes e next)
    (hnext : Stops least next) :
    Parses (expression sourceEnd maxDepth (levels + 1) least lexemes) e
      next := by
  obtain ⟨e', rest, fuel, afterComparison, hexpression, hsame, hrest, -, -⟩ := h
  exact ⟨e', rest, hexpression.trans (operators_of_stops (hrest ▸ hnext)),
    hsame, hrest⟩

theorem reaches_of_operand {levels least : Nat} {lexemes : List Lexeme}
    {e : Tree} {next : List Token}
    (h : Parses (operand sourceEnd (expression sourceEnd maxDepth levels)
      lexemes) e next) :
    Reaches sourceEnd maxDepth levels least lexemes e next := by
  obtain ⟨e', rest, hoperand, hsame, hrest⟩ := h
  refine ⟨e', rest, rest.length, false, ?_, hsame, hrest, Nat.le_refl _,
    by simp⟩
  rw [expression, hoperand]

def Readable (sourceEnd maxDepth : Nat) (e : Tree) : Prop :=
  ∀ levels least lexemes next, e.levels ≤ levels + 1 → least ≤ e.precedence →
    Stops (e.precedence + 1) next → lexemes.map (·.token) = e.tokens ++ next →
    Reaches sourceEnd maxDepth levels least lexemes e next

theorem Readable.parses {e : Tree} (h : Readable sourceEnd maxDepth e)
    {levels least : Nat} {lexemes : List Lexeme} {next : List Token}
    (hlevels : e.levels ≤ levels) (hleast : least ≤ e.precedence)
    (hnext : Stops least next)
    (hlexemes : lexemes.map (·.token) = e.tokens ++ next) :
    Parses (expression sourceEnd maxDepth levels least lexemes) e next := by
  have hpos := levels_pos e
  obtain ⟨levels, rfl⟩ : ∃ n, levels = n + 1 := ⟨levels - 1, by omega⟩
  exact (h levels least lexemes next hlevels hleast (hnext.mono (by omega))
    hlexemes).parses hnext

theorem exists_lexeme_of_map_eq_cons {lexemes : List Lexeme} {token : Token}
    {tokens : List Token} (h : lexemes.map (·.token) = token :: tokens) :
    ∃ span rest, lexemes = ⟨token, span⟩ :: rest ∧
      rest.map (·.token) = tokens := by
  obtain ⟨⟨_, span⟩, rest, rfl, rfl, hrest⟩ := List.map_eq_cons_iff.mp h
  exact ⟨span, rest, rfl, hrest⟩

/-! ### Operands -/

theorem Readable.parses_parenthesized {e : Tree}
    (h : Readable sourceEnd maxDepth e) {levels : Nat} {lexemes : List Lexeme}
    {next : List Token} (hlevels : e.levels ≤ levels)
    (hlexemes : lexemes.map (·.token) =
      .leftParen :: (e.tokens ++ .rightParen :: next)) :
    Parses (operand sourceEnd (expression sourceEnd maxDepth levels) lexemes) e
      next := by
  obtain ⟨start, inner, rfl, hinner⟩ := exists_lexeme_of_map_eq_cons hlexemes
  obtain ⟨e', rest, hparse, hsame, hrest⟩ :=
    h.parses hlevels (Nat.zero_le _) (stops_closing 0 next) hinner
  obtain ⟨stop, rest, rfl, hafter⟩ := exists_lexeme_of_map_eq_cons hrest
  refine ⟨e'.withSpan (start.join stop), rest, ?_,
    by rwa [withoutSpans_withSpan], hafter⟩
  simp only [operand, hparse, closing]

theorem Readable.parses_operand {e : Tree} (h : Readable sourceEnd maxDepth e)
    {needed : Bool} {levels least : Nat} {lexemes : List Lexeme}
    {next : List Token} (hlevels : levelsIn needed e.levels ≤ levels)
    (hleast : needed = false → least ≤ e.precedence) (hnext : Stops least next)
    (hlexemes : lexemes.map (·.token) =
      parenthesizedTokens needed e.tokens ++ next) :
    Parses (expression sourceEnd maxDepth levels least lexemes) e next := by
  cases needed with
  | false => exact h.parses hlevels (hleast rfl) hnext hlexemes
  | true =>
      obtain ⟨levels, rfl⟩ : ∃ n, levels = n + 1 :=
        ⟨levels - 1, by simp only [levelsIn, if_true] at hlevels; omega⟩
      refine (reaches_of_operand (h.parses_parenthesized ?_ ?_)).parses hnext
      · simpa [levelsIn] using hlevels
      · simpa [parenthesizedTokens] using hlexemes

theorem parses_unary {e : Tree} (h : Readable sourceEnd maxDepth e)
    {op : UnaryOp} {span : Span} {levels : Nat} {lexemes : List Lexeme}
    {next : List Token} (hlevels : (unary op e span).levels ≤ levels + 1)
    (hnext : Stops (op.precedence + 1) next)
    (hlexemes : lexemes.map (·.token) = (unary op e span).tokens ++ next) :
    Parses (operand sourceEnd (expression sourceEnd maxDepth levels) lexemes)
      (unary op e span)
      next := by
  obtain ⟨start, inner, rfl, hinner⟩ := exists_lexeme_of_map_eq_cons hlexemes
  rw [Tree.levels] at hlevels
  have hparse := h.parses_operand (Nat.le_of_succ_le_succ hlevels)
    (fun hneeded => by simpa using hneeded) hnext.ofUnary hinner
  obtain ⟨e', rest, hparse, hsame, hrest⟩ := hparse
  refine ⟨unary op e' (start.join e'.span), rest, ?_, ?_, hrest⟩
  · cases op <;> simp only [operand, Token.ofUnary, prefixOperand, hparse]
  · simp [withoutSpans, unresolved, hsame]

/-! ### Calls -/

theorem arguments_of_tokens {args : List Tree} (hargs : args ≠ [])
    (h : ∀ arg ∈ args, Readable sourceEnd maxDepth arg) {levels fuel : Nat}
    (hlevels : argLevels args ≤ levels) {lexemes : List Lexeme}
    {next : List Token}
    (hlexemes : lexemes.map (·.token) = argTokens args ++ .rightParen :: next)
    (hfuel : lexemes.length < fuel) :
    ∃ args' rest,
    arguments sourceEnd (expression sourceEnd maxDepth levels) fuel lexemes =
        .ok (args', rest) ∧
      args'.map withoutSpans = args.map
          (fun arg => arg.unresolved.withoutSpans) ∧
      rest.map (·.token) = .rightParen :: next := by
  induction args generalizing lexemes fuel with
  | nil => exact absurd rfl hargs
  | cons arg args ih =>
      obtain ⟨fuel, rfl⟩ : ∃ n, fuel = n + 1 := ⟨fuel - 1, by omega⟩
      have harg := h arg List.mem_cons_self
      have hlevel :=
        Nat.le_trans (levels_le_argLevels List.mem_cons_self) hlevels
      cases args with
      | nil =>
          obtain ⟨e', rest, hparse, hsame, hrest⟩ :=
            harg.parses hlevel (Nat.zero_le _) (stops_closing 0 next) hlexemes
          obtain ⟨stop, rest, rfl, -⟩ := exists_lexeme_of_map_eq_cons hrest
          exact ⟨[e'], _, by simp only [arguments, hparse],
            by simp [hsame], hrest⟩
      | cons second args =>
          rw [argTokens_cons_cons, List.append_assoc, List.cons_append]
            at hlexemes
          obtain ⟨e', rest, hparse, hsame, hrest⟩ :=
            harg.parses hlevel (Nat.zero_le _) (stops_comma 0 _) hlexemes
          obtain ⟨comma, more, rfl, hmore⟩ := exists_lexeme_of_map_eq_cons hrest
          have hlength : more.length < fuel := by
            have htokens := congrArg List.length hlexemes
            have hmoreTokens := congrArg List.length hmore
            simp only [List.length_map, List.length_append, List.length_cons]
              at htokens hmoreTokens
            omega
          obtain ⟨args', rest, hargs', hsame', hrest'⟩ := ih (by simp)
            (fun a ha => h a (List.mem_cons_of_mem arg ha))
            (by rw [argLevels] at hlevels; omega) hmore hlength
          exact ⟨e' :: args', rest, by simp only [arguments, hparse, hargs'],
            by simp [hsame, hsame'], hrest'⟩

theorem parses_call {function : String} {args : List Tree} {span : Span}
    (h : ∀ arg ∈ args, Readable sourceEnd maxDepth arg) {levels : Nat}
    {lexemes : List Lexeme} {next : List Token}
    (hlevels : argLevels args ≤ levels)
    (hlexemes : lexemes.map (·.token) =
      (call function args span).tokens ++ next) :
    Parses (operand sourceEnd (expression sourceEnd maxDepth levels) lexemes)
      (call function args span) next := by
  simp only [tokens, List.append_assoc, List.cons_append, List.nil_append]
    at hlexemes
  obtain ⟨start, _, rfl, hcall⟩ := exists_lexeme_of_map_eq_cons hlexemes
  obtain ⟨paren, inner, rfl, hinner⟩ := exists_lexeme_of_map_eq_cons hcall
  cases args with
  | nil =>
      obtain ⟨stop, rest, rfl, hrest⟩ := exists_lexeme_of_map_eq_cons hinner
      exact ⟨call function [] (start.join stop), rest, rfl, rfl, hrest⟩
  | cons arg args =>
      obtain ⟨args', rest, hargs, hsame, hrest⟩ :=
        arguments_of_tokens (by simp) h hlevels hinner (Nat.lt_succ_self _)
      obtain ⟨stop, rest, rfl, hafter⟩ := exists_lexeme_of_map_eq_cons hrest
      obtain ⟨token, tokens, htokens, hne⟩ := exists_argTokens_cons arg args
      rw [htokens] at hinner
      obtain ⟨first, more, rfl, -⟩ := exists_lexeme_of_map_eq_cons hinner
      refine ⟨call function args' (start.join stop), rest, ?_, ?_, hafter⟩
      · simp only [operand, callOperand, hargs, closing]
        split
        case h_1 heq =>
            simp only [List.cons.injEq, Lexeme.mk.injEq] at heq
            exact absurd heq.1.1 hne
        case h_2 => rfl
      · simp [withoutSpans, unresolved, argsWithoutSpans_eq_map,
          argsUnresolved_eq_map, hsame, Function.comp_def]

/-! ### Binary operators -/

theorem reaches_binary {left right : Tree}
    (hright : Readable sourceEnd maxDepth right) {op : BinaryOp} {span : Span}
    {levels least fuel : Nat} {afterComparison : Bool} {left' : Tree}
    {lexemes rest : List Lexeme} {next : List Token}
    (hexpression : expression sourceEnd maxDepth (levels + 1) least lexemes =
      operators sourceEnd (expression sourceEnd maxDepth levels) least fuel
        left' afterComparison rest)
    (hleft : left'.withoutSpans = left.unresolved.withoutSpans)
    (hcomparison : op.isComparison = true → afterComparison = false)
    (hlevels : levelsIn (needsParens right.precedence op .right) right.levels ≤
      levels)
    (hleast : least ≤ op.precedence) (hnext : Stops (op.precedence + 1) next)
    (hrest : rest.map (·.token) = .operator op ::
      (parenthesizedTokens (needsParens right.precedence op .right)
        right.tokens ++ next))
    (hfuel : rest.length ≤ fuel) :
    Reaches sourceEnd maxDepth levels least lexemes
      (binary op left right span) next := by
  obtain ⟨stop, inner, rfl, hinner⟩ := exists_lexeme_of_map_eq_cons hrest
  obtain ⟨right', rest, hparse, hsame, hafter⟩ :=
    hright.parses_operand hlevels precedence_lt_of_not_needsParens hnext hinner
  obtain ⟨fuel, rfl⟩ : ∃ n, fuel = n + 1 :=
    ⟨fuel - 1, by rw [List.length_cons] at hfuel; omega⟩
  refine ⟨binary op left' right' (left'.span.join right'.span), rest, fuel,
    op.isComparison, ?_, ?_, hafter, ?_, isComparison_iff.mp⟩
  · have hchained : (op.isComparison && afterComparison) = false := by
      cases h : op.isComparison with
      | true => rw [hcomparison h]; rfl
      | false => rfl
    rw [hexpression]
    simp [operators, Token.infixOp?, Nat.not_lt.mpr hleast, hchained, hparse]
  · simp [withoutSpans, unresolved, hleft, hsame]
  · have htokens := congrArg List.length hinner
    have hafterTokens := congrArg List.length hafter
    simp only [List.length_map, List.length_append, List.length_cons]
      at htokens hafterTokens hfuel
    omega

theorem readable_of_writable {e : Tree} (h : e.Writable) :
    Readable sourceEnd maxDepth e := by
  induction e using induct with
  | number value span =>
      intro levels least lexemes next _ _ _ hlexemes
      obtain ⟨start, rest, rfl, hrest⟩ := exists_lexeme_of_map_eq_cons hlexemes
      refine reaches_of_operand ⟨number value start, rest, ?_, rfl, hrest⟩
      simp only [operand, Decimal.ofString?_render h]
  | string value span =>
      intro levels least lexemes next _ _ _ hlexemes
      obtain ⟨start, rest, rfl, hrest⟩ := exists_lexeme_of_map_eq_cons hlexemes
      exact reaches_of_operand ⟨string value start, rest, rfl, rfl, hrest⟩
  | reference name target span =>
      intro levels least lexemes next _ _ _ hlexemes
      obtain ⟨start, rest, rfl, hrest⟩ := exists_lexeme_of_map_eq_cons hlexemes
      exact reaches_of_operand ⟨reference name none start, rest,
        rfl, rfl, hrest⟩
  | call function args span ih =>
      intro levels least lexemes next hlevels _ _ hlexemes
      have hargs :=
        fun arg harg => ih arg harg (argsWritable_iff.mp h.2 arg harg)
      rw [Tree.levels] at hlevels
      exact reaches_of_operand
        (parses_call hargs (Nat.le_of_succ_le_succ hlevels) hlexemes)
  | binary op left right span ihLeft ihRight =>
      intro levels least lexemes next hlevels hleast hnext hlexemes
      rw [Tree.levels] at hlevels
      simp only [tokens, List.append_assoc, List.cons_append] at hlexemes
      have hright :=
        Nat.le_of_succ_le_succ (Nat.le_trans (Nat.le_max_right _ _) hlevels)
      cases hneeded : needsParens left.precedence op .left with
      | false =>
          obtain ⟨hle, hlt⟩ := precedence_le_of_not_needsParens hneeded
          rw [hneeded] at hlevels hlexemes
          have hstops : Stops (left.precedence + 1) (.operator op ::
              (parenthesizedTokens (needsParens right.precedence op .right)
                right.tokens ++
                next)) := by
            intro op' hop'
            cases hop'
            omega
          obtain ⟨left', rest, fuel, afterComparison, hexpression, hsame, hrest,
              hfuel, hafter⟩ :=
            ihLeft h.1 levels least lexemes _
              (Nat.le_trans (Nat.le_max_left _ _) hlevels)
              (Nat.le_trans hleast hle) hstops hlexemes
          refine reaches_binary (ihRight h.2) hexpression hsame
            (fun hcomparison => ?_) hright hleast hnext hrest hfuel
          -- A comparison at hand would stand in parentheses.
          have hbelow := hlt hcomparison
          rw [isComparison_iff.mp hcomparison] at hbelow
          cases afterComparison with
          | false => rfl
          | true => exact absurd (hafter rfl) (Nat.ne_of_gt hbelow)
      | true =>
          rw [hneeded] at hlevels hlexemes
          have hinner : left.levels ≤ levels :=
            Nat.le_of_succ_le_succ (Nat.le_trans (Nat.le_max_left _ _) hlevels)
          obtain ⟨left', rest, hoperand, hsame, hrest⟩ :=
            (ihLeft h.1).parses_parenthesized hinner
              (by simpa [parenthesizedTokens] using hlexemes)
          refine reaches_binary (ihRight h.2) ?_ hsame (fun _ => rfl) hright
            hleast hnext hrest (Nat.le_refl _)
          rw [expression, hoperand]
  | unary op operand span ih =>
      intro levels least lexemes next hlevels _ hnext hlexemes
      exact reaches_of_operand (parses_unary (ih h) hlevels hnext hlexemes)

end

end TableQuery.Tree
