import TableQuery.Proofs.Formula.Scanning
import TableQuery.Proofs.Formula.Tree

/-!
# Tokens of trees

The tokens that the formula of a tree is written with, parentheses included, and
that scanning the formula gives them back.
-/

namespace TableQuery.Tree

/-! ## Trees that can be written -/

mutual

/-- A tree that its formula can tell: its numbers carry no sign, its references
no closing bracket, and its calls have names. -/
def Writable : Tree → Prop
  | number value _ => value.negative = false
  | string _ _ => True
  | reference name _ _ => ']' ∉ name.toList
  | call function args _ => Token.IsName function ∧ ArgsWritable args
  | binary _ left right _ => Writable left ∧ Writable right
  | unary _ operand _ => Writable operand

def ArgsWritable : List Tree → Prop
  | [] => True
  | arg :: args => Writable arg ∧ ArgsWritable args

end

theorem argsWritable_iff {args : List Tree} : ArgsWritable args ↔ ∀ arg ∈ args,
    arg.Writable := by
  induction args with
  | nil => simp [ArgsWritable]
  | cons arg args ih => simp [ArgsWritable, ih]

@[simp] theorem writable_withSpan {span : Span} {e : Tree} :
    (e.withSpan span).Writable ↔ e.Writable := by
  cases e <;> rfl

/-! ## Tokens -/

def parenthesizedTokens (needed : Bool) (tokens : List Token) : List Token :=
  if needed then .leftParen :: tokens ++ [.rightParen] else tokens

mutual

def tokens : Tree → List Token
  | number value _ => [.number value.render]
  | string value _ => [.string value]
  | reference name _ _ => [.field name]
  | call function args _ =>
    .word function :: .leftParen :: argTokens args ++ [.rightParen]
  | binary op left right _ =>
    parenthesizedTokens (needsParens left.precedence op .left) (tokens left) ++
      .operator op ::
      parenthesizedTokens (needsParens right.precedence op .right)
        (tokens right)
  | unary op operand _ =>
    .ofUnary op :: parenthesizedTokens (operand.precedence < op.precedence)
      (tokens operand)

def argTokens : List Tree → List Token
  | [] => []
  | [arg] => tokens arg
  | arg :: args => tokens arg ++ .comma :: argTokens args

end

theorem argTokens_cons_cons (arg next : Tree) (args : List Tree) :
    argTokens (arg :: next :: args) =
      tokens arg ++ .comma :: argTokens (next :: args) := rfl

/-- A piece of a formula reads as some tokens, whatever ends it. -/
def ReadsAs (cs : List Char) (tokens : List Token) : Prop :=
  ∀ rest, Ends rest →
  Token.read (cs ++ rest) = (Token.read rest).map (tokens ++ ·)

theorem ends_closing (rest : List Char) : Ends (')' :: rest) := by
  intro c hc
  cases hc
  exact .inr (.inl rfl)

theorem ends_comma (rest : List Char) : Ends (',' :: rest) := by
  intro c hc
  cases hc
  exact .inr (.inr rfl)

theorem ends_blank (rest : List Char) : Ends (' ' :: rest) := by
  intro c hc
  cases hc
  exact .inl rfl

theorem ReadsAs.parenthesized {cs : List Char} {tokens : List Token}
    (h : ReadsAs cs tokens) (needed : Bool) :
    ReadsAs (parenthesized needed cs) (parenthesizedTokens needed tokens) := by
  intro rest hrest
  cases needed with
  | false => exact h rest hrest
  | true =>
      have hinner := h (')' :: rest) (ends_closing rest)
      simp only [Tree.parenthesized, parenthesizedTokens, if_true,
        List.cons_append, List.append_assoc, List.nil_append,
        Token.read_leftParen, hinner, Token.read_rightParen, Option.map_map]
      rfl

theorem readsAs_args {args : List Tree}
    (h : ∀ arg ∈ args, ReadsAs arg.toChars arg.tokens) :
    ReadsAs (argChars args) (argTokens args) := by
  intro rest hrest
  induction args with
  | nil => simp [argChars, argTokens]
  | cons arg args ih =>
      have harg := h arg List.mem_cons_self
      have hargs := ih fun a ha => h a (List.mem_cons_of_mem arg ha)
      cases args with
      | nil => exact harg rest hrest
      | cons next args =>
          simp only [argChars, argTokens, List.append_assoc, List.cons_append,
            harg _ (ends_comma _), Token.read_comma, Token.read_blank_cons,
            hargs, Option.map_map]
          rfl

theorem readsAs_toChars {e : Tree} (h : e.Writable) :
    ReadsAs e.toChars e.tokens := by
  induction e using induct with
  | number value span =>
      intro rest hrest
      have hnumber := Token.read_number hrest (d := value)
      simp only [toChars, tokens, Decimal.render,
        Decimal.toChars_of_not_negative h]
      exact hnumber
  | string value span => exact fun rest _ => Token.read_string value rest
  | reference name target span =>
      intro rest _
      simpa [toChars, tokens] using Token.read_field h rest
  | call function args span ih =>
      obtain ⟨hname, hargs⟩ := h
      have hread := readsAs_args fun arg harg =>
        ih arg harg (argsWritable_iff.mp hargs arg harg)
      intro rest hrest
      simp only [toChars, tokens, List.append_assoc, List.cons_append,
        List.nil_append, Token.read_name hname, hread _ (ends_closing rest),
        Token.read_rightParen, Option.map_map]
      rfl
  | binary op left right span ihLeft ihRight =>
      have hleft :=
        (ihLeft h.1).parenthesized (needsParens left.precedence op .left)
      have hright :=
        (ihRight h.2).parenthesized (needsParens right.precedence op .right)
      intro rest hrest
      simp only [toChars, tokens, List.append_assoc, List.cons_append,
        hleft _ (ends_blank _), Token.read_blank_cons, Token.read_infix,
        hright rest hrest, Option.map_map]
      rfl
  | unary op operand span ih =>
      have hoperand := (ih h).parenthesized (operand.precedence < op.precedence)
      intro rest hrest
      simp only [toChars, tokens, List.append_assoc, Token.read_prefix,
        hoperand rest hrest, Option.map_map]
      rfl

theorem exists_scan_render {e : Tree} (h : e.Writable) :
    ∃ lexemes, Token.scan e.render = .ok lexemes ∧
      lexemes.map (·.token) = e.tokens := by
  refine Token.read_eq_some_iff.mp ?_
  have hread := readsAs_toChars h [] (by simp [Ends])
  rw [List.append_nil, Token.read_nil, Option.map_some, List.append_nil]
    at hread
  rw [render, String.toList_ofList, hread]

end TableQuery.Tree
