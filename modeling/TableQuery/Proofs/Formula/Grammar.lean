import Mathlib.Data.List.Forall2
import Mathlib.Tactic.Use
import TableQuery.Proofs.Formula.Parsing

/-!
# The grammar of formulas

A grammar that derives trees from the tokens they are written with, grouping
parentheses included.  An operand that is no group of its own binds at least as
tightly as the place it stands at asks for.  The parser gives only trees that
the grammar derives from all the tokens there are.
-/

namespace TableQuery

/-! ## Tokens without grouping parentheses -/

namespace Token

/-- The tokens without the parentheses that only group.  Those of calls open
after a word; `opened` tells, for each parenthesis still open, whether it is one
of them. -/
def ungrouped : (opened : List Bool) → List Token → List Token
  | opened, word name :: leftParen :: rest =>
    word name :: leftParen :: ungrouped (true :: opened) rest
  | opened, leftParen :: rest => ungrouped (false :: opened) rest
  | true :: opened, rightParen :: rest => rightParen :: ungrouped opened rest
  | false :: opened, rightParen :: rest => ungrouped opened rest
  | opened, token :: rest => token :: ungrouped opened rest
  | _, [] => []

/-- Whether two tokens read alike: a bare word may stand for a reference, and
numbers are compared by value. -/
def Alike : Token → Token → Prop
  | word a, field b => a = b
  | number a, number b =>
    ∃ x y, Decimal.ofString? a = some x ∧ Decimal.ofString? b = some y ∧
      x.sameValue y = true
  | a, b => a = b

theorem alike_number {digits : String} {value : Decimal}
    (h : Decimal.ofString? digits = some value) :
    Alike (number digits) (number value.render) := by
  have hrender : Decimal.ofString? value.render = some value.reread := by
    rw [Decimal.ofString?, Decimal.render, String.toList_ofList,
      Decimal.ofChars?_toChars]
  rw [Decimal.reread_of_ofChars? h] at hrender
  exact ⟨value, value, h, hrender, Decimal.sameValue_self value⟩

theorem ungrouped_word {opened : List Bool} {name : String} {rest : List Token}
    (h : rest.head? ≠ some leftParen) :
    ungrouped opened (word name :: rest) =
      word name :: ungrouped opened rest := by
  cases rest with
  | nil => simp [ungrouped]
  | cons token rest => cases token <;> simp_all [ungrouped]

end Token

namespace Tree

/-! ## The tokens of a tree -/

mutual

def spelling : Tree → List Token
  | number value _ => [.number value.render]
  | string value _ => [.string value]
  | reference name _ _ => [.field name]
  | call function args _ =>
    .word function :: .leftParen :: argSpelling args ++ [.rightParen]
  | binary op left right _ => spelling left ++ .operator op :: spelling right
  | unary op operand _ => .ofUnary op :: spelling operand

def argSpelling : List Tree → List Token
  | [] => []
  | [arg] => spelling arg
  | arg :: args => spelling arg ++ .comma :: argSpelling args

end

@[simp] theorem spelling_withSpan (span : Span) (e : Tree) :
    (e.withSpan span).spelling = e.spelling := by
  cases e <;> rfl

/-! ## Places of operands -/

def IsPrefix : Tree → Prop
  | unary _ _ _ => True
  | _ => False

/-- The operands that stand without parentheses to the left of an operator. -/
def FitsLeft (op : BinaryOp) (e : Tree) : Prop :=
  op.precedence ≤ e.precedence ∧
  (op.isComparison = true → op.precedence < e.precedence)

def FitsRight (op : BinaryOp) (e : Tree) : Prop :=
  e.IsPrefix ∨ op.precedence < e.precedence

def FitsUnder : UnaryOp → Tree → Prop
  | .not, e => Precedence.negation ≤ e.precedence
  | .neg, e => e.IsPrefix ∨ Precedence.minus ≤ e.precedence

/-! ## Derivations -/

mutual

/-- The tokens write the tree, as a group in parentheses of its own or not. -/
inductive Derives : (grouped : Bool) → List Token → Tree → Prop
  | number {digits : String} {value : Decimal}
      (h : Decimal.ofString? digits = some value) (span : Span) :
      Derives false [.number digits] (number value span)
  | string (value : String) (span : Span) :
      Derives false [.string value] (string value span)
  | field (name : String) (span : Span) :
      Derives false [.field name] (reference name none span)
  | word (name : String) (span : Span) :
      Derives false [.word name] (reference name none span)
  | call {tokens : List Token} {args : List Tree} (function : String)
      (hargs : DerivesArgs tokens args) (span : Span) :
      Derives false (.word function :: .leftParen :: tokens ++ [.rightParen])
        (call function args span)
  | group {grouped : Bool} {tokens : List Token} {e : Tree}
      (h : Derives grouped tokens e) (span : Span) :
      Derives true (.leftParen :: tokens ++ [.rightParen]) (e.withSpan span)
  | binary {groupedLeft groupedRight : Bool}
      {leftTokens rightTokens : List Token} {left right : Tree} (op : BinaryOp)
      (hleft : Derives groupedLeft leftTokens left)
      (hright : Derives groupedRight rightTokens right)
      (hfitsLeft : groupedLeft = false → left.FitsLeft op)
      (hfitsRight : groupedRight = false → right.FitsRight op) (span : Span) :
      Derives false (leftTokens ++ .operator op :: rightTokens)
        (binary op left right span)
  | unary {grouped : Bool} {tokens : List Token} {operand : Tree} (op : UnaryOp)
      (h : Derives grouped tokens operand)
      (hfits : grouped = false → operand.FitsUnder op) (span : Span) :
      Derives false (.ofUnary op :: tokens) (unary op operand span)

inductive DerivesArgs : List Token → List Tree → Prop
  | none : DerivesArgs [] []
  | one {grouped : Bool} {tokens : List Token} {arg : Tree}
      (h : Derives grouped tokens arg) :
      DerivesArgs tokens [arg]
  | more {grouped : Bool} {tokens restTokens : List Token} {arg next : Tree}
      {args : List Tree} (h : Derives grouped tokens arg)
      (hrest : DerivesArgs restTokens (next :: args)) :
      DerivesArgs (tokens ++ .comma :: restTokens) (arg :: next :: args)

end

/-! ### What a derivation spells -/

def Ungroups (tokens spelled : List Token) : Prop :=
  ∀ opened next, next.head? ≠ some .leftParen →
    ∃ plain, Token.ungrouped opened (tokens ++ next) =
      plain ++ Token.ungrouped opened next ∧
        List.Forall₂ Token.Alike plain spelled

theorem Ungroups.append {tokens spelled tokens' spelled' : List Token}
    {separator : Token} (h : Ungroups tokens spelled)
    (h' : Ungroups tokens' spelled') (hparen : separator ≠ .leftParen)
    (halike : Token.Alike separator separator)
    (hkept : ∀ opened next, Token.ungrouped opened (separator :: next) =
      separator :: Token.ungrouped opened next) :
    Ungroups (tokens ++ separator :: tokens')
      (spelled ++ separator :: spelled') := by
  intro opened next hnext
  rcases h' opened next hnext with ⟨plain', hplain', hforall'⟩
  rcases h opened (separator :: (tokens' ++ next)) (by simpa using hparen) with
    ⟨plain, hplain, hforall⟩
  use plain ++ separator :: plain'
  constructor
  · simp [hplain, hkept, hplain']
  · exact List.rel_append hforall (.cons halike hforall')

theorem ungroups_singleton {token spelled : Token}
    (halike : Token.Alike token spelled)
    (hkept : ∀ opened next, next.head? ≠ some .leftParen →
      Token.ungrouped opened (token :: next) =
        token :: Token.ungrouped opened next) :
    Ungroups [token] [spelled] := by
  intro opened next hnext
  use [token]
  constructor
  · exact hkept opened next hnext
  · exact .cons halike .nil

theorem Derives.ungroups {grouped : Bool} {tokens : List Token} {e : Tree}
    (h : Derives grouped tokens e) : Ungroups tokens e.spelling := by
  induction h using Derives.rec (motive_2 := fun tokens args _ =>
    Ungroups tokens (argSpelling args)) with
  | number h span =>
      apply ungroups_singleton (Token.alike_number h)
      simp [Token.ungrouped]
  | string value span =>
      exact ungroups_singleton rfl (by simp [Token.ungrouped])
  | field name span => exact ungroups_singleton rfl (by simp [Token.ungrouped])
  | word name span =>
      exact ungroups_singleton rfl fun opened next h => Token.ungrouped_word h
  | call function hargs span ih =>
      intro opened next hnext
      rcases ih (true :: opened) (.rightParen :: next) (by simp) with
        ⟨plain, hplain, hforall⟩
      use .word function :: .leftParen :: plain ++ [.rightParen]
      constructor
      · simp [Token.ungrouped, hplain]
      · exact .cons rfl (.cons rfl (List.rel_append hforall (.cons rfl .nil)))
  | group h span ih =>
      intro opened next hnext
      rcases ih (false :: opened) (.rightParen :: next) (by simp) with
        ⟨plain, hplain, hforall⟩
      use plain
      constructor
      · simp [Token.ungrouped, hplain]
      · rwa [spelling_withSpan]
  | binary op hleft hright hfitsLeft hfitsRight span ihLeft ihRight =>
      exact ihLeft.append ihRight (by simp) rfl (by simp [Token.ungrouped])
  | unary op h hfits span ih =>
      intro opened next hnext
      rcases ih opened next hnext with ⟨plain, hplain, hforall⟩
      use .ofUnary op :: plain
      constructor
      · cases op <;> simp [Token.ofUnary, Token.ungrouped, hplain]
      · cases op <;> exact .cons rfl hforall
  | none => exact fun opened next _ => ⟨[], rfl, .nil⟩
  | one h ih => exact ih
  | more h hrest ih ihRest =>
      exact ih.append ihRest (by simp) rfl (by simp [Token.ungrouped])

/-! ## Derivations of what is read -/

variable {sourceEnd : Nat} {nested : Nested}

/-- Parsing derives its tree from the tokens before the remaining ones, and
stops only where no operator binds tightly enough. -/
def GivesDerived (least : Nat) (lexemes : List Lexeme)
    (parsed : Parsed) : Prop :=
  ∀ e rest, parsed = .ok (e, rest) →
    ∃ grouped tokens, lexemes.map (·.token) = tokens ++ rest.map (·.token) ∧
      Derives grouped tokens e ∧
      (grouped = false → e.IsPrefix ∨ least ≤ e.precedence) ∧
      Stops least (rest.map (·.token))

def NestedGivesDerived (nested : Nested) : Prop :=
  ∀ least lexemes, least ≤ Precedence.atom →
  GivesDerived least lexemes (nested least lexemes)

/-- The tree at hand is derived from the tokens read so far, and may be the left
operand of what comes next unless that chains a comparison. -/
def Held (least : Nat) (afterComparison : Bool) (tokens : List Token) (e : Tree)
    (next : List Token) : Prop :=
  ∃ grouped, Derives grouped tokens e ∧
    (grouped = false →
      (e.IsPrefix ∨ least ≤ e.precedence) ∧ Stops (e.precedence + 1) next ∧
      (e.precedence = Precedence.comparison → afterComparison = true))

theorem stops_atom (next : List Token) : Stops (Precedence.atom + 1) next := by
  intro op _
  cases op <;> decide

theorem held_of_atom {least : Nat} (hleast : least ≤ Precedence.atom)
    {tokens : List Token} {e : Tree} (h : Derives false tokens e)
    (hatom : e.precedence = Precedence.atom) (next : List Token) :
    Held least false tokens e next := by
  use false
  constructor
  · exact h
  · intro _
    rw [hatom]
    exact ⟨.inr hleast, stops_atom next, fun heq => absurd heq (by decide)⟩

theorem tokens_of_closing {lexemes rest : List Lexeme} {span : Span}
    (h : closing sourceEnd lexemes = .ok (span, rest)) :
    lexemes.map (·.token) = .rightParen :: rest.map (·.token) := by
  unfold closing at h
  split at h
  case h_1 =>
      cases h
      simp
  case h_2 => cases h

theorem Held.binary {least : Nat} {afterComparison groupedRight : Bool}
    {tokens rightTokens next : List Token} {left right : Tree} {op : BinaryOp}
    (h : Held least afterComparison tokens
      left (.operator op :: (rightTokens ++ next)))
    (hright : Derives groupedRight rightTokens right)
    (hbinds : groupedRight = false →
      right.IsPrefix ∨ op.precedence + 1 ≤ right.precedence)
    (hstops : Stops (op.precedence + 1) next) (hleast : least ≤ op.precedence)
    (hchained : (op.isComparison && afterComparison) = false) (span : Span) :
    Held least op.isComparison (tokens ++ .operator op :: rightTokens)
      (binary op left right span) next := by
  rcases h with ⟨grouped, hleft, hfits⟩
  have hfitsLeft : grouped = false → left.FitsLeft op := by
    intro hgrouped
    rcases hfits hgrouped with ⟨-, hnext, hafter⟩
    have hle := Nat.le_of_lt_succ (hnext op rfl)
    constructor
    · exact hle
    · intro hcomparison
      rw [hcomparison, Bool.true_and] at hchained
      apply Nat.lt_of_le_of_ne hle
      intro heq
      rw [isComparison_iff.mp hcomparison] at heq
      rw [hafter heq.symm] at hchained
      cases hchained
  use false
  constructor
  · exact .binary op hleft hright hfitsLeft hbinds span
  · intro _
    exact ⟨.inr hleast, hstops, isComparison_iff.mpr⟩

/-- Where no operator follows that binds tightly enough, the tree at hand is the
result. -/
theorem Held.givesDerived {least : Nat} {afterComparison : Bool}
    {tokens : List Token} {e : Tree} {lexemes rest : List Lexeme}
    (h : Held least afterComparison tokens e (rest.map (·.token)))
    (htokens : lexemes.map (·.token) = tokens ++ rest.map (·.token))
    (hstops : Stops least (rest.map (·.token))) :
    GivesDerived least lexemes (.ok (e, rest)) := by
  intro e' rest' heq
  cases heq
  rcases h with ⟨grouped, hderives, hfits⟩
  exact ⟨grouped, tokens, htokens, hderives,
    fun hgrouped => (hfits hgrouped).1, hstops⟩

section

variable (hnested : NestedGivesDerived nested)

include hnested

theorem derivesArgs_of_arguments {fuel : Nat} {lexemes rest : List Lexeme}
    {args : List Tree}
    (h : arguments sourceEnd nested fuel lexemes = .ok (args, rest)) :
    args ≠ [] ∧ ∃ tokens, lexemes.map (·.token) = tokens ++ rest.map (·.token) ∧
      DerivesArgs tokens args := by
  induction fuel generalizing lexemes args rest with
  | zero => cases h
  | succ fuel ih =>
      rw [arguments] at h
      split at h
      case h_1 => cases h
      case h_2 arg after hparse =>
          rcases hnested 0 lexemes (Nat.zero_le _) arg after hparse with
            ⟨grouped, tokens, htokens, hderives, -, -⟩
          split at h
          case h_1 comma more =>
              split at h
              case h_1 => cases h
              case h_2 args' rest' hrest =>
                  cases h
                  rcases ih hrest with ⟨hne, restTokens, hrestTokens, hargs⟩
                  rcases List.exists_cons_of_ne_nil hne with ⟨next, args, rfl⟩
                  constructor
                  · simp
                  · use tokens ++ .comma :: restTokens
                    constructor
                    · rw [htokens, List.map_cons, hrestTokens,
                        List.append_assoc, List.cons_append]
                    · exact .more hderives hargs
          case h_2 =>
              cases h
              exact ⟨by simp, tokens, htokens, .one hderives⟩
          case h_3 => cases h

theorem exists_derivesArgs_of_callOperand {name : String} {start : Span}
    {lexemes rest : List Lexeme} {e : Tree}
    (h : callOperand sourceEnd nested name start lexemes = .ok (e, rest)) :
    ∃ tokens args span,
    lexemes.map (·.token) = tokens ++ .rightParen :: rest.map (·.token) ∧
      DerivesArgs tokens args ∧ e = call name args span := by
  unfold callOperand at h
  split at h
  case h_1 stop rest =>
      cases h
      exact ⟨[], [], _, by simp, .none, rfl⟩
  case h_2 =>
      split at h
      case h_1 => cases h
      case h_2 args after hargs =>
          rcases derivesArgs_of_arguments hnested hargs with
            ⟨-, tokens, htokens, hderives⟩
          split at h
          case h_1 => cases h
          case h_2 stop rest' hclosing =>
              cases h
              rw [tokens_of_closing hclosing] at htokens
              exact ⟨tokens, args, _, htokens, hderives, rfl⟩

/-- The operand of a prefix operator ends before the operators that bind as
tightly, so the whole may stand to the left of whatever comes next. -/
theorem held_of_prefixOperand {op : UnaryOp} {start : Span}
    {lexemes rest : List Lexeme} {e : Tree} (least : Nat)
    (h : prefixOperand nested op start lexemes = .ok (e, rest)) :
    ∃ tokens, lexemes.map (·.token) = tokens ++ rest.map (·.token) ∧
      Held least false (.ofUnary op :: tokens) e (rest.map (·.token)) := by
  unfold prefixOperand at h
  split at h
  case h_1 => cases h
  case h_2 operand after hoperand =>
      cases h
      have hatom : op.precedence ≤ Precedence.atom := by cases op <;> decide
      rcases hnested op.precedence lexemes hatom operand rest hoperand with
        ⟨grouped, tokens, htokens, hderives, hbinds, hstops⟩
      have hfits : grouped = false → operand.FitsUnder op := by
        intro hgrouped
        have hbound := hbinds hgrouped
        cases op with
        | neg => exact hbound
        | not =>
            rcases hbound with hprefix | hle
            · cases operand with
              | unary op' operand span =>
                  cases op' <;> simp [FitsUnder, precedence,
                    UnaryOp.precedence, Precedence.negation, Precedence.minus]
              | _ => cases hprefix
            · exact hle
      use tokens
      constructor
      · exact htokens
      · use false
        constructor
        · exact .unary op hderives hfits _
        · intro _
          constructor
          · exact .inl trivial
          · constructor
            · exact hstops.mono (Nat.le_succ _)
            · intro hcomparison
              cases op <;> cases hcomparison

theorem held_of_operand {least : Nat} (hleast : least ≤ Precedence.atom)
    {lexemes rest : List Lexeme} {e : Tree}
    (h : operand sourceEnd nested lexemes = .ok (e, rest)) :
    ∃ tokens, lexemes.map (·.token) = tokens ++ rest.map (·.token) ∧
      Held least false tokens e (rest.map (·.token)) := by
  cases lexemes with
  | nil => cases h
  | cons lexeme lexemes =>
      rcases lexeme with ⟨token, start⟩
      cases token with
      | number digits =>
          simp only [operand] at h
          split at h
          case h_1 value hvalue =>
              cases h
              exact ⟨[.number digits], rfl,
                held_of_atom hleast (.number hvalue start) rfl _⟩
          case h_2 => cases h
      | string value =>
          cases h
          exact ⟨[.string value], rfl,
            held_of_atom hleast (.string value start) rfl _⟩
      | field name =>
          cases h
          exact ⟨[.field name], rfl,
            held_of_atom hleast (.field name start) rfl _⟩
      | word name =>
          simp only [operand] at h
          split at h
          case h_1 paren inner =>
              rcases exists_derivesArgs_of_callOperand hnested h with
                ⟨tokens, args, span, htokens, hargs, rfl⟩
              use .word name :: .leftParen :: tokens ++ [.rightParen]
              constructor
              · simp [htokens]
              · exact held_of_atom hleast (.call name hargs span) rfl _
          case h_2 =>
              cases h
              exact ⟨[.word name], rfl,
                held_of_atom hleast (.word name start) rfl _⟩
      | leftParen =>
          simp only [operand] at h
          split at h
          case h_1 => cases h
          case h_2 inner after hinner =>
              rcases hnested 0 lexemes (Nat.zero_le _) inner after hinner with
                ⟨grouped, tokens, htokens, hderives, -, -⟩
              split at h
              case h_1 => cases h
              case h_2 stop rest' hclosing =>
                  cases h
                  use .leftParen :: tokens ++ [.rightParen]
                  constructor
                  · simp [htokens, tokens_of_closing hclosing]
                  · exact ⟨true, .group hderives _, by simp⟩
      | operator op =>
          cases op with
          | sub =>
              rcases held_of_prefixOperand hnested least h with
                ⟨tokens, htokens, hheld⟩
              exact ⟨.operator .sub :: tokens, by simp [htokens], hheld⟩
          | _ => cases h
      | not =>
          rcases held_of_prefixOperand hnested least h with
            ⟨tokens, htokens, hheld⟩
          exact ⟨.not :: tokens, by simp [htokens], hheld⟩
      | _ => cases h

theorem givesDerived_operators {least fuel : Nat} {left : Tree}
    {afterComparison : Bool} {tokens : List Token} {lexemes rest : List Lexeme}
    (htokens : lexemes.map (·.token) = tokens ++ rest.map (·.token))
    (hheld : Held least afterComparison tokens left (rest.map (·.token)))
    (hfuel : rest.length ≤ fuel) :
    GivesDerived least lexemes
      (operators sourceEnd nested least fuel left afterComparison rest) := by
  induction fuel generalizing left afterComparison tokens rest with
  | zero =>
      have hnil := List.length_eq_zero_iff.mp (Nat.le_zero.mp hfuel)
      exact hheld.givesDerived htokens (by simp [hnil, Stops])
  | succ fuel ih =>
      cases rest with
      | nil => exact hheld.givesDerived htokens (by simp [Stops])
      | cons lexeme rest =>
          rcases lexeme with ⟨token, span⟩
          by_cases hstops : Stops least (token :: rest.map (·.token))
          · rw [operators_of_stops hstops]
            exact hheld.givesDerived htokens hstops
          · have hop : ∃ op, token = .operator op ∧ least ≤ op.precedence := by
              simpa [Stops] using hstops
            rcases hop with ⟨op, rfl, hleast⟩
            simp only [operators, Token.infixOp?,
              if_neg (Nat.not_lt.mpr hleast)]
            split
            case isTrue =>
                intro e after herror
                cases herror
            case isFalse hchained =>
                rw [Bool.not_eq_true] at hchained
                split
                case h_1 =>
                    intro e after herror
                    cases herror
                case h_2 right after hright =>
                    have hatom : op.precedence + 1 ≤ Precedence.atom := by
                      cases op <;> decide
                    rcases hnested _ rest hatom right after hright with
                      ⟨grouped, rightTokens, hrightTokens, hderives,
                        hbinds, hstops'⟩
                    simp only [List.map_cons, hrightTokens] at hheld htokens
                    have hbinary :=
                      hheld.binary hderives hbinds hstops' hleast hchained
                        (left.span.join right.span)
                    apply ih _ hbinary
                    · have hlength := congrArg List.length hrightTokens
                      simp only [List.length_map, List.length_append] at hlength
                      rw [List.length_cons] at hfuel
                      omega
                    · simp [htokens]

end

theorem givesDerived_expression {maxDepth levels least : Nat}
    (hleast : least ≤ Precedence.atom) (lexemes : List Lexeme) :
    GivesDerived least lexemes
      (expression sourceEnd maxDepth levels least lexemes) := by
  induction levels generalizing least lexemes with
  | zero =>
      intro e rest h
      cases h
  | succ levels ih =>
      rw [expression]
      split
      case h_1 =>
          intro e rest herror
          cases herror
      case h_2 left rest hoperand =>
          have hnested : NestedGivesDerived
              (expression sourceEnd maxDepth levels) :=
            fun least lexemes hleast => ih hleast lexemes
          rcases held_of_operand hnested hleast hoperand with
            ⟨tokens, htokens, hheld⟩
          exact givesDerived_operators hnested htokens hheld (Nat.le_refl _)

/-- Whatever the tokens, a tree that the parser gives is derived from all of
them: every operand that is no group binds tightly enough, and without their
grouping parentheses the tokens read like those of the tree in order. -/
theorem derives_of_ofLexemes {maxDepth : Nat} {lexemes : List Lexeme} {e : Tree}
    (h : ofLexemes sourceEnd maxDepth lexemes = .ok e) :
    List.Forall₂ Token.Alike (Token.ungrouped [] (lexemes.map (·.token)))
      e.spelling ∧ ∃ grouped, Derives grouped (lexemes.map (·.token)) e := by
  have hderives : ∃ grouped, Derives grouped (lexemes.map (·.token)) e := by
    unfold ofLexemes at h
    split at h
    case h_1 => cases h
    case h_2 hexpression =>
        cases h
        rcases givesDerived_expression (Nat.zero_le _) lexemes e
          [] hexpression with
          ⟨grouped, tokens, htokens, hderives, -, -⟩
        rw [List.map_nil, List.append_nil] at htokens
        exact ⟨grouped, htokens ▸ hderives⟩
    case h_3 => cases h
  rcases hderives with ⟨grouped, hderives⟩
  rcases hderives.ungroups [] [] (by simp) with ⟨plain, hplain, halike⟩
  simp only [List.append_nil, Token.ungrouped] at hplain
  constructor
  · rwa [hplain]
  · exact ⟨grouped, hderives⟩

def negatedSumTokens : List Token :=
  [.operator .sub, .leftParen, .number "1", .operator .add, .word "a",
    .rightParen, .operator .mul, .not, .field "b"]

def negatedSum : Tree :=
  binary .mul
    (unary .neg (binary .add (number .one ⟨0, 0⟩) (reference "a" none ⟨0, 0⟩)
      ⟨0, 0⟩) ⟨0, 0⟩)
    (unary .not (reference "b" none ⟨0, 0⟩) ⟨0, 0⟩) ⟨0, 0⟩

theorem ofLexemes_negatedSum :
    ofLexemes 0 4 (negatedSumTokens.map (⟨·, ⟨0, 0⟩⟩)) = .ok negatedSum := rfl

theorem derives_of_ofLexemes_negatedSum :
    List.Forall₂ Token.Alike
        [.operator .sub, .number "1", .operator .add, .word "a", .operator .mul,
          .not, .field "b"]
        negatedSum.spelling ∧
      ∃ grouped, Derives grouped negatedSumTokens negatedSum :=
  derives_of_ofLexemes ofLexemes_negatedSum

end Tree

end TableQuery
