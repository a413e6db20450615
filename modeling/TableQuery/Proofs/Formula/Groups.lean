import TableQuery.Proofs.Formula.Grammar

/-!
# Grouping parentheses of written trees

The pairs of parentheses that writing a tree puts around operands, each with
what stands before it, in it and behind it.  Whether or not a pair is dropped,
the formula reads as its tokens, which nest and say as much as the tree does.
-/

namespace TableQuery

/-! ## Pieces of formulas -/

@[ext]
structure Piece where
  chars : List Char
  tokens : List Token

namespace Piece

instance : Append Piece :=
  ⟨fun p q => ⟨p.chars ++ q.chars, p.tokens ++ q.tokens⟩⟩

@[simp] theorem chars_append (p q : Piece) :
    (p ++ q).chars = p.chars ++ q.chars := rfl

@[simp] theorem tokens_append (p q : Piece) :
    (p ++ q).tokens = p.tokens ++ q.tokens := rfl

def empty : Piece := ⟨[], []⟩

def opening : Piece := ⟨['('], [.leftParen]⟩

def closing : Piece := ⟨[')'], [.rightParen]⟩

def comma : Piece := ⟨[',', ' '], [.comma]⟩

def callee (function : String) : Piece :=
  ⟨function.toList ++ ['('], [.word function, .leftParen]⟩

def ofBinary (op : BinaryOp) : Piece :=
  ⟨' ' :: op.symbol.toList ++ [' '], [.operator op]⟩

def ofUnary (op : UnaryOp) : Piece := ⟨op.symbol.toList, [.ofUnary op]⟩

def parenthesized (needed : Bool) (p : Piece) : Piece :=
  if needed then opening ++ p ++ closing else p

theorem append_assoc (p q r : Piece) : p ++ q ++ r = p ++ (q ++ r) := by
  ext1 <;> simp

@[simp] theorem empty_append (p : Piece) : empty ++ p = p := rfl

@[simp] theorem append_empty (p : Piece) : p ++ empty = p := by
  ext1 <;> simp [empty]

end Piece

namespace Token

/-! ## Parentheses among tokens -/

def Nests (tokens : List Token) : Prop :=
  tokens.count leftParen = tokens.count rightParen ∧
    ∀ before after, tokens = before ++ after →
    before.count rightParen ≤ before.count leftParen

theorem nests_nil : Nests [] := by
  constructor
  · rfl
  · intro before after h
    rw [(List.append_eq_nil_iff.mp h.symm).1]
    exact Nat.le_refl _

theorem Nests.append {tokens tokens' : List Token} (h : Nests tokens)
    (h' : Nests tokens') : Nests (tokens ++ tokens') := by
  constructor
  · rw [List.count_append, List.count_append, h.1, h'.1]
  · intro before after heq
    rcases List.append_eq_append_iff.mp heq with ⟨more, rfl, hmore⟩ |
      ⟨more, hmore, -⟩
    · rw [List.count_append, List.count_append, h.1]
      exact Nat.add_le_add_left (h'.2 more after hmore) _
    · exact h.2 before more hmore

theorem Nests.cons {tokens : List Token} (h : Nests tokens) (token : Token)
    (hleft : token ≠ leftParen) (hright : token ≠ rightParen) :
    Nests (token :: tokens) := by
  constructor
  · rw [List.count_cons_of_ne hleft, List.count_cons_of_ne hright, h.1]
  · intro before after heq
    cases before with
    | nil => exact Nat.le_refl _
    | cons first before =>
        rw [List.cons_append, List.cons.injEq] at heq
        rcases heq with ⟨rfl, heq⟩
        rw [List.count_cons_of_ne hleft, List.count_cons_of_ne hright]
        exact h.2 before after heq

theorem ofUnary_ne_leftParen (op : UnaryOp) : ofUnary op ≠ leftParen := by
  cases op <;> simp [ofUnary]

theorem ofUnary_ne_rightParen (op : UnaryOp) : ofUnary op ≠ rightParen := by
  cases op <;> simp [ofUnary]

theorem Nests.parens {tokens : List Token} (h : Nests tokens) :
    Nests (leftParen :: (tokens ++ [rightParen])) := by
  constructor
  · simp [h.1]
  · intro before after heq
    cases before with
    | nil => exact Nat.le_refl _
    | cons first before =>
        rw [List.cons_append, List.cons.injEq] at heq
        rcases heq with ⟨rfl, heq⟩
        rcases List.append_eq_append_iff.mp heq with ⟨more, rfl, hmore⟩ |
          ⟨more, hmore, -⟩
        · have hlength := congrArg (List.count rightParen) hmore
          rw [List.count_append, List.count_singleton_self] at hlength
          simp [h.1]
          omega
        · have hle := h.2 before more hmore
          simp
          omega

/-- Tokens that nest cannot end inside a group that they begin with. -/
theorem Nests.not_inside {before after tokens : List Token} (h : Nests before)
    (hbefore : before ≠ []) (hafter : after ≠ []) (h' : Nests tokens) :
    before ++ after ≠ leftParen :: (tokens ++ [rightParen]) := by
  intro heq
  cases before with
  | nil => exact hbefore rfl
  | cons first before =>
      rw [List.cons_append, List.cons.injEq] at heq
      rcases heq with ⟨rfl, heq⟩
      rcases List.eq_nil_or_concat after with rfl | ⟨more, last, rfl⟩
      · exact hafter rfl
      · rw [List.concat_eq_append, ← List.append_assoc] at heq
        have hle := h'.2 before more (List.append_inj_left' heq rfl).symm
        have hcount := h.1
        simp at hcount
        omega

def weight (tokens : List Token) : Nat :=
  tokens.countP fun token => token ≠ leftParen && token ≠ rightParen

@[simp] theorem weight_nil : weight [] = 0 := rfl

@[simp] theorem weight_append (tokens tokens' : List Token) :
    weight (tokens ++ tokens') = weight tokens + weight tokens' :=
    List.countP_append

@[simp] theorem weight_leftParen (tokens : List Token) :
    weight (leftParen :: tokens) = weight tokens := by
  simp [weight]

@[simp] theorem weight_rightParen (tokens : List Token) :
    weight (rightParen :: tokens) = weight tokens := by
  simp [weight]

theorem weight_cons {token : Token} (hleft : token ≠ leftParen)
    (hright : token ≠ rightParen) (tokens : List Token) :
    weight (token :: tokens) = weight tokens + 1 := by
  simp [weight, hleft, hright]

/-- Where two texts with a separator agree, and as much stands before it in
both, they agree in what stands there. -/
theorem eq_of_weight_eq {before before' after after' : List Token}
    {token token' : Token}
    (h : before ++ token :: after = before' ++ token' :: after')
    (hweight : weight before = weight before') (hleft : token ≠ leftParen)
    (hright : token ≠ rightParen) (hleft' : token' ≠ leftParen)
    (hright' : token' ≠ rightParen) :
    before = before' ∧ token = token' ∧ after = after' := by
  rcases List.append_eq_append_iff.mp h with ⟨more, rfl, hmore⟩ |
    ⟨more, rfl, hmore⟩
  · cases more with
    | nil => simpa using hmore
    | cons first more =>
        rw [List.cons_append, List.cons.injEq] at hmore
        rw [← hmore.1, weight_append, weight_cons hleft hright] at hweight
        omega
  · cases more with
    | nil =>
        simp only [List.nil_append, List.cons.injEq] at hmore
        simp [hmore.1, hmore.2]
    | cons first more =>
        rw [List.cons_append, List.cons.injEq] at hmore
        rw [← hmore.1, weight_append, weight_cons hleft' hright'] at hweight
        omega

end Token

namespace Tree

/-! ## Pieces of trees -/

def piece (e : Tree) : Piece := ⟨e.toChars, e.tokens⟩

def argsPiece (args : List Tree) : Piece := ⟨argChars args, argTokens args⟩

theorem argsPiece_cons_cons (arg next : Tree) (args : List Tree) :
    argsPiece (arg :: next :: args) =
      arg.piece ++ (.comma ++ argsPiece (next :: args)) := rfl

theorem piece_call (function : String) (args : List Tree) (span : Span) :
    (call function args span).piece =
      .callee function ++ argsPiece args ++ .closing := by
  ext1 <;> simp [piece, argsPiece, Piece.callee, Piece.closing, toChars, tokens]

theorem piece_parenthesized (needed : Bool) (e : Tree) :
    e.piece.parenthesized needed =
      ⟨parenthesized needed e.toChars,
        parenthesizedTokens needed e.tokens⟩ := by
  cases needed <;> rfl

theorem piece_binary (op : BinaryOp) (left right : Tree) (span : Span) :
    (binary op left right span).piece =
      left.piece.parenthesized (needsParens left.precedence op .left) ++
        (.ofBinary op ++ right.piece.parenthesized
          (needsParens right.precedence op .right)) := by
  rw [piece_parenthesized, piece_parenthesized]
  ext1 <;> simp [piece, Piece.ofBinary, toChars, tokens]

theorem piece_unary (op : UnaryOp) (operand : Tree) (span : Span) :
    (unary op operand span).piece =
      .ofUnary op ++ operand.piece.parenthesized
        (operand.precedence < op.precedence) := by
  rw [piece_parenthesized]
  rfl

/-! ## Grouping pairs -/

structure Group where
  before : Piece
  inner : Tree
  after : Piece

namespace Group

def within (before after : Piece) (g : Group) : Group :=
  ⟨before ++ g.before, g.inner, g.after ++ after⟩

def kept (g : Group) : Piece :=
  g.before ++ (.opening ++ g.inner.piece ++ .closing) ++ g.after

def dropped (g : Group) : Piece := g.before ++ g.inner.piece ++ g.after

theorem kept_within (before after : Piece) (g : Group) :
    (g.within before after).kept = before ++ (g.kept ++ after) := by
  simp only [kept, within, Piece.append_assoc]

theorem dropped_within (before after : Piece) (g : Group) :
    (g.within before after).dropped = before ++ (g.dropped ++ after) := by
  simp only [dropped, within, Piece.append_assoc]

theorem within_within (before before' after after' : Piece) (g : Group) :
    (g.within before after).within before' after' =
      g.within (before' ++ before) (after ++ after') := by
  simp only [within, Piece.append_assoc]

end Group

def operandGroups (needed : Bool) (e : Tree) (groups : List Group) :
    List Group :=
  if needed then ⟨.empty, e, .empty⟩ :: groups.map (.within .opening .closing)
  else groups

mutual

/-- All pairs of parentheses, but for those of calls, that are written for a
tree. -/
def groups : Tree → List Group
  | number _ _ | string _ _ | reference _ _ _ => []
  | call function args _ =>
    (argGroups args).map (.within (.callee function) .closing)
  | binary op left right _ =>
    let leftNeeded := needsParens left.precedence op .left
    let rightNeeded := needsParens right.precedence op .right
    (operandGroups leftNeeded left (groups left)).map
        (.within .empty
          (.ofBinary op ++ right.piece.parenthesized rightNeeded)) ++
      (operandGroups rightNeeded right (groups right)).map
        (.within (left.piece.parenthesized leftNeeded ++ .ofBinary op) .empty)
  | unary op operand _ =>
    (operandGroups (operand.precedence < op.precedence) operand
        (groups operand)).map
      (.within (.ofUnary op) .empty)

def argGroups : List Tree → List Group
  | [] => []
  | [arg] => groups arg
  | arg :: args =>
    (groups arg).map (.within .empty (.comma ++ argsPiece args)) ++
      (argGroups args).map (.within (arg.piece ++ .comma) .empty)

end

theorem operandGroups_cases {needed : Bool} {e : Tree} {groups : List Group}
    {g : Group} (h : g ∈ operandGroups needed e groups) :
    (needed = true ∧ g = ⟨.empty, e, .empty⟩) ∨
      (needed = true ∧ ∃ g' ∈ groups, g = g'.within .opening .closing) ∨
        (needed = false ∧ g ∈ groups) := by
  cases needed with
  | false => exact .inr (.inr ⟨rfl, h⟩)
  | true =>
      simp only [operandGroups, if_true, List.mem_cons, List.mem_map] at h
      rcases h with rfl | ⟨g', hg', rfl⟩
      · exact .inl ⟨rfl, rfl⟩
      · exact .inr (.inl ⟨rfl, g', hg', rfl⟩)

theorem binary_groups_cases {op : BinaryOp} {left right : Tree} {span : Span}
    {g : Group} (h : g ∈ (binary op left right span).groups) :
    (∃ g' ∈ operandGroups (needsParens left.precedence op
      .left) left left.groups,
      g = g'.within .empty (.ofBinary op ++
        right.piece.parenthesized (needsParens right.precedence op .right))) ∨
    ∃ g' ∈ operandGroups (needsParens right.precedence op
      .right) right right.groups,
      g = g'.within
        (left.piece.parenthesized (needsParens left.precedence op .left) ++
          .ofBinary op) .empty := by
  simp only [groups, List.mem_append, List.mem_map] at h
  rcases h with ⟨g', hg', rfl⟩ | ⟨g', hg', rfl⟩
  · exact .inl ⟨g', hg', rfl⟩
  · exact .inr ⟨g', hg', rfl⟩

theorem argGroups_cases {arg next : Tree} {args : List Tree} {g : Group}
    (h : g ∈ argGroups (arg :: next :: args)) :
    (∃ g' ∈ arg.groups,
      g = g'.within .empty (.comma ++ argsPiece (next :: args))) ∨
      ∃ g' ∈ argGroups (next :: args),
      g = g'.within (arg.piece ++ .comma) .empty := by
  simp only [argGroups, List.mem_append, List.mem_map] at h
  rcases h with ⟨g', hg', rfl⟩ | ⟨g', hg', rfl⟩
  · exact .inl ⟨g', hg', rfl⟩
  · exact .inr ⟨g', hg', rfl⟩

/-! ### The whole formula -/

theorem kept_of_mem_operandGroups {needed : Bool} {e : Tree}
    {groups : List Group} {g : Group} (h : g ∈ operandGroups needed e groups)
    (hgroups : ∀ g ∈ groups, g.kept = e.piece) :
    g.kept = e.piece.parenthesized needed := by
  rcases operandGroups_cases h with ⟨rfl, rfl⟩ | ⟨rfl, g', hg', rfl⟩ | ⟨rfl, hg⟩
  · simp [Group.kept, Piece.parenthesized]
  · simp [Group.kept_within, hgroups g' hg', Piece.parenthesized,
      Piece.append_assoc]
  · exact hgroups g hg

theorem kept_of_mem_argGroups {args : List Tree}
    (ih : ∀ arg ∈ args, ∀ g ∈ arg.groups, g.kept = arg.piece) {g : Group}
    (h : g ∈ argGroups args) : g.kept = argsPiece args := by
  induction args generalizing g with
  | nil => simp [argGroups] at h
  | cons arg args ihArgs =>
      rw [List.forall_mem_cons] at ih
      cases args with
      | nil => exact ih.1 g h
      | cons next args =>
          rcases argGroups_cases h with ⟨g', hg', rfl⟩ | ⟨g', hg', rfl⟩
          · simp [Group.kept_within, ih.1 g' hg', argsPiece_cons_cons]
          · simp [Group.kept_within, ihArgs ih.2 hg', argsPiece_cons_cons,
              Piece.append_assoc]

theorem kept_of_mem_groups {e : Tree} {g : Group} (h : g ∈ e.groups) :
    g.kept = e.piece := by
  induction e using induct generalizing g with
  | number | string | reference => simp [groups] at h
  | call function args span ih =>
      rw [groups, List.mem_map] at h
      rcases h with ⟨g', hg', rfl⟩
      rw [Group.kept_within,
        kept_of_mem_argGroups (fun arg harg g hg => ih arg harg hg) hg',
        piece_call, Piece.append_assoc]
  | binary op left right span ihLeft ihRight =>
      rw [piece_binary]
      rcases binary_groups_cases h with ⟨g', hg', rfl⟩ | ⟨g', hg', rfl⟩
      · rw [Group.kept_within, kept_of_mem_operandGroups hg' fun g hg =>
          ihLeft hg,
          Piece.empty_append]
      · rw [Group.kept_within, kept_of_mem_operandGroups hg' fun g hg =>
          ihRight hg,
          Piece.append_empty, Piece.append_assoc]
  | unary op operand span ih =>
      rw [groups, List.mem_map] at h
      rcases h with ⟨g', hg', rfl⟩
      rw [Group.kept_within, kept_of_mem_operandGroups hg' fun g hg => ih hg,
        piece_unary, Piece.append_empty]

/-! ### All pairs -/

def CoversParens (groups : List Group) (tokens : List Token) : Prop :=
  ∀ before rest, tokens = before ++ .leftParen :: rest →
    (∃ g ∈ groups, g.before.tokens = before) ∨
      ∃ function, before.getLast? = some (.word function)

theorem coversParens_of_not_mem {tokens : List Token} (h : .leftParen ∉ tokens)
    (groups : List Group) : CoversParens groups tokens := by
  intro before rest htokens
  rw [htokens] at h
  simp at h

theorem coversParens_callee (function : String) :
    CoversParens [] (Piece.callee function).tokens := by
  intro before rest htokens
  cases before with
  | nil => cases htokens
  | cons first before =>
      rw [Piece.callee, List.cons_append, List.cons.injEq] at htokens
      rcases List.append_eq_singleton_iff.mp htokens.2.symm with
        ⟨rfl, -⟩ | ⟨-, hrest⟩
      · exact .inr ⟨function, by rw [← htokens.1]; rfl⟩
      · cases hrest

theorem CoversParens.append {groups groups' : List Group} {p q : Piece}
    (h : CoversParens groups p.tokens) (h' : CoversParens groups' q.tokens) :
    CoversParens
      (groups.map (.within .empty q) ++ groups'.map (.within p .empty))
      (p ++ q).tokens := by
  intro before rest htokens
  rcases List.append_eq_append_iff.mp htokens with ⟨more, rfl, hmore⟩ |
    ⟨more, hmore, hrest⟩
  · rcases h' more rest hmore with ⟨g, hg, rfl⟩ | ⟨function, hlast⟩
    · exact .inl ⟨_, List.mem_append_right _ (List.mem_map_of_mem hg), rfl⟩
    · exact .inr ⟨function, by rw [List.getLast?_append, hlast, Option.some_or]⟩
  · cases more with
    | nil =>
        rw [List.append_nil] at hmore
        rw [List.nil_append] at hrest
        rcases h' [] rest hrest.symm with ⟨g, hg, hnil⟩ | ⟨function, hlast⟩
        · refine .inl ⟨_, List.mem_append_right _ (List.mem_map_of_mem hg), ?_⟩
          rw [Group.within, Piece.tokens_append, hnil, List.append_nil, hmore]
        · cases hlast
    | cons first more =>
        rw [List.cons_append, List.cons.injEq] at hrest
        rcases hrest with ⟨rfl, -⟩
        rcases h before more hmore with ⟨g, hg, rfl⟩ | hcall
        · exact .inl ⟨_, List.mem_append_left _ (List.mem_map_of_mem hg), rfl⟩
        · exact .inr hcall

theorem CoversParens.within {groups : List Group} {before p after : Piece}
    (h : CoversParens groups p.tokens) (hbefore : CoversParens [] before.tokens)
    (hafter : .leftParen ∉ after.tokens) :
    CoversParens (groups.map (.within before after))
      (before ++ (p ++ after)).tokens := by
  have hcovers := hbefore.append (h.append (coversParens_of_not_mem hafter []))
  simpa [Function.comp_def, Group.within_within] using hcovers

theorem CoversParens.separated {groups groups' : List Group}
    {p separator q : Piece} (h : CoversParens groups p.tokens)
    (h' : CoversParens groups' q.tokens)
    (hseparator : .leftParen ∉ separator.tokens) :
    CoversParens (groups.map (.within .empty (separator ++ q)) ++
      groups'.map (.within (p ++ separator) .empty))
        (p ++ (separator ++ q)).tokens := by
  have hcovers := h.append ((coversParens_of_not_mem hseparator []).append h')
  simpa [Function.comp_def, Group.within_within] using hcovers

theorem coversParens_operandGroups {groups : List Group} {e : Tree}
    (h : CoversParens groups e.piece.tokens) (needed : Bool) :
    CoversParens (operandGroups needed e groups)
      (e.piece.parenthesized needed).tokens := by
  cases needed with
  | false => exact h
  | true =>
      intro before rest htokens
      cases before with
      | nil => exact .inl ⟨_, List.mem_cons_self, rfl⟩
      | cons first before =>
          have hclosing : CoversParens [] Piece.closing.tokens :=
            coversParens_of_not_mem (by simp [Piece.closing]) []
          have hinner := h.append hclosing
          rw [Piece.parenthesized, if_pos rfl, Piece.append_assoc,
            Piece.tokens_append, Piece.opening, List.cons_append,
            List.cons_append, List.cons.injEq] at htokens
          rcases htokens with ⟨rfl, htokens⟩
          rcases hinner before rest htokens with ⟨g, hg, rfl⟩ |
            ⟨function, hlast⟩
          · rw [List.map_nil, List.append_nil, List.mem_map] at hg
            rcases hg with ⟨g', hg', rfl⟩
            exact .inl ⟨_,
              List.mem_cons_of_mem _ (List.mem_map_of_mem hg'), rfl⟩
          · exact .inr ⟨function,
              by rw [List.getLast?_cons, hlast, Option.getD_some]⟩

theorem coversParens_argGroups {args : List Tree}
    (h : ∀ arg ∈ args, CoversParens arg.groups arg.piece.tokens) :
    CoversParens (argGroups args) (argsPiece args).tokens := by
  induction args with
  | nil => exact coversParens_of_not_mem (by simp [argsPiece, argTokens]) []
  | cons arg args ih =>
      rw [List.forall_mem_cons] at h
      cases args with
      | nil => exact h.1
      | cons next args =>
          rw [argsPiece_cons_cons]
          exact h.1.separated (ih h.2) (by simp [Piece.comma])

theorem coversParens (e : Tree) : CoversParens e.groups e.piece.tokens := by
  induction e using induct with
  | number | string | reference =>
      exact coversParens_of_not_mem (by simp [piece, tokens]) []
  | call function args span ih =>
      rw [piece_call, Piece.append_assoc]
      exact (coversParens_argGroups ih).within (coversParens_callee function)
        (by simp [Piece.closing])
  | binary op left right span ihLeft ihRight =>
      rw [piece_binary]
      exact (coversParens_operandGroups ihLeft _).separated
        (coversParens_operandGroups ihRight _) (by simp [Piece.ofBinary])
  | unary op operand span ih =>
      have hop : CoversParens [] (Piece.ofUnary op).tokens :=
        coversParens_of_not_mem
          (by simp [Piece.ofUnary, (Token.ofUnary_ne_leftParen op).symm]) []
      rw [piece_unary]
      exact hop.append (coversParens_operandGroups ih _)

/-! ## What pieces say -/

open Token (Nests weight)

/-- The piece reads as its tokens, which nest and say as much as the tree
does. -/
structure Writes (p : Piece) (e : Tree) : Prop where
  reads : ReadsAs p.chars p.tokens
  nests : Nests p.tokens
  weight : weight p.tokens = weight e.spelling

theorem Writes.read_eq {p : Piece} {e : Tree} (h : Writes p e) :
    Token.read p.chars = some p.tokens := by
  have hread := h.reads [] (by simp [Ends])
  rwa [List.append_nil, Token.read_nil, Option.map_some, List.append_nil]
    at hread

structure WritesArgs (p : Piece) (args : List Tree) : Prop where
  reads : ReadsAs p.chars p.tokens
  nests : Nests p.tokens
  weight : weight p.tokens = weight (argSpelling args)

theorem Writes.parenthesized {p : Piece} {e : Tree} (h : Writes p e)
    (needed : Bool) : Writes (p.parenthesized needed) e := by
  cases needed with
  | false => exact h
  | true =>
      constructor
      · exact h.reads.parenthesized true
      · exact h.nests.parens
      · simpa [Piece.parenthesized, Piece.opening, Piece.closing] using h.weight

theorem Writes.binary {p q : Piece} {left right : Tree} (h : Writes p left)
    (h' : Writes q right) (op : BinaryOp) (span : Span) :
    Writes (p ++ (.ofBinary op ++ q)) (binary op left right span) := by
  constructor
  · intro rest hrest
    simp only [Piece.chars_append, Piece.tokens_append, Piece.ofBinary,
      List.append_assoc, List.cons_append, List.nil_append,
      h.reads _ (ends_blank _), Token.read_blank_cons, Token.read_infix,
      h'.reads rest hrest, Option.map_map]
    rfl
  · exact h.nests.append (h'.nests.cons _ (by simp) (by simp))
  · simp [Piece.ofBinary, spelling, Token.weight_cons, h.weight, h'.weight]

theorem Writes.unary {p : Piece} {e : Tree} (h : Writes p e) (op : UnaryOp)
    (span : Span) : Writes (.ofUnary op ++ p) (unary op e span) := by
  have hleft := Token.ofUnary_ne_leftParen op
  have hright := Token.ofUnary_ne_rightParen op
  constructor
  · intro rest hrest
    simp only [Piece.chars_append, Piece.tokens_append, Piece.ofUnary,
      List.append_assoc, Token.read_prefix, h.reads rest hrest, Option.map_map]
    rfl
  · exact h.nests.cons _ hleft hright
  · simp [Piece.ofUnary, spelling, Token.weight_cons hleft hright, h.weight]

theorem WritesArgs.call {p : Piece} {args : List Tree} (h : WritesArgs p args)
    {function : String} (hname : Token.IsName function) (span : Span) :
    Writes (.callee function ++ p ++ .closing) (call function args span) := by
  constructor
  · intro rest hrest
    simp only [Piece.chars_append, Piece.tokens_append, Piece.callee,
      Piece.closing, List.append_assoc, List.cons_append, List.nil_append,
      Token.read_name hname, h.reads _ (ends_closing rest),
      Token.read_rightParen, Option.map_map]
    rfl
  · exact h.nests.parens.cons _ (by simp) (by simp)
  · simp [Piece.callee, Piece.closing, spelling, Token.weight_cons, h.weight]

theorem writesArgs_nil : WritesArgs .empty [] :=
  ⟨fun _ _ => by simp [Piece.empty], Token.nests_nil, rfl⟩

theorem Writes.one {p : Piece} {arg : Tree} (h : Writes p arg) :
    WritesArgs p [arg] :=
  ⟨h.reads, h.nests, h.weight⟩

theorem Writes.more {p q : Piece} {arg next : Tree} {args : List Tree}
    (h : Writes p arg) (h' : WritesArgs q (next :: args)) :
    WritesArgs (p ++ (.comma ++ q)) (arg :: next :: args) := by
  constructor
  · intro rest hrest
    simp only [Piece.chars_append, Piece.tokens_append, Piece.comma,
      List.append_assoc, List.cons_append, List.nil_append,
      h.reads _ (ends_comma _), Token.read_comma, Token.read_blank_cons,
      h'.reads rest hrest, Option.map_map]
    rfl
  · exact h.nests.append (h'.nests.cons _ (by simp) (by simp))
  · simp [Piece.comma, argSpelling, Token.weight_cons, h.weight, h'.weight]

theorem writesArgs_argsPiece {args : List Tree}
    (h : ∀ arg ∈ args, Writes arg.piece arg) :
    WritesArgs (argsPiece args) args := by
  induction args with
  | nil => exact writesArgs_nil
  | cons arg args ih =>
      rw [List.forall_mem_cons] at h
      cases args with
      | nil => exact h.1.one
      | cons next args => exact h.1.more (ih h.2)

theorem writes_piece {e : Tree} (h : e.Writable) : Writes e.piece e := by
  induction e using induct with
  | number value span =>
      exact ⟨readsAs_toChars h, Token.nests_nil.cons _ (by simp) (by simp), rfl⟩
  | string value span =>
      exact ⟨readsAs_toChars h, Token.nests_nil.cons _ (by simp) (by simp), rfl⟩
  | reference name target span =>
      exact ⟨readsAs_toChars h, Token.nests_nil.cons _ (by simp) (by simp), rfl⟩
  | call function args span ih =>
      rw [piece_call]
      exact (writesArgs_argsPiece fun arg harg =>
        ih arg harg (argsWritable_iff.mp h.2 arg harg)).call h.1 span
  | binary op left right span ihLeft ihRight =>
      rw [piece_binary]
      exact ((ihLeft h.1).parenthesized _).binary
        ((ihRight h.2).parenthesized _) op span
  | unary op operand span ih =>
      rw [piece_unary]
      exact ((ih h).parenthesized _).unary op span

theorem writes_dropped_of_operand {needed : Bool} {e : Tree}
    {groups : List Group} {g : Group} (h : g ∈ operandGroups needed e groups)
    (hpiece : Writes e.piece e) (hgroups : ∀ g ∈ groups, Writes g.dropped e) :
    Writes g.dropped e := by
  rcases operandGroups_cases h with ⟨rfl, rfl⟩ | ⟨rfl, g', hg', rfl⟩ | ⟨rfl, hg⟩
  · simpa [Group.dropped] using hpiece
  · rw [Group.dropped_within, ← Piece.append_assoc]
    exact (hgroups g' hg').parenthesized true
  · exact hgroups g hg

theorem writesArgs_dropped {args : List Tree}
    (hargs : ∀ arg ∈ args, arg.Writable)
    (ih : ∀ arg ∈ args, ∀ g ∈ arg.groups, Writes g.dropped arg) {g : Group}
    (h : g ∈ argGroups args) : WritesArgs g.dropped args := by
  induction args generalizing g with
  | nil => simp [argGroups] at h
  | cons arg args ihArgs =>
      rw [List.forall_mem_cons] at hargs ih
      cases args with
      | nil => exact (ih.1 g h).one
      | cons next args =>
          rcases argGroups_cases h with ⟨g', hg', rfl⟩ | ⟨g', hg', rfl⟩
          · rw [Group.dropped_within, Piece.empty_append]
            exact (ih.1 g' hg').more (writesArgs_argsPiece fun a ha =>
              writes_piece (hargs.2 a ha))
          · rw [Group.dropped_within, Piece.append_empty, Piece.append_assoc]
            exact (writes_piece hargs.1).more (ihArgs hargs.2 ih.2 hg')

theorem writes_dropped {e : Tree} (h : e.Writable) {g : Group}
    (hg : g ∈ e.groups) : Writes g.dropped e := by
  induction e using induct generalizing g with
  | number | string | reference => simp [groups] at hg
  | call function args span ih =>
      rw [groups, List.mem_map] at hg
      rcases hg with ⟨g', hg', rfl⟩
      have hargs := argsWritable_iff.mp h.2
      rw [Group.dropped_within, ← Piece.append_assoc]
      exact (writesArgs_dropped hargs (fun arg harg g hg =>
        ih arg harg (hargs arg harg) hg)
        hg').call h.1 span
  | binary op left right span ihLeft ihRight =>
      have hleft := writes_piece h.1
      have hright := writes_piece h.2
      rcases binary_groups_cases hg with ⟨g', hg', rfl⟩ | ⟨g', hg', rfl⟩
      · rw [Group.dropped_within, Piece.empty_append]
        exact (writes_dropped_of_operand hg' hleft fun g hg =>
            ihLeft h.1 hg).binary
          (hright.parenthesized _) op span
      · rw [Group.dropped_within, Piece.append_empty, Piece.append_assoc]
        exact (hleft.parenthesized _).binary
          (writes_dropped_of_operand hg' hright fun g hg =>
            ihRight h.2 hg) op span
  | unary op operand span ih =>
      rw [groups, List.mem_map] at hg
      rcases hg with ⟨g', hg', rfl⟩
      rw [Group.dropped_within, Piece.append_empty]
      exact (writes_dropped_of_operand hg' (writes_piece h) fun g hg =>
        ih h hg).unary op span

end Tree

end TableQuery
