import TableQuery.Proofs.Formula.Groups
import TableQuery.Proofs.Formula.Limits

/-!
# Which parentheses are needed

Writing a tree puts every operand in parentheses that binds more loosely than
its operator.  Without such a pair the formula means something else, or nothing,
except for complements: the parser takes `NOT` wherever an operand starts, so
the pair around it only keeps what follows out of it.
-/

namespace TableQuery.Tree

open Token (Nests weight)

/-! ## Trees that are the same -/

theorem exists_of_same_call {e : Tree} {function : String} {args : List Tree}
    {span : Span} (h : e.same (call function args span) = true) :
    ∃ args' span', e = call function args' span' ∧
      sameArgs args' args = true := by
  cases e with
  | call function' args' span' =>
      simp only [same, Bool.and_eq_true, beq_iff_eq] at h
      rcases h with ⟨rfl, hargs⟩
      exact ⟨args', span', rfl, hargs⟩
  | _ => simp [same] at h

theorem exists_of_same_binary {e left right : Tree} {op : BinaryOp}
    {span : Span} (h : e.same (binary op left right span) = true) :
    ∃ left' right' span', e = binary op left' right' span' ∧
      left'.same left = true ∧ right'.same right = true := by
  cases e with
  | binary op' left' right' span' =>
      simp only [same, Bool.and_eq_true, beq_iff_eq] at h
      rcases h with ⟨⟨rfl, hleft⟩, hright⟩
      exact ⟨left', right', span', rfl, hleft, hright⟩
  | _ => simp [same] at h

theorem exists_of_same_unary {e operand : Tree} {op : UnaryOp} {span : Span}
    (h : e.same (unary op operand span) = true) :
    ∃ operand' span', e = unary op operand' span' ∧
      operand'.same operand = true := by
  cases e with
  | unary op' operand' span' =>
      simp only [same, Bool.and_eq_true, beq_iff_eq] at h
      rcases h with ⟨rfl, hoperand⟩
      exact ⟨operand', span', rfl, hoperand⟩
  | _ => simp [same] at h

theorem exists_of_sameArgs_cons {args' args : List Tree} {arg : Tree}
    (h : sameArgs args' (arg :: args) = true) :
    ∃ first rest, args' = first :: rest ∧ first.same arg = true ∧
      sameArgs rest args = true := by
  cases args' with
  | nil => simp [sameArgs] at h
  | cons first rest =>
      rw [sameArgs, Bool.and_eq_true] at h
      exact ⟨first, rest, rfl, h.1, h.2⟩

theorem eq_nil_of_sameArgs {args : List Tree} (h : sameArgs args [] = true) :
    args = [] := by
  cases args with
  | nil => rfl
  | cons arg args => simp [sameArgs] at h

@[simp] theorem withSpan_same (span : Span) (e e' : Tree) :
    (e.withSpan span).same e' = e.same e' := by
  cases e <;> cases e' <;> rfl

theorem precedence_of_same {e e' : Tree} (h : e'.same e = true) :
    e'.precedence = e.precedence := by
  cases e' <;> cases e <;> simp_all [same, precedence]

theorem weight_argSpelling_of_same {args args' : List Tree}
    (ih : ∀ arg ∈ args, ∀ e : Tree, e.same arg = true →
      weight e.spelling = weight arg.spelling)
    (h : sameArgs args' args = true) : weight (argSpelling args') =
      weight (argSpelling args) := by
  induction args generalizing args' with
  | nil => rw [eq_nil_of_sameArgs h]
  | cons arg args ihArgs =>
      rw [List.forall_mem_cons] at ih
      rcases exists_of_sameArgs_cons h with ⟨first, rest, rfl, hfirst, hrest⟩
      have hweight := ih.1 first hfirst
      cases args with
      | nil =>
          rw [eq_nil_of_sameArgs hrest]
          exact hweight
      | cons next args =>
          have hmore := ihArgs ih.2 hrest
          rcases exists_of_sameArgs_cons hrest with ⟨next', rest, rfl, -, -⟩
          simp [argSpelling, Token.weight_cons, hweight, hmore]

theorem weight_spelling_of_same {e e' : Tree} (h : e'.same e = true) :
    weight e'.spelling = weight e.spelling := by
  induction e using induct generalizing e' with
  | number | string | reference =>
      cases e' <;> simp_all [same, spelling, Token.weight_cons]
  | call function args span ih =>
      rcases exists_of_same_call h with ⟨args', span', rfl, hargs⟩
      have hweight :=
        weight_argSpelling_of_same (fun arg harg e he => ih arg harg he) hargs
      simp [spelling, Token.weight_cons, hweight]
  | binary op left right span ihLeft ihRight =>
      rcases exists_of_same_binary h with
        ⟨left', right', span', rfl, hleft, hright⟩
      simp [spelling, Token.weight_cons, ihLeft hleft, ihRight hright]
  | unary op operand span ih =>
      rcases exists_of_same_unary h with ⟨operand', span', rfl, hoperand⟩
      cases op <;> simp [spelling, Token.ofUnary, Token.weight_cons,
        ih hoperand]

/-! ## What lexemes say -/

section

variable {levels strength edge : Nat} {lexemes : List Lexeme} {e : Tree}

theorem Written.nests (h : Written levels strength edge lexemes e) :
    Nests (lexemes.map (·.token)) := by
  induction h using Written.rec (motive_2 := fun _ lexemes _ _ =>
    Nests (lexemes.map (·.token))) with
  | number | string | field | word =>
      exact Token.nests_nil.cons _ (by simp) (by simp)
  | call function hargs start paren stop ih =>
      simpa using ih.parens.cons (.word function) (by simp) (by simp)
  | group h start stop ih => simpa using ih.parens
  | binary op span hleft hright hedge hchain hstrength ihLeft ihRight =>
      simpa using ihLeft.append
        (ihRight.cons (.operator op) (by simp) (by simp))
  | unary op start h hstrength ih =>
      exact ih.cons _ (Token.ofUnary_ne_leftParen op)
        (Token.ofUnary_ne_rightParen op)
  | none => exact Token.nests_nil
  | one h ih => exact ih
  | more h comma hrest ih ihRest =>
      simpa using ih.append (ihRest.cons .comma (by simp) (by simp))

theorem Written.weight (h : Written levels strength edge lexemes e) :
    weight (lexemes.map (·.token)) = weight e.spelling := by
  induction h using Written.rec (motive_2 := fun _ lexemes args _ =>
    Token.weight (lexemes.map (·.token)) = Token.weight (argSpelling args)) with
  | number | string | field | word => rfl
  | call function hargs start paren stop ih =>
      simp [spelling, Token.weight_cons, ih]
  | group h start stop ih => simp [ih]
  | binary op span hleft hright hedge hchain hstrength ihLeft ihRight =>
      simp [spelling, Token.weight_cons, ihLeft, ihRight]
  | unary op start h hstrength ih =>
      cases op <;> simp [spelling, Token.ofUnary, Token.weight_cons, ih]
  | none => rfl
  | one h ih => exact ih
  | more h comma hrest ih ihRest =>
      simp [argSpelling, Token.weight_cons, ih, ihRest]

theorem Written.strength_eq (h : Written levels strength edge lexemes e) :
    strength = Precedence.atom ∨ strength = e.precedence := by
  cases h with
  | binary => exact .inr rfl
  | _ => exact .inl rfl

end

/-! ## Tokens that are read as a tree -/

/-- Some lexemes with the tokens write a tree that is the same. -/
def ReadFrom (strength edge : Nat) (tokens : List Token) (e : Tree) : Prop :=
  ∃ levels lexemes e', Written levels strength edge lexemes e' ∧
    lexemes.map (·.token) = tokens ∧ e'.same e = true

def ReadArgs (tokens : List Token) (args : List Tree) : Prop :=
  ∃ levels lexemes args', WrittenArgs levels lexemes args' ∧
    lexemes.map (·.token) = tokens ∧ sameArgs args' args = true

variable {strength edge : Nat} {tokens : List Token} {e : Tree}

theorem ReadFrom.edge_le (h : ReadFrom strength edge tokens e) :
    edge ≤ strength + 1 := by
  rcases h with ⟨levels, lexemes, e', hwritten, -, -⟩
  exact hwritten.edge_le

theorem ReadFrom.strength_eq (h : ReadFrom strength edge tokens e) :
    strength = Precedence.atom ∨ strength = e.precedence := by
  rcases h with ⟨levels, lexemes, e', hwritten, -, hsame⟩
  rw [← precedence_of_same hsame]
  exact hwritten.strength_eq

theorem ReadFrom.of_parens
    (h : ReadFrom strength edge (.leftParen :: (tokens ++ [.rightParen])) e)
    (hnests : Nests tokens) :
    ∃ strength' edge', ReadFrom strength' edge' tokens e := by
  rcases h with ⟨levels, lexemes, e', hwritten, htokens, hsame⟩
  cases hwritten with
  | @group _ strength' edge' lexemes e'' hinner start stop =>
      simp at htokens
      exact ⟨strength', edge', _, lexemes, e'', hinner, htokens,
        by simpa using hsame⟩
  | binary op span hleft hright hedge hchain hstrength =>
      rcases hleft.exists_cons with ⟨first, more, rfl, -⟩
      rw [List.map_append] at htokens
      exact absurd htokens (hleft.nests.not_inside (by simp) (by simp) hnests)
  | unary op start hoperand hstrength =>
      cases op <;> simp [Token.ofUnary] at htokens
  | _ => simp at htokens

/-- Where an operator stands between what nests and says as much as the left
operand, and the rest, it is read as the operator of the tree. -/
theorem ReadFrom.of_binary {op : BinaryOp} {left right : Tree} {span : Span}
    {leftTokens rightTokens : List Token}
    (h : ReadFrom strength edge (leftTokens ++ .operator op :: rightTokens)
      (binary op left right span))
    (hnests : Nests leftTokens)
    (hweight : weight leftTokens = weight left.spelling) :
    ∃ leftStrength leftEdge rightStrength rightEdge,
      ReadFrom leftStrength leftEdge leftTokens left ∧
      ReadFrom rightStrength rightEdge rightTokens right ∧
      op.precedence < leftEdge ∧
      (op.isComparison = true → op.precedence < leftStrength) ∧
      op.precedence < rightStrength ∧ strength = op.precedence ∧
      edge = min (op.precedence + 1) rightEdge := by
  rcases h with ⟨levels, lexemes, e', hwritten, htokens, hsame⟩
  cases hwritten with
  | group hinner start stop =>
      rw [List.map_cons, List.map_append] at htokens
      cases leftTokens with
      | nil => simp at htokens
      | cons first rest =>
          exact absurd htokens.symm
            (hnests.not_inside (by simp) (by simp) hinner.nests)
  | binary op' opSpan hleft hright hedge hchain hstrength =>
      rcases exists_of_same_binary hsame with
        ⟨left', right', span', heq, hsameLeft, hsameRight⟩
      cases heq
      rw [List.map_append, List.map_cons] at htokens
      have hsplit := Token.eq_of_weight_eq htokens
        (by rw [hleft.weight, weight_spelling_of_same hsameLeft, hweight])
        (by simp) (by simp) (by simp) (by simp)
      exact ⟨_, _, _, _, ⟨_, _, _, hleft, hsplit.1, hsameLeft⟩,
        ⟨_, _, _, hright, hsplit.2.2, hsameRight⟩, hedge, hchain,
        hstrength, rfl, rfl⟩
  | _ => simp [same] at hsame

theorem ReadFrom.of_unary {op : UnaryOp} {operand : Tree} {span : Span}
    (h : ReadFrom strength edge (.ofUnary op :: tokens)
      (unary op operand span)) :
    ∃ operandStrength operandEdge,
    ReadFrom operandStrength operandEdge tokens operand ∧
      op.precedence ≤ operandStrength ∧
      edge = min op.precedence operandEdge := by
  rcases h with ⟨levels, lexemes, e', hwritten, htokens, hsame⟩
  cases hwritten with
  | group hinner start stop => cases op <;> simp [Token.ofUnary] at htokens
  | unary op' start hoperand hstrength =>
      rcases exists_of_same_unary hsame with
        ⟨operand', span', heq, hsameOperand⟩
      cases heq
      rw [List.map_cons, List.cons.injEq] at htokens
      exact ⟨_, _, ⟨_, _, _, hoperand, htokens.2, hsameOperand⟩, hstrength, rfl⟩
  | _ => simp [same] at hsame

theorem ReadFrom.of_call {function : String} {args : List Tree} {span : Span}
    (h : ReadFrom strength edge
      (.word function :: .leftParen :: (tokens ++ [.rightParen]))
      (call function args span)) : ReadArgs tokens args := by
  rcases h with ⟨levels, lexemes, e', hwritten, htokens, hsame⟩
  cases hwritten with
  | group hinner start stop => simp at htokens
  | call function' hargs start paren stop =>
      rcases exists_of_same_call hsame with ⟨args', span', heq, hsameArgs⟩
      cases heq
      simp at htokens
      exact ⟨_, _, _, hargs, htokens, hsameArgs⟩
  | _ => simp [same] at hsame

theorem ReadArgs.of_one {arg : Tree} (h : ReadArgs tokens [arg]) :
    ∃ strength edge, ReadFrom strength edge tokens arg := by
  rcases h with ⟨levels, lexemes, args', hwritten, htokens, hsame⟩
  rcases exists_of_sameArgs_cons hsame with ⟨first, rest, rfl, hfirst, hrest⟩
  rw [eq_nil_of_sameArgs hrest] at hwritten
  cases hwritten with
  | one harg => exact ⟨_, _, _, _, _, harg, htokens, hfirst⟩

theorem ReadArgs.of_more {arg next : Tree} {args : List Tree}
    {argTokens restTokens : List Token}
    (h : ReadArgs (argTokens ++ .comma :: restTokens) (arg :: next :: args))
    (hweight : weight argTokens = weight arg.spelling) :
    (∃ strength edge, ReadFrom strength edge argTokens arg) ∧
      ReadArgs restTokens (next :: args) := by
  rcases h with ⟨levels, lexemes, args', hwritten, htokens, hsame⟩
  rcases exists_of_sameArgs_cons hsame with ⟨first, rest, rfl, hfirst, hrest⟩
  cases hwritten with
  | one harg => simp [sameArgs] at hrest
  | more harg comma hmore =>
      rw [List.map_append, List.map_cons] at htokens
      have hsplit := Token.eq_of_weight_eq htokens
        (by rw [harg.weight, weight_spelling_of_same hfirst, hweight])
        (by simp) (by simp) (by simp) (by simp)
      constructor
      · exact ⟨_, _, _, _, _, harg, hsplit.1, hfirst⟩
      · exact ⟨_, _, _, hmore, hsplit.2.2, hrest⟩

theorem ReadFrom.bare (h : ReadFrom strength edge e.tokens e)
    (hwritable : e.Writable) : Bare strength edge e := by
  cases e with
  | binary op left right span =>
      have hleft := (writes_piece hwritable.1).parenthesized
        (needsParens left.precedence op .left)
      rw [piece_parenthesized] at hleft
      rcases ReadFrom.of_binary h hleft.nests hleft.weight with
        ⟨leftStrength, leftEdge, rightStrength, rightEdge, -, -, -, -, -,
          hstrength, -⟩
      exact .inl hstrength
  | unary op operand span =>
      rcases ReadFrom.of_unary h with ⟨operandStrength, operandEdge, -, -, rfl⟩
      exact .inr ⟨⟨op, operand, span, rfl⟩, Nat.min_le_left _ _⟩
  | _ => exact .inl (h.strength_eq.elim id id)

/-! ## Pairs that may be dropped -/

def IsComplement : Tree → Prop
  | unary .not _ _ => True
  | _ => False

/-- The pair is around a complement and nothing follows that its operand would
take in, be it behind the tree. -/
structure Droppable (g : Group) (edge : Nat) : Prop where
  complement : g.inner.IsComplement
  stops : Stops Precedence.negation g.after.tokens
  edge_le : g.after.tokens = [] → edge ≤ Precedence.negation

theorem Droppable.within {g : Group} (h : Droppable g edge) {edge' : Nat}
    (before : Piece) {after : Piece}
    (hstops : edge ≤ Precedence.negation →
      Stops Precedence.negation after.tokens)
    (hedge : after.tokens = [] → edge' ≤ edge) :
    Droppable (g.within before after) edge' := by
  constructor
  · exact h.complement
  · cases hafter : g.after.tokens with
    | nil => simpa [Group.within, hafter] using hstops (h.edge_le hafter)
    | cons first rest =>
        have hfirst := h.stops
        simpa [Group.within, hafter, Stops] using hfirst
  · intro hnil
    rw [Group.within, Piece.tokens_append, List.append_eq_nil_iff] at hnil
    exact Nat.le_trans (hedge hnil.2) (h.edge_le hnil.1)

theorem Droppable.last {g : Group} (h : Droppable g edge) {edge' : Nat}
    (before : Piece) (hle : edge' ≤ edge) :
    Droppable (g.within before .empty) edge' :=
  h.within before (fun _ => by simp [Piece.empty, Stops]) fun _ => hle

theorem Droppable.enclosed {g : Group} (h : Droppable g edge) (before : Piece)
    {after : Piece} {token : Token} {rest : List Token}
    (hafter : after.tokens = token :: rest)
    (hstops : ∀ op, token ≠ .operator op) (edge' : Nat) :
    Droppable (g.within before after) edge' := by
  apply h.within before
  · intro _ op hop
    rw [hafter, List.head?_cons, Option.some.injEq] at hop
    exact absurd hop (hstops op)
  · intro hnil
    rw [hafter] at hnil
    cases hnil

theorem isComplement_of_loosePrefix {bound : Nat}
    (hbound : bound ≤ Precedence.minus) (h : loosePrefix bound e = true) :
    e.IsComplement ∧ e.precedence = Precedence.negation := by
  cases e with
  | unary op operand span =>
      cases op with
      | not => exact ⟨trivial, rfl⟩
      | neg => exact absurd (of_decide_eq_true h) (Nat.not_lt.mpr hbound)
  | _ => cases h

/-- The pair around a loose prefix may be dropped where the operator takes the
prefix as it is. -/
theorem droppable_of_bare {bound : Nat} (hbare : Bare strength edge e)
    (hbound : bound ≤ Precedence.minus) (hloose : loosePrefix bound e = true)
    (hne : strength ≠ e.precedence) : Droppable ⟨.empty, e, .empty⟩ edge := by
  have hcomplement := isComplement_of_loosePrefix hbound hloose
  constructor
  · exact hcomplement.1
  · simp [Piece.empty, Stops]
  · intro _
    rcases hbare with heq | ⟨-, hle⟩
    · exact absurd heq hne
    · rwa [hcomplement.2] at hle

theorem droppable_of_operand {needed : Bool} (hwritable : e.Writable)
    (ih : ∀ g ∈ e.groups, ∀ strength edge,
      ReadFrom strength edge g.dropped.tokens e →
      Droppable g edge) {g : Group} (hg : g ∈ operandGroups needed e e.groups)
    (h : ReadFrom strength edge g.dropped.tokens e) :
    (needed = true ∧ g = ⟨.empty, e, .empty⟩ ∧ Bare strength edge e) ∨
    Droppable g edge := by
  rcases operandGroups_cases hg with ⟨rfl, rfl⟩ | ⟨rfl, g', hg', rfl⟩ |
    ⟨rfl, hg⟩
  · simp only [Group.dropped, Piece.empty_append, Piece.append_empty] at h
    exact .inl ⟨rfl, rfl, ReadFrom.bare h hwritable⟩
  · rw [Group.dropped_within] at h
    rcases ReadFrom.of_parens h (writes_dropped hwritable hg').nests with
      ⟨strength', edge', hinner⟩
    exact .inr ((ih g' hg' _ _ hinner).enclosed _ rfl (by simp) edge)
  · exact .inr (ih g hg _ _ h)

theorem droppable_of_args {args : List Tree}
    (hwritable : ∀ arg ∈ args, arg.Writable)
    (ih : ∀ arg ∈ args, ∀ g ∈ arg.groups, ∀ strength edge,
      ReadFrom strength edge g.dropped.tokens arg → Droppable g edge)
    {g : Group}
    (hg : g ∈ argGroups args) (h : ReadArgs g.dropped.tokens args) :
    ∃ edge, Droppable g edge := by
  induction args generalizing g with
  | nil => simp [argGroups] at hg
  | cons arg args ihArgs =>
      rw [List.forall_mem_cons] at hwritable ih
      cases args with
      | nil =>
          rcases h.of_one with ⟨strength, edge, hread⟩
          exact ⟨edge, ih.1 g hg _ _ hread⟩
      | cons next args =>
          rcases argGroups_cases hg with ⟨g', hg', rfl⟩ | ⟨g', hg', rfl⟩
          · rw [Group.dropped_within, Piece.empty_append] at h
            rcases (ReadArgs.of_more h
              (writes_dropped hwritable.1 hg').weight).1 with
              ⟨strength, edge, hread⟩
            exact ⟨edge, (ih.1 g' hg' _ _ hread).enclosed _ rfl (by simp) edge⟩
          · rw [Group.dropped_within, Piece.append_empty,
              Piece.append_assoc] at h
            have hrest :=
              (ReadArgs.of_more h (writes_piece hwritable.1).weight).2
            rcases ihArgs hwritable.2 ih.2 hg' hrest with ⟨edge, hdroppable⟩
            exact ⟨edge, hdroppable.last _ (Nat.le_refl _)⟩

section

variable {op : BinaryOp} {left right : Tree} {span : Span}

theorem droppable_of_left (hwritable : left.Writable)
    (ih : ∀ g ∈ left.groups, ∀ strength edge,
      ReadFrom strength edge g.dropped.tokens left →
      Droppable g edge) {g : Group}
    (hg : g ∈ operandGroups (needsParens left.precedence op .left)
      left left.groups)
    (h : ReadFrom strength edge
      (g.within .empty (.ofBinary op ++ right.piece.parenthesized
        (needsParens right.precedence op .right))).dropped.tokens
      (binary op left right span)) :
    Droppable (g.within .empty (.ofBinary op ++ right.piece.parenthesized
      (needsParens right.precedence op .right))) edge := by
  rw [Group.dropped_within, Piece.empty_append] at h
  have hwrites :=
    writes_dropped_of_operand hg (writes_piece hwritable) fun g hg =>
    writes_dropped hwritable hg
  rcases ReadFrom.of_binary h hwrites.nests hwrites.weight with
    ⟨leftStrength, leftEdge, rightStrength, rightEdge, hleft, -, hedge,
      hchain, -, -, -⟩
  rcases droppable_of_operand hwritable ih hg hleft with ⟨hneeded, -, hbare⟩ |
    hdroppable
  · rw [not_needsParens_of_bare hbare hedge hleft.edge_le hchain] at hneeded
    cases hneeded
  · apply hdroppable.within
    · intro hle op' hop'
      cases hop'
      exact Nat.lt_of_lt_of_le hedge hle
    · intro hnil
      cases hnil

theorem droppable_of_right (hwritable : (binary op left right span).Writable)
    (ih : ∀ g ∈ right.groups, ∀ strength edge,
      ReadFrom strength edge g.dropped.tokens right →
      Droppable g edge) {g : Group}
    (hg : g ∈ operandGroups (needsParens right.precedence op .right)
      right right.groups)
    (h : ReadFrom strength edge
      (g.within (left.piece.parenthesized
        (needsParens left.precedence op .left) ++ .ofBinary op)
        .empty).dropped.tokens
      (binary op left right span)) :
    Droppable (g.within (left.piece.parenthesized
      (needsParens left.precedence op .left) ++ .ofBinary op) .empty) edge := by
  rw [Group.dropped_within, Piece.append_empty, Piece.append_assoc] at h
  have hwrites :=
    (writes_piece hwritable.1).parenthesized
      (needsParens left.precedence op .left)
  rcases ReadFrom.of_binary h hwrites.nests hwrites.weight with
    ⟨leftStrength, leftEdge, rightStrength, rightEdge, -, hright, -, -,
      hstrength, -, rfl⟩
  have hdroppable : Droppable g rightEdge := by
    rcases droppable_of_operand hwritable.2 ih hg hright with
      ⟨hneeded, rfl, hbare⟩ | hdroppable
    · have hloose := loosePrefix_of_bare_right hbare hstrength hneeded
      rw [needsParens_right_iff] at hneeded
      exact droppable_of_bare hbare (Nat.le_of_lt_succ (binary_lt_atom op))
        hloose (by omega)
    · exact hdroppable
  exact hdroppable.last _ (Nat.min_le_right _ _)

theorem droppable_of_prefix {op : UnaryOp} {operand : Tree}
    (hwritable : operand.Writable)
    (ih : ∀ g ∈ operand.groups, ∀ strength edge,
      ReadFrom strength edge g.dropped.tokens operand →
      Droppable g edge) {g : Group}
    (hg : g ∈ operandGroups (operand.precedence < op.precedence) operand
      operand.groups)
    (h : ReadFrom strength edge (g.within (.ofUnary op) .empty).dropped.tokens
      (unary op operand span)) :
      Droppable (g.within (.ofUnary op) .empty) edge := by
  rw [Group.dropped_within, Piece.append_empty] at h
  rcases ReadFrom.of_unary h with ⟨operandStrength, operandEdge, hoperand,
    hstrength, rfl⟩
  have hdroppable : Droppable g operandEdge := by
    rcases droppable_of_operand hwritable ih hg hoperand with
      ⟨hneeded, rfl, hbare⟩ | hdroppable
    · have hlt := of_decide_eq_true hneeded
      have hloose := loosePrefix_of_bare_operand hbare hstrength hlt
      exact droppable_of_bare hbare (Nat.le_of_lt_succ (unary_lt_atom op))
        hloose (by omega)
    · exact hdroppable
  exact hdroppable.last _ (Nat.min_le_right _ _)

end

/-- Where a formula is read as its tree without one of its pairs, the pair may
be dropped. -/
theorem droppable_of_readFrom (hwritable : e.Writable) {g : Group}
    (hg : g ∈ e.groups) (h : ReadFrom strength edge g.dropped.tokens e) :
    Droppable g edge := by
  induction e using induct generalizing g strength edge with
  | number | string | reference => simp [groups] at hg
  | call function args span ih =>
      rw [groups, List.mem_map] at hg
      rcases hg with ⟨g', hg', rfl⟩
      rw [Group.dropped_within] at h
      have hargs := argsWritable_iff.mp hwritable.2
      rcases droppable_of_args hargs
        (fun arg harg g hg strength edge h =>
          ih arg harg (hargs arg harg) hg h) hg'
        (ReadFrom.of_call h) with ⟨argEdge, hdroppable⟩
      exact hdroppable.enclosed _ rfl (by simp) edge
  | binary op left right span ihLeft ihRight =>
      rcases binary_groups_cases hg with ⟨g', hg', rfl⟩ | ⟨g', hg', rfl⟩
      · exact droppable_of_left hwritable.1
          (fun g hg strength edge h => ihLeft hwritable.1 hg h) hg' h
      · exact droppable_of_right hwritable
          (fun g hg strength edge h => ihRight hwritable.2 hg h) hg' h
  | unary op operand span ih =>
      rw [groups, List.mem_map] at hg
      rcases hg with ⟨g', hg', rfl⟩
      have hoperand : operand.Writable := hwritable
      exact droppable_of_prefix hoperand
        (fun g hg strength edge h => ih hoperand hg h) hg' h

/-! ## Reading without the pair of a complement -/

theorem Stops.of_append {least : Nat} {tokens next : List Token}
    (h : Stops least (tokens ++ next)) : Stops least tokens := by
  cases tokens with
  | nil => simp [Stops]
  | cons first tokens => simpa [Stops] using h

/-- The formula of the tree without the pair spells the tree.  Only if nothing
follows the pair may it take in more of what is behind it than with the pair,
and that no more than the complement. -/
def SpellsDropped (strength edge : Nat) (e : Tree) (g : Group) : Prop :=
  ∃ levels edge', Spells levels strength edge' g.dropped.tokens e.unresolved ∧
    min edge Precedence.negation ≤ edge' ∧ (g.after.tokens ≠ [] → edge ≤ edge')

theorem spellsDropped_of_operand {needed : Bool} (hwritable : e.Writable)
    (ih : ∀ g ∈ e.groups, g.inner.IsComplement →
      Stops Precedence.negation g.after.tokens →
      SpellsDropped e.strength e.edge e g) {g : Group}
        (hg : g ∈ operandGroups needed e e.groups)
    (hcomplement : g.inner.IsComplement)
      (hstops : Stops Precedence.negation g.after.tokens) :
    SpellsDropped (strengthIn needed e.strength)
      (edgeIn needed e.edge) e g := by
  rcases operandGroups_cases hg with ⟨rfl, rfl⟩ | ⟨rfl, g', hg', rfl⟩ |
    ⟨rfl, hg⟩
  · have hspells := spells_tokens hwritable
    cases e with
    | unary op operand span =>
        cases op with
        | not =>
            rw [SpellsDropped, Group.dropped, Piece.empty_append,
              Piece.append_empty]
            exact ⟨_, _, hspells, Nat.min_le_right _ _,
              fun hne => absurd rfl hne⟩
        | neg => exact hcomplement.elim
    | _ => exact hcomplement.elim
  · rcases ih g' hg' hcomplement hstops.of_append with
      ⟨levels, edge', hspells, -, -⟩
    refine ⟨levels + 1, Precedence.atom + 1, ?_, Nat.min_le_left _ _,
      fun _ => Nat.le_refl _⟩
    rw [Group.dropped_within]
    exact hspells.group
  · exact ih g hg hcomplement hstops

theorem spellsDropped_of_args {args : List Tree}
    (hwritable : ∀ arg ∈ args, arg.Writable)
    (ih : ∀ arg ∈ args, ∀ g ∈ arg.groups, g.inner.IsComplement →
      Stops Precedence.negation g.after.tokens →
      SpellsDropped arg.strength arg.edge arg g)
    {g : Group} (hg : g ∈ argGroups args) (hcomplement : g.inner.IsComplement)
    (hstops : Stops Precedence.negation g.after.tokens) :
    ∃ levels, SpellsArgs levels g.dropped.tokens (argsUnresolved args) := by
  induction args generalizing g with
  | nil => simp [argGroups] at hg
  | cons arg args ihArgs =>
      rw [List.forall_mem_cons] at ih
      have hwritables := List.forall_mem_cons.mp hwritable
      cases args with
      | nil =>
          rcases ih.1 g hg hcomplement hstops with ⟨levels, edge, hspells, -, -⟩
          exact ⟨levels, hspells.one⟩
      | cons next args =>
          rcases argGroups_cases hg with ⟨g', hg', rfl⟩ | ⟨g', hg', rfl⟩
          · rcases ih.1 g' hg' hcomplement hstops.of_append with
              ⟨levels, edge, hspells, -, -⟩
            rw [Group.dropped_within, Piece.empty_append]
            exact ⟨_, hspells.more (spellsArgs_argTokens fun a ha =>
              spells_tokens (hwritables.2 a ha))⟩
          · rcases ihArgs hwritables.2 ih.2 hg' hcomplement hstops.of_append
              with ⟨levels, hspells⟩
            rw [Group.dropped_within, Piece.append_empty, Piece.append_assoc]
            exact ⟨_, (spells_tokens hwritables.1).more hspells⟩

section

variable {op : BinaryOp} {left right : Tree} {span : Span} {g : Group}

theorem spellsDropped_of_left (hwritable : (binary op left right span).Writable)
    (h : SpellsDropped
      (strengthIn (needsParens left.precedence op .left) left.strength)
      (edgeIn (needsParens left.precedence op .left) left.edge) left g)
    (hstops : Stops Precedence.negation (g.within .empty (.ofBinary op ++
      right.piece.parenthesized
        (needsParens right.precedence op .right))).after.tokens) :
    SpellsDropped op.precedence (op.precedence + 1) (binary op left right span)
      (g.within .empty (.ofBinary op ++
        right.piece.parenthesized
          (needsParens right.precedence op .right))) := by
  rcases h with ⟨levels, leftEdge, hspells, hmin, hedge⟩
  have hright := (spells_tokens hwritable.2).parenthesized
    (needsParens right.precedence op .right)
  have hbehind : op.precedence < leftEdge := by
    have hkept := lt_edgeIn_left op left
    cases hafter : g.after.tokens with
    | nil =>
        have hlt := hstops op (by simp [Group.within, hafter, Piece.ofBinary])
        omega
    | cons first rest =>
        have hle := hedge (by simp [hafter])
        omega
  have hbinary := hspells.binary hright hbehind (lt_strengthIn_left left)
    (lt_strengthIn_right op right) span
  rw [Nat.min_eq_left (lt_edgeIn_right op right)] at hbinary
  rw [SpellsDropped, Group.dropped_within, Piece.empty_append,
    piece_parenthesized]
  exact ⟨_, _, hbinary, Nat.min_le_left _ _, fun _ => Nat.le_refl _⟩

theorem spellsDropped_of_right
    (hwritable : (binary op left right span).Writable)
    (h : SpellsDropped
      (strengthIn (needsParens right.precedence op .right) right.strength)
      (edgeIn (needsParens right.precedence op .right) right.edge) right g) :
    SpellsDropped op.precedence (op.precedence + 1) (binary op left right span)
      (g.within (left.piece.parenthesized
        (needsParens left.precedence op .left) ++ .ofBinary op) .empty) := by
  rcases h with ⟨levels, rightEdge, hspells, hmin, hedge⟩
  have hleft :=
    (spells_tokens hwritable.1).parenthesized
      (needsParens left.precedence op .left)
  have hkept := lt_edgeIn_right op right
  have hbinary :=
    hleft.binary hspells (lt_edgeIn_left op left) (lt_strengthIn_left left)
      (lt_strengthIn_right op right) span
  rw [SpellsDropped, Group.dropped_within, Piece.append_empty,
    Piece.append_assoc, piece_parenthesized]
  refine ⟨_, _, hbinary, by omega, ?_⟩
  intro hafter
  have hle := hedge (by simpa [Group.within, Piece.empty] using hafter)
  omega

theorem spellsDropped_of_prefix {op : UnaryOp} {operand : Tree}
    (h : SpellsDropped
      (strengthIn (operand.precedence < op.precedence) operand.strength)
      (edgeIn (operand.precedence < op.precedence) operand.edge) operand g) :
    SpellsDropped Precedence.atom op.precedence (unary op operand span)
      (g.within (.ofUnary op) .empty) := by
  rcases h with ⟨levels, operandEdge, hspells, hmin, hedge⟩
  have hkept := le_edgeIn_operand op operand
  have hunary := hspells.unary (le_strengthIn_operand op operand) span
  rw [SpellsDropped, Group.dropped_within, Piece.append_empty]
  refine ⟨_, _, hunary, by omega, ?_⟩
  intro hafter
  have hle := hedge (by simpa [Group.within, Piece.empty] using hafter)
  omega

end

theorem spellsDropped (hwritable : e.Writable) {g : Group} (hg : g ∈ e.groups)
    (hcomplement : g.inner.IsComplement)
    (hstops : Stops Precedence.negation g.after.tokens) :
    SpellsDropped e.strength e.edge e g := by
  induction e using induct generalizing g with
  | number | string | reference => simp [groups] at hg
  | call function args span ih =>
      rw [groups, List.mem_map] at hg
      rcases hg with ⟨g', hg', rfl⟩
      have hargs := argsWritable_iff.mp hwritable.2
      rcases spellsDropped_of_args hargs
        (fun arg harg g hg => ih arg harg (hargs arg harg) hg) hg' hcomplement
        hstops.of_append with ⟨levels, hspells⟩
      refine ⟨levels + 1, Precedence.atom + 1, ?_, Nat.min_le_left _ _,
        fun _ => Nat.le_refl _⟩
      rw [Group.dropped_within]
      exact hspells.call function span
  | binary op left right span ihLeft ihRight =>
      rcases binary_groups_cases hg with ⟨g', hg', rfl⟩ | ⟨g', hg', rfl⟩
      · have hleft :=
          spellsDropped_of_operand hwritable.1
            (fun g hg => ihLeft hwritable.1 hg) hg'
          hcomplement hstops.of_append
        exact spellsDropped_of_left hwritable hleft hstops
      · have hright :=
          spellsDropped_of_operand hwritable.2
            (fun g hg => ihRight hwritable.2 hg)
          hg' hcomplement hstops.of_append
        exact spellsDropped_of_right hwritable hright
  | unary op operand span ih =>
      rw [groups, List.mem_map] at hg
      rcases hg with ⟨g', hg', rfl⟩
      have hoperand : operand.Writable := hwritable
      exact spellsDropped_of_prefix (spellsDropped_of_operand hoperand
        (fun g hg => ih hoperand hg) hg' hcomplement hstops.of_append)

/-! ## The pairs of written trees -/

theorem read_dropped (hwritable : e.Writable) {g : Group} (hg : g ∈ e.groups) :
    Token.read (String.ofList g.dropped.chars).toList =
      some g.dropped.tokens := by
  rw [String.toList_ofList]
  exact (writes_dropped hwritable hg).read_eq

theorem readFrom_dropped (hwritable : e.Writable) {g : Group}
    (hg : g ∈ e.groups) {limit : Nat} {e' : Tree}
    (hparse : parseWithin limit (String.ofList g.dropped.chars) = .ok e')
    (hsame : e'.same e = true) :
    ∃ strength edge, ReadFrom strength edge g.dropped.tokens e := by
  rcases exists_written_of_parseWithin hparse with
    ⟨lexemes, levels, strength, edge, hscan, -, hwritten⟩
  rcases Token.read_eq_some_iff.mp (read_dropped hwritable hg) with
    ⟨lexemes', hscan', htokens⟩
  rw [hscan, Except.ok.injEq] at hscan'
  exact ⟨strength, edge, levels, lexemes, e', hwritten, hscan' ▸ htokens, hsame⟩

/-- Of the pairs that are written for a tree that was read, the one that may be
dropped is that around a complement with no operator behind it but `AND` and
`OR`.  Without any other pair the formula is refused at every limit, or read as
a tree that differs. -/
theorem group_removable_iff {depth : Nat} {source : String} {e : Tree}
    (h : parseWithin depth source = .ok e) :
    Token.read e.piece.chars = some e.piece.tokens ∧
      CoversParens e.groups e.piece.tokens ∧ ∀ g ∈ e.groups, g.kept = e.piece ∧
        ((∃ limit e',
            parseWithin limit (String.ofList g.dropped.chars) = .ok e' ∧
            e'.same e = true) ↔
          g.inner.IsComplement ∧ Stops Precedence.negation g.after.tokens) := by
  rcases plain_of_parseWithin h with ⟨hwritable, hunresolved⟩
  refine ⟨(writes_piece hwritable).read_eq, coversParens e, fun g hg =>
    ⟨kept_of_mem_groups hg, ?_, ?_⟩⟩
  · rintro ⟨limit, e', hparse, hsame⟩
    rcases readFrom_dropped hwritable hg hparse hsame with
      ⟨strength, edge, hread⟩
    have hdroppable := droppable_of_readFrom hwritable hg hread
    exact ⟨hdroppable.complement, hdroppable.stops⟩
  · rintro ⟨hcomplement, hstops⟩
    rcases spellsDropped hwritable hg hcomplement hstops with
      ⟨levels, edge, hspells, -, -⟩
    rcases hspells.exists_parse (read_dropped hwritable hg)
      (Nat.le_refl levels) with
      ⟨e', hparse, hsame⟩
    rw [hunresolved] at hsame
    exact ⟨levels, e', hparse, same_of_withoutSpans_eq hsame⟩

def complementProduct : Tree :=
  binary .mul (unary .not (reference "a" none ⟨5, 6⟩) ⟨0, 7⟩)
    (unary .not (reference "b" none ⟨14, 15⟩) ⟨10, 15⟩) ⟨0, 15⟩

theorem group_removable_iff_complementProduct :
    (¬ ∃ limit e', parseWithin limit "NOT [a] * (NOT [b])" = .ok e' ∧
      e'.same complementProduct = true) ∧
      ∃ limit e', parseWithin limit "(NOT [a]) * NOT [b]" = .ok e' ∧
        e'.same complementProduct = true := by
  have hscan : Token.scan "(NOT a) * NOT b" =
      .ok [⟨.leftParen, ⟨0, 1⟩⟩, ⟨.not, ⟨1, 4⟩⟩,
      ⟨.word "a", ⟨5, 6⟩⟩, ⟨.rightParen, ⟨6, 7⟩⟩, ⟨.operator .mul, ⟨8, 9⟩⟩,
      ⟨.not, ⟨10, 13⟩⟩, ⟨.word "b", ⟨14, 15⟩⟩] := by decide +kernel
  have hparse : parseWithin 3 "(NOT a) * NOT b" = .ok complementProduct := by
    rw [parseWithin, hscan]
    rfl
  have hgroups := (group_removable_iff hparse).2.2
  have hpairs : complementProduct.groups = [_, _] := rfl
  rw [hpairs, List.forall_mem_cons, List.forall_mem_singleton] at hgroups
  rcases hgroups with ⟨⟨-, hfirst⟩, -, hsecond⟩
  constructor
  · intro hremovable
    rcases hfirst.mp hremovable with ⟨-, hstops⟩
    exact absurd (hstops .mul rfl) (by decide)
  · refine hsecond.mpr ⟨trivial, ?_⟩
    intro op hop
    cases hop

/-- The pair in `1 * (NOT [a])` is written though nothing depends on it. -/
theorem not_forall_group_needed :
    ¬ ∀ source e, parse source = .ok e → ∀ g ∈ e.groups,
      ¬ ∃ limit e', parseWithin limit (String.ofList g.dropped.chars) = .ok e' ∧
        e'.same e = true := by
  have hscan : Token.scan "1 * NOT [a]" =
      .ok [⟨.number "1", ⟨0, 1⟩⟩, ⟨.operator .mul, ⟨2, 3⟩⟩,
      ⟨.not, ⟨4, 7⟩⟩, ⟨.field "a", ⟨8, 11⟩⟩] := by decide +kernel
  have hparse : parse "1 * NOT [a]" = .ok (binary .mul (number .one ⟨0, 1⟩)
      (unary .not (reference "a" none ⟨8, 11⟩) ⟨4, 11⟩) ⟨0, 11⟩) := by
    rw [parse, parseWithin, hscan]
    rfl
  intro h
  -- The formula is what is left of its own rendering without the pair.
  exact h _ _ hparse _ List.mem_cons_self ⟨defaultMaxDepth, _, hparse,
    by decide⟩

end TableQuery.Tree
