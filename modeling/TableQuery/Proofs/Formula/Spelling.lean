import TableQuery.Proofs.Formula.ReadTrees
import TableQuery.Proofs.Formula.RoundTrip

/-!
# Tokens that spell trees

What lexemes are read as depends on their spans only in the spans of the tree.
So the grammar can be told of tokens, and a formula is read as the tree that its
tokens spell.
-/

namespace TableQuery.Tree

/-! ## Spelling -/

/-- Wherever they stand, the tokens write the tree, but for its spans. -/
def Spells (levels strength edge : Nat) (tokens : List Token)
    (e : Tree) : Prop :=
  ∀ lexemes : List Lexeme, lexemes.map (·.token) = tokens →
    ∃ e', Written levels strength edge lexemes e' ∧
    e'.withoutSpans = e.withoutSpans

def SpellsArgs (levels : Nat) (tokens : List Token) (args : List Tree) : Prop :=
  ∀ lexemes : List Lexeme, lexemes.map (·.token) = tokens →
    ∃ args', WrittenArgs levels lexemes args' ∧
    args'.map withoutSpans = args.map withoutSpans

section

variable {levels strength edge : Nat} {tokens : List Token} {e : Tree}

theorem Spells.congr {e' : Tree} (h : Spells levels strength edge tokens e)
    (hsame : e.withoutSpans = e'.withoutSpans) :
    Spells levels strength edge tokens e' := by
  intro lexemes htokens
  rw [← hsame]
  exact h lexemes htokens

theorem spells_atom {token : Token}
    (h : ∀ span,
      Written 1 Precedence.atom (Precedence.atom + 1) [⟨token, span⟩]
        (e.withSpan span)) :
    Spells 1 Precedence.atom (Precedence.atom + 1) [token] e := by
  intro lexemes htokens
  rcases exists_lexeme_of_map_eq_cons htokens with ⟨span, rest, rfl, hrest⟩
  rw [List.map_eq_nil_iff] at hrest
  subst hrest
  exact ⟨e.withSpan span, h span, withoutSpans_withSpan span e⟩

theorem spells_number {digits : String} {value : Decimal}
    (h : Decimal.ofString? digits = some value) (span : Span) :
    Spells 1 Precedence.atom (Precedence.atom + 1) [.number digits]
  (number value span) := spells_atom (.number h)

theorem spells_string (value : String) (span : Span) :
    Spells 1 Precedence.atom (Precedence.atom + 1) [.string value]
  (string value span) := spells_atom (.string value)

theorem spells_field (name : String) (span : Span) :
    Spells 1 Precedence.atom (Precedence.atom + 1) [.field name]
  (reference name none span) := spells_atom (.field name)

theorem spells_word (name : String) (span : Span) :
    Spells 1 Precedence.atom (Precedence.atom + 1) [.word name]
  (reference name none span) := spells_atom (.word name)

theorem exists_closing_of_map_eq {lexemes : List Lexeme} {tokens : List Token}
    (h : lexemes.map (·.token) = tokens ++ [.rightParen]) :
    ∃ inner stop, lexemes = inner ++ [⟨.rightParen, stop⟩] ∧
      inner.map (·.token) = tokens := by
  rcases List.map_eq_append_iff.mp h with ⟨inner, last, rfl, hinner, hlast⟩
  rcases exists_lexeme_of_map_eq_cons hlast with ⟨stop, rest, rfl, hrest⟩
  rw [List.map_eq_nil_iff] at hrest
  exact ⟨inner, stop, by rw [hrest], hinner⟩

theorem exists_separated_of_map_eq {lexemes : List Lexeme}
    {tokens tokens' : List Token} {separator : Token}
    (h : lexemes.map (·.token) = tokens ++ separator :: tokens') :
    ∃ left span right, lexemes = left ++ ⟨separator, span⟩ :: right ∧
      left.map (·.token) = tokens ∧ right.map (·.token) = tokens' := by
  rcases List.map_eq_append_iff.mp h with ⟨left, more, rfl, hleft, hmore⟩
  rcases exists_lexeme_of_map_eq_cons hmore with ⟨span, right, rfl, hright⟩
  exact ⟨left, span, right, rfl, hleft, hright⟩

theorem SpellsArgs.call {args : List Tree} (h : SpellsArgs levels tokens args)
    (function : String) (span : Span) :
    Spells (levels + 1) Precedence.atom (Precedence.atom + 1)
      (.word function :: .leftParen :: (tokens ++ [.rightParen]))
      (call function args span) := by
  intro lexemes htokens
  rcases exists_lexeme_of_map_eq_cons htokens with ⟨start, rest, rfl, hrest⟩
  rcases exists_lexeme_of_map_eq_cons hrest with ⟨paren, more, rfl, hmore⟩
  rcases exists_closing_of_map_eq hmore with ⟨inner, stop, rfl, hinner⟩
  rcases h inner hinner with ⟨args', hargs, hsame⟩
  use Tree.call function args' (start.join stop)
  constructor
  · exact .call function hargs start paren stop
  · simp only [withoutSpans, argsWithoutSpans_eq_map, hsame]

theorem Spells.group (h : Spells levels strength edge tokens e) :
    Spells (levels + 1) Precedence.atom (Precedence.atom + 1)
      (.leftParen :: (tokens ++ [.rightParen])) e := by
  intro lexemes htokens
  rcases exists_lexeme_of_map_eq_cons htokens with ⟨start, rest, rfl, hrest⟩
  rcases exists_closing_of_map_eq hrest with ⟨inner, stop, rfl, hinner⟩
  rcases h inner hinner with ⟨e', hwritten, hsame⟩
  use e'.withSpan (start.join stop)
  constructor
  · exact .group hwritten start stop
  · rw [withoutSpans_withSpan, hsame]

theorem Spells.binary {rightLevels rightStrength rightEdge : Nat}
    {rightTokens : List Token} {right : Tree}
    (hleft : Spells levels strength edge tokens e)
    (hright : Spells rightLevels rightStrength rightEdge rightTokens right)
    {op : BinaryOp} (hedge : op.precedence < edge)
    (hchain : op.isComparison = true → op.precedence < strength)
    (hstrength : op.precedence < rightStrength) (span : Span) :
    Spells (max levels (rightLevels + 1)) op.precedence
      (min (op.precedence + 1) rightEdge)
      (tokens ++ .operator op :: rightTokens) (binary op e right span) := by
  intro lexemes htokens
  rcases exists_separated_of_map_eq htokens with
    ⟨leftLexemes, opSpan, rightLexemes, rfl, hleftTokens, hrightTokens⟩
  rcases hleft leftLexemes hleftTokens with ⟨left', hleftWritten, hleftSame⟩
  rcases hright rightLexemes hrightTokens with
    ⟨right', hrightWritten, hrightSame⟩
  use Tree.binary op left' right' (left'.span.join right'.span)
  constructor
  · exact .binary op opSpan hleftWritten hrightWritten hedge hchain hstrength
  · simp only [withoutSpans, hleftSame, hrightSame]

theorem Spells.unary (h : Spells levels strength edge tokens e) {op : UnaryOp}
    (hstrength : op.precedence ≤ strength) (span : Span) :
    Spells (levels + 1) Precedence.atom (min op.precedence edge)
      (.ofUnary op :: tokens)
      (unary op e span) := by
  intro lexemes htokens
  rcases exists_lexeme_of_map_eq_cons htokens with ⟨start, rest, rfl, hrest⟩
  rcases h rest hrest with ⟨e', hwritten, hsame⟩
  use Tree.unary op e' (start.join e'.span)
  constructor
  · exact .unary op start hwritten hstrength
  · simp only [withoutSpans, hsame]

theorem spellsArgs_none : SpellsArgs 0 [] [] := by
  intro lexemes htokens
  rw [List.map_eq_nil_iff] at htokens
  exact ⟨[], htokens ▸ .none, rfl⟩

theorem Spells.one (h : Spells levels strength edge tokens e) :
    SpellsArgs levels tokens [e] := by
  intro lexemes htokens
  rcases h lexemes htokens with ⟨e', hwritten, hsame⟩
  exact ⟨[e'], .one hwritten, by simp [hsame]⟩

theorem Spells.more (h : Spells levels strength edge tokens e)
    {restLevels : Nat} {restTokens : List Token} {next : Tree}
    {args : List Tree}
    (hrest : SpellsArgs restLevels restTokens (next :: args)) :
    SpellsArgs (max levels restLevels) (tokens ++ .comma :: restTokens)
      (e :: next :: args) := by
  intro lexemes htokens
  rcases exists_separated_of_map_eq htokens with
    ⟨first, comma, rest, rfl, hfirst, hmore⟩
  rcases h first hfirst with ⟨e', hwritten, hsame⟩
  rcases hrest rest hmore with ⟨args', hargs, hargsSame⟩
  cases args' with
  | nil => simp at hargsSame
  | cons next' args' =>
      use e' :: next' :: args'
      constructor
      · exact .more hwritten comma hargs
      · rw [List.map_cons, hargsSame, hsame]
        rfl

/-- Lexemes with the tokens of lexemes that write a tree write it too, but for
its spans. -/
theorem Written.spells {lexemes : List Lexeme}
    (h : Written levels strength edge lexemes e) :
    Spells levels strength edge (lexemes.map (·.token)) e := by
  induction h using Written.rec (motive_2 := fun levels lexemes args _ =>
    SpellsArgs levels (lexemes.map (·.token)) args) with
  | number h span => exact spells_number h span
  | string value span => exact spells_string value span
  | field name span => exact spells_field name span
  | word name span => exact spells_word name span
  | call function hargs start paren stop ih =>
      simpa using ih.call function (start.join stop)
  | group h start stop ih =>
      have hgroup :=
        ih.group.congr (withoutSpans_withSpan (start.join stop) _).symm
      simpa using hgroup
  | @binary _ _ _ _ _ _ _ _ left right op span hleft hright hedge hchain
      hstrength ihLeft ihRight =>
      simpa using ihLeft.binary ihRight hedge hchain hstrength
        (left.span.join right.span)
  | @unary _ _ _ _ e op start h hstrength ih =>
      simpa using ih.unary hstrength (start.join e.span)
  | none => exact spellsArgs_none
  | one h ih => exact ih.one
  | more h comma hrest ih ihRest => simpa using ih.more ihRest

/-! ## Reading a formula -/

theorem Spells.exists_parse (h : Spells levels strength edge tokens e)
    {source : String} (hread : Token.read source.toList = some tokens)
    {depth : Nat} (hdepth : levels ≤ depth) :
    ∃ e', parseWithin depth source = .ok e' ∧
      e'.withoutSpans = e.withoutSpans := by
  rcases Token.read_eq_some_iff.mp hread with ⟨lexemes, hscan, htokens⟩
  rcases h lexemes htokens with ⟨e', hwritten, hsame⟩
  exact ⟨e', by simp only [parseWithin, hscan, hwritten.ofLexemes_eq hdepth],
    hsame⟩

theorem Spells.outOfLevels (h : Spells levels strength edge tokens e)
    {source : String} (hread : Token.read source.toList = some tokens)
    {depth : Nat} (hdepth : depth < levels) :
    ∃ err, parseWithin depth source = .error (.parse err) ∧
      err.expected = .nestingAtMost depth := by
  rcases Token.read_eq_some_iff.mp hread with ⟨lexemes, hscan, htokens⟩
  rcases h lexemes htokens with ⟨e', hwritten, hsame⟩
  have hout : OutOfLevels depth (ofLexemes source.utf8ByteSize depth lexemes) :=
    hwritten.outOfLevels_ofLexemes hdepth
  rcases hout with ⟨err, hparse, herr⟩
  exact ⟨err, by simp only [parseWithin, hscan, hparse], herr⟩

end

/-- What is read was scanned, and is written by its lexemes within the
levels. -/
theorem exists_written_of_parseWithin {depth : Nat} {source : String} {e : Tree}
    (h : parseWithin depth source = .ok e) :
    ∃ lexemes levels strength edge, Token.scan source = .ok lexemes ∧
      levels ≤ depth ∧ Written levels strength edge lexemes e := by
  unfold parseWithin at h
  split at h
  case h_1 => cases h
  case h_2 lexemes hscan =>
      split at h
      case h_1 => cases h
      case h_2 hparse =>
          cases h
          rcases exists_written_of_ofLexemes hparse with
            ⟨levels, strength, edge, hle, hwritten⟩
          exact ⟨lexemes, levels, strength, edge, hscan, hle, hwritten⟩

end TableQuery.Tree
