import TableQuery.Proofs.Formula.Parsing

/-!
# Formulas read back

Writing a tree and parsing the text gives the tree back, however deep it nests,
once the parser allows for that depth.  The trees that parsing gives can all be
written.
-/

namespace TableQuery.Tree

/-! ## Parsed trees -/

/-- A tree as the parser makes them: it can be written, and no reference is
resolved. -/
def Plain (e : Tree) : Prop := e.Writable ∧ e.unresolved = e

def AllReadable (lexemes : List Lexeme) : Prop :=
  ∀ lexeme ∈ lexemes, lexeme.token.Readable

def GivesPlain (parsed : Parsed) : Prop :=
  ∀ e rest, parsed = .ok (e, rest) → e.Plain ∧ AllReadable rest

variable {sourceEnd : Nat} {nested : Nested}

theorem Plain.withSpan {e : Tree} (h : e.Plain) (span : Span) :
    (e.withSpan span).Plain :=
  ⟨writable_withSpan.mpr h.1, by rw [unresolved_withSpan, h.2]⟩

theorem plain_call {function : String} {args : List Tree} {span : Span}
    (hname : Token.IsName function) (hargs : ∀ arg ∈ args, arg.Plain) :
    (call function args span).Plain := by
  refine ⟨⟨hname, argsWritable_iff.mpr fun arg harg => (hargs arg harg).1⟩, ?_⟩
  rw [unresolved, argsUnresolved_eq_map, List.map_congr_left fun arg harg =>
    (hargs arg harg).2,
    List.map_id']

theorem AllReadable.tail {lexeme : Lexeme} {rest : List Lexeme}
    (h : AllReadable (lexeme :: rest)) : AllReadable rest :=
  fun l hl => h l (List.mem_cons_of_mem lexeme hl)

theorem allReadable_of_closing {lexemes rest : List Lexeme} {span : Span}
    (h : AllReadable lexemes)
    (hclosing : closing sourceEnd lexemes = .ok (span, rest)) :
    AllReadable rest := by
  unfold closing at hclosing
  split at hclosing
  case h_1 =>
      cases hclosing
      exact h.tail
  case h_2 => cases hclosing

theorem plain_of_arguments
    (hnested : ∀ least lexemes, AllReadable lexemes →
      GivesPlain (nested least lexemes))
    {fuel : Nat} {lexemes rest : List Lexeme} {args : List Tree}
    (h : AllReadable lexemes)
    (hargs : arguments sourceEnd nested fuel lexemes = .ok (args, rest)) :
    (∀ arg ∈ args, arg.Plain) ∧ AllReadable rest := by
  induction fuel generalizing lexemes args rest with
  | zero => cases hargs
  | succ fuel ih =>
      rw [arguments] at hargs
      split at hargs
      case h_1 => cases hargs
      case h_2 arg after hparse =>
          obtain ⟨harg, hafter⟩ := hnested 0 lexemes h arg after hparse
          split at hargs
          case h_1 =>
              split at hargs
              case h_1 => cases hargs
              case h_2 args' rest' hrest =>
                  cases hargs
                  obtain ⟨hargs', hrest'⟩ := ih hafter.tail hrest
                  exact ⟨List.forall_mem_cons.mpr ⟨harg, hargs'⟩, hrest'⟩
          case h_2 =>
              cases hargs
              exact ⟨by simpa using harg, hafter⟩
          case h_3 => cases hargs

theorem givesPlain_callOperand
    (hnested : ∀ least lexemes, AllReadable lexemes →
      GivesPlain (nested least lexemes))
    {name : String} (hname : Token.IsName name) (start : Span)
    {lexemes : List Lexeme}
    (h : AllReadable lexemes) :
    GivesPlain (callOperand sourceEnd nested name start lexemes) := by
  intro e rest hparse
  unfold callOperand at hparse
  split at hparse
  case h_1 =>
      cases hparse
      exact ⟨plain_call hname (by simp), h.tail⟩
  case h_2 =>
      split at hparse
      case h_1 => cases hparse
      case h_2 args after hargs =>
          obtain ⟨hplain, hafter⟩ := plain_of_arguments hnested h hargs
          split at hparse
          case h_1 => cases hparse
          case h_2 stop rest' hclosing =>
              cases hparse
              exact ⟨plain_call hname hplain,
                allReadable_of_closing hafter hclosing⟩

theorem givesPlain_prefixOperand
    (hnested : ∀ least lexemes, AllReadable lexemes →
      GivesPlain (nested least lexemes))
    (op : UnaryOp) (start : Span) {lexemes : List Lexeme}
    (h : AllReadable lexemes) :
    GivesPlain (prefixOperand nested op start lexemes) := by
  intro e rest hparse
  unfold prefixOperand at hparse
  split at hparse
  case h_1 => cases hparse
  case h_2 operand after hoperand =>
      cases hparse
      obtain ⟨hplain, hafter⟩ :=
        hnested op.precedence lexemes h operand rest hoperand
      exact ⟨⟨hplain.1, congrArg (unary op · _) hplain.2⟩, hafter⟩

theorem givesPlain_operand
    (hnested : ∀ least lexemes, AllReadable lexemes →
      GivesPlain (nested least lexemes))
    {lexemes : List Lexeme} (h : AllReadable lexemes) :
    GivesPlain (operand sourceEnd nested lexemes) := by
  intro e rest hparse
  cases lexemes with
  | nil => cases hparse
  | cons lexeme lexemes =>
      obtain ⟨token, start⟩ := lexeme
      have htoken : token.Readable := h ⟨token, start⟩ List.mem_cons_self
      have hrest := h.tail
      cases token with
      | number digits =>
          simp only [operand] at hparse
          split at hparse
          case h_1 value hvalue =>
              cases hparse
              exact ⟨⟨Decimal.negative_of_ofString? htoken hvalue, rfl⟩, hrest⟩
          case h_2 => cases hparse
      | string value =>
          cases hparse
          exact ⟨⟨trivial, rfl⟩, hrest⟩
      | field name =>
          cases hparse
          exact ⟨⟨htoken, rfl⟩, hrest⟩
      | word name =>
          simp only [operand] at hparse
          split at hparse
          case h_1 =>
              exact givesPlain_callOperand hnested htoken start hrest.tail e
                rest hparse
          case h_2 =>
              cases hparse
              exact ⟨⟨Token.IsName.not_mem_closingBracket htoken, rfl⟩, hrest⟩
      | leftParen =>
          simp only [operand] at hparse
          split at hparse
          case h_1 => cases hparse
          case h_2 inner after hinner =>
              obtain ⟨hplain, hafter⟩ :=
                hnested 0 lexemes hrest inner after hinner
              split at hparse
              case h_1 => cases hparse
              case h_2 stop rest' hclosing =>
                  cases hparse
                  exact ⟨hplain.withSpan _,
                    allReadable_of_closing hafter hclosing⟩
      | operator op =>
          cases op with
          | sub =>
              exact givesPlain_prefixOperand hnested .neg start
                hrest e rest hparse
          | _ => cases hparse
      | not =>
          exact givesPlain_prefixOperand hnested .not start hrest e rest hparse
      | _ => cases hparse

theorem givesPlain_operators
    (hnested : ∀ least lexemes, AllReadable lexemes →
      GivesPlain (nested least lexemes))
    {least fuel : Nat} {left : Tree} (hleft : left.Plain)
    {afterComparison : Bool}
    {lexemes : List Lexeme} (h : AllReadable lexemes) :
    GivesPlain (operators sourceEnd nested least fuel left afterComparison
      lexemes) := by
  induction fuel generalizing left afterComparison lexemes with
  | zero =>
      intro e rest hparse
      cases hparse
      exact ⟨hleft, h⟩
  | succ fuel ih =>
      intro e rest hparse
      cases lexemes with
      | nil =>
          cases hparse
          exact ⟨hleft, h⟩
      | cons lexeme lexemes =>
          obtain ⟨token, span⟩ := lexeme
          rw [operators] at hparse
          split at hparse
          case h_1 =>
              cases hparse
              exact ⟨hleft, h⟩
          case h_2 op _ =>
              split at hparse
              case isTrue =>
                  cases hparse
                  exact ⟨hleft, h⟩
              case isFalse =>
                  split at hparse
                  case isTrue => cases hparse
                  case isFalse =>
                      split at hparse
                      case h_1 => cases hparse
                      case h_2 right after hright =>
                          obtain ⟨hplain, hafter⟩ :=
                            hnested _ _ h.tail right after hright
                          have hbinary : (binary op left right
                              (left.span.join right.span)).Plain :=
                            ⟨⟨hleft.1, hplain.1⟩,
                              by rw [unresolved, hleft.2, hplain.2]⟩
                          exact ih hbinary hafter e rest hparse

theorem givesPlain_expression {maxDepth levels least : Nat}
    {lexemes : List Lexeme} (h : AllReadable lexemes) :
    GivesPlain (expression sourceEnd maxDepth levels least lexemes) := by
  induction levels generalizing least lexemes with
  | zero =>
      intro e rest hparse
      cases hparse
  | succ levels ih =>
      intro e rest hparse
      have hnested : ∀ least lexemes, AllReadable lexemes →
          GivesPlain (expression sourceEnd maxDepth levels least lexemes) :=
        fun least lexemes h => ih h
      rw [expression] at hparse
      split at hparse
      case h_1 => cases hparse
      case h_2 left after hoperand =>
          obtain ⟨hplain, hafter⟩ :=
            givesPlain_operand hnested h left after hoperand
          exact givesPlain_operators hnested hplain hafter e rest hparse

theorem plain_of_parseWithin {depth : Nat} {source : String} {e : Tree}
    (h : parseWithin depth source = .ok e) : e.Plain := by
  unfold parseWithin at h
  split at h
  case h_1 => cases h
  case h_2 lexemes hscan =>
      have hread := Token.read_eq_some_iff.mpr ⟨lexemes, hscan, rfl⟩
      have hreadable : AllReadable lexemes := fun lexeme hlexeme =>
        Token.readable_of_read hread _ (List.mem_map_of_mem hlexeme)
      split at h
      case h_1 => cases h
      case h_2 tree hparse =>
          cases h
          unfold ofLexemes at hparse
          split at hparse
          case h_1 => cases hparse
          case h_2 hexpression =>
              cases hparse
              exact (givesPlain_expression hreadable e [] hexpression).1
          case h_3 => cases hparse

/-! ## Written trees -/

theorem parseWithin_render {e : Tree} (h : e.Writable) {depth : Nat}
    (hdepth : e.levels ≤ depth) :
    ∃ e', parseWithin depth e.render = .ok e' ∧
      e'.withoutSpans = e.unresolved.withoutSpans := by
  obtain ⟨lexemes, hscan, htokens⟩ := exists_scan_render h
  have hreadable : Readable e.render.utf8ByteSize depth e :=
    readable_of_writable h
  have hall : lexemes.map (·.token) = e.tokens ++ [] := by
    rw [htokens, List.append_nil]
  obtain ⟨e', rest, hparse, hsame, hrest⟩ :=
    hreadable.parses hdepth (Nat.zero_le _) (by simp [Stops]) hall
  rw [List.map_eq_nil_iff] at hrest
  subst hrest
  exact ⟨e', by simp only [parseWithin, hscan, ofLexemes, hparse], hsame⟩

/-- Parsing a written tree at any depth that is large enough gives the tree
back, but for spans and for the columns that its references were resolved to.
Every tree that parsing gives can be written, and has no resolved references to
lose. -/
theorem parse_render :
    (∀ e : Tree, e.Writable → ∃ n, ∀ depth, n ≤ depth →
      ∃ e', parseWithin depth e.render = .ok e' ∧ e'.same e.unresolved = true) ∧
    (∀ depth source e, parseWithin depth source = .ok e →
      e.unresolved = e ∧ ∃ n, ∀ depth, n ≤ depth →
        ∃ e', parseWithin depth e.render = .ok e' ∧ e'.same e = true) := by
  have hwritten : ∀ e : Tree, e.Writable → ∃ n, ∀ depth, n ≤ depth →
      ∃ e', parseWithin depth e.render = .ok e' ∧
      e'.same e.unresolved = true := by
    intro e h
    refine ⟨e.levels, fun depth hdepth => ?_⟩
    obtain ⟨e', hparse, hsame⟩ := parseWithin_render h hdepth
    exact ⟨e', hparse, same_of_withoutSpans_eq hsame⟩
  refine ⟨hwritten, fun depth source e h => ?_⟩
  obtain ⟨hwritable, hunresolved⟩ := plain_of_parseWithin h
  have hparsed := hwritten e hwritable
  rw [hunresolved] at hparsed
  exact ⟨hunresolved, hparsed⟩

theorem parse_render_max :
    Token.IsName "Max" ∧ ∃ n, ∀ depth, n ≤ depth →
      ∃ e', parseWithin depth
        (call "Max" [binary .sub (number (Decimal.ofNat 1) ⟨0, 0⟩)
          (unary .neg (reference "A" none ⟨0, 0⟩) ⟨0, 0⟩) ⟨0, 0⟩]
          ⟨0, 0⟩).render = .ok e' ∧
        e'.same (call "Max" [binary .sub (number (Decimal.ofNat 1) ⟨0, 0⟩)
          (unary .neg (reference "A" none ⟨0, 0⟩) ⟨0, 0⟩) ⟨0, 0⟩] ⟨0, 0⟩) =
          true := by
  have hmax : Token.IsName "Max" := by
    have hword :=
      @Token.read_cons 'M' ['a', 'x'] (.word "Max") 2 (by decide) rfl
    rw [List.drop_eq_nil_of_le (Nat.le_refl 2), Token.read_nil] at hword
    exact hword
  have hname : ']' ∉ "A".toList := by decide
  exact ⟨hmax, parse_render.1 _ ⟨hmax, ⟨rfl, hname⟩, trivial⟩⟩

end TableQuery.Tree
