import TableQuery.Proofs.Formula.Reading

/-!
# What was read

Every tree that the parser gives is written by the lexemes it was read from, and
every error stands at one of the lexemes or at the end of the formula.
-/

namespace TableQuery.Tree

variable {sourceEnd levels : Nat} {nested : Nested}

/-! ## Outcomes -/

def FailsAt (sourceEnd : Nat) (lexemes : List Lexeme)
    (err : ParseError) : Prop :=
  ∃ rest expected, rest <:+ lexemes ∧ err = errorAt sourceEnd rest expected

/-- What the parser may come to: a tree that is written within the levels by the
lexemes before the remaining ones, which go on with no operator that is still to
be taken in, or an error. -/
def Reads (sourceEnd levels least : Nat) (lexemes : List Lexeme) : Parsed → Prop
  | .ok (e, rest) =>
    ∃ needed strength edge used, needed ≤ levels ∧ lexemes = used ++ rest ∧
      Written needed strength edge used e ∧ least ≤ strength ∧
      Stops least (rest.map (·.token)) ∧ Stops edge (rest.map (·.token))
  | .error err => FailsAt sourceEnd lexemes err

def ReadsNested (sourceEnd levels : Nat) (nested : Nested) : Prop :=
  ∀ least lexemes, least ≤ Precedence.atom →
    Reads sourceEnd levels least lexemes (nested least lexemes)

theorem failsAt_errorAt (lexemes : List Lexeme) (expected : Expected) :
    FailsAt sourceEnd lexemes (errorAt sourceEnd lexemes expected) :=
  ⟨lexemes, expected, List.suffix_refl _, rfl⟩

theorem FailsAt.append {lexemes : List Lexeme} {err : ParseError}
    (h : FailsAt sourceEnd lexemes err) (used : List Lexeme) :
    FailsAt sourceEnd (used ++ lexemes) err := by
  rcases h with ⟨rest, expected, hrest, rfl⟩
  exact ⟨rest, expected, hrest.trans (List.suffix_append _ _), rfl⟩

theorem FailsAt.cons {lexemes : List Lexeme} {err : ParseError}
    (h : FailsAt sourceEnd lexemes err) (lexeme : Lexeme) :
    FailsAt sourceEnd (lexeme :: lexemes) err :=
  h.append [lexeme]

theorem Stops.min {bound bound' : Nat} {next : List Token}
    (h : Stops bound next) (h' : Stops bound' next) :
    Stops (min bound bound') next :=
  fun op hop => Nat.lt_min.mpr ⟨h op hop, h' op hop⟩

theorem reads_atom {needed : Nat} {used rest : List Lexeme} {e : Tree}
    (h : Written needed Precedence.atom (Precedence.atom + 1) used e)
    (hneeded : needed ≤ levels) :
    Reads sourceEnd levels Precedence.atom (used ++ rest) (.ok (e, rest)) :=
  ⟨needed, Precedence.atom, Precedence.atom + 1, used, hneeded, rfl, h,
    Nat.le_refl _, fun op _ => binary_lt_atom op, stops_atom _⟩

theorem closing_cases (sourceEnd : Nat) (lexemes : List Lexeme) :
    (∃ span rest, lexemes = ⟨.rightParen, span⟩ :: rest ∧
      closing sourceEnd lexemes = .ok (span, rest)) ∨
    ∃ err, closing sourceEnd lexemes = .error err ∧
      FailsAt sourceEnd lexemes err := by
  unfold closing
  split
  case h_1 span rest => exact .inl ⟨span, rest, rfl, rfl⟩
  case h_2 => exact .inr ⟨_, rfl, failsAt_errorAt _ _⟩

/-! ## Operands -/

section

variable (hnested : ReadsNested sourceEnd levels nested)

include hnested

theorem written_of_arguments {fuel : Nat} {lexemes rest : List Lexeme}
    {args : List Tree}
    (h : arguments sourceEnd nested fuel lexemes = .ok (args, rest)) :
    args ≠ [] ∧ ∃ needed used, needed ≤ levels ∧ lexemes = used ++ rest ∧
      WrittenArgs needed used args := by
  induction fuel generalizing lexemes args rest with
  | zero => cases h
  | succ fuel ih =>
      have harg := hnested 0 lexemes (Nat.zero_le _)
      rw [arguments] at h
      split at h
      case h_1 => cases h
      case h_2 arg after hparse =>
          rw [hparse] at harg
          rcases harg with ⟨needed, strength, edge, used, hneeded, rfl,
            hwritten, -, -, -⟩
          split at h
          case h_1 comma more =>
              split at h
              case h_1 => cases h
              case h_2 args' rest' hrest =>
                  cases h
                  rcases ih hrest with
                    ⟨hne, restNeeded, restUsed, hrestNeeded, rfl, hargs⟩
                  rcases List.exists_cons_of_ne_nil hne with ⟨next, args, rfl⟩
                  refine ⟨by simp, max needed restNeeded,
                    used ++ ⟨.comma, comma⟩ :: restUsed,
                    Nat.max_le.mpr ⟨hneeded, hrestNeeded⟩, by simp, ?_⟩
                  exact .more hwritten comma hargs
          case h_2 =>
              cases h
              exact ⟨by simp, needed, used, hneeded, rfl, .one hwritten⟩
          case h_3 => cases h

theorem failsAt_of_arguments {fuel : Nat} {lexemes : List Lexeme}
    {err : ParseError}
    (h : arguments sourceEnd nested fuel lexemes = .error err) :
    FailsAt sourceEnd lexemes err := by
  induction fuel generalizing lexemes with
  | zero =>
      cases h
      exact failsAt_errorAt _ _
  | succ fuel ih =>
      have harg := hnested 0 lexemes (Nat.zero_le _)
      rw [arguments] at h
      split at h
      case h_1 err' hparse =>
          rw [hparse] at harg
          cases h
          exact harg
      case h_2 arg after hparse =>
          rw [hparse] at harg
          rcases harg with ⟨needed, strength, edge, used, -, rfl, -, -, -, -⟩
          apply FailsAt.append
          split at h
          case h_1 comma more =>
              apply FailsAt.cons
              split at h
              case h_1 err' hrest =>
                  cases h
                  exact ih hrest
              case h_2 => cases h
          case h_2 => cases h
          case h_3 =>
              cases h
              exact failsAt_errorAt _ _

theorem reads_callOperand (name : String) (start paren : Span)
    (lexemes : List Lexeme) :
    Reads sourceEnd (levels + 1) Precedence.atom
      (⟨.word name, start⟩ :: ⟨.leftParen, paren⟩ :: lexemes)
      (callOperand sourceEnd nested name start lexemes) := by
  unfold callOperand
  split
  case h_1 stop rest =>
      have hwritten := Written.call name .none start paren stop
      exact reads_atom hwritten (Nat.le_add_left 1 levels)
  case h_2 =>
      split
      case h_1 err hargs =>
          exact ((failsAt_of_arguments hnested hargs).cons _).cons _
      case h_2 args after hargs =>
          rcases written_of_arguments hnested hargs with
            ⟨-, needed, used, hneeded, rfl, hwritten⟩
          rcases closing_cases sourceEnd after with
            ⟨stop, rest, rfl, hclosing⟩ | ⟨err, hclosing, herr⟩
          · simp only [hclosing]
            have hcall := Written.call name hwritten start paren stop
            have hreads : Reads sourceEnd _ _ _ (.ok (_, rest)) :=
              reads_atom hcall (Nat.succ_le_succ hneeded)
            simpa using hreads
          · simp only [hclosing]
            exact ((herr.append used).cons _).cons _

theorem reads_prefixOperand (op : UnaryOp) (start : Span)
    (lexemes : List Lexeme) :
    Reads sourceEnd (levels + 1) Precedence.atom
      (⟨.ofUnary op, start⟩ :: lexemes)
      (prefixOperand nested op start lexemes) := by
  have hoperand :=
    hnested op.precedence lexemes (Nat.le_of_lt (unary_lt_atom op))
  unfold prefixOperand
  split
  case h_1 err hparse =>
      rw [hparse] at hoperand
      exact hoperand.cons _
  case h_2 operand rest hparse =>
      rw [hparse] at hoperand
      rcases hoperand with
        ⟨needed, strength, edge, used, hneeded, rfl, hwritten, hstrength,
          hstops, hedge⟩
      exact ⟨needed + 1, Precedence.atom, min op.precedence edge, _ :: used,
        Nat.succ_le_succ hneeded, rfl, .unary op start hwritten hstrength,
        Nat.le_refl _, fun op _ => binary_lt_atom op, hstops.min hedge⟩

theorem reads_operand (lexemes : List Lexeme) :
    Reads sourceEnd (levels + 1) Precedence.atom lexemes
      (operand sourceEnd nested lexemes) := by
  cases lexemes with
  | nil => exact failsAt_errorAt _ _
  | cons lexeme lexemes =>
      rcases lexeme with ⟨token, start⟩
      have hone : 1 ≤ levels + 1 := Nat.le_add_left 1 levels
      cases token with
      | number digits =>
          simp only [operand]
          split
          case h_1 value hvalue => exact reads_atom (.number hvalue start) hone
          case h_2 => exact failsAt_errorAt _ _
      | string value => exact reads_atom (.string value start) hone
      | field name => exact reads_atom (.field name start) hone
      | word name =>
          simp only [operand]
          split
          case h_1 paren inner =>
              exact reads_callOperand hnested name start paren inner
          case h_2 => exact reads_atom (.word name start) hone
      | leftParen =>
          have hinner := hnested 0 lexemes (Nat.zero_le _)
          simp only [operand]
          split
          case h_1 err hparse =>
              rw [hparse] at hinner
              exact hinner.cons _
          case h_2 inner after hparse =>
              rw [hparse] at hinner
              rcases hinner with ⟨needed, strength, edge, used, hneeded, rfl,
                hwritten, -, -, -⟩
              rcases closing_cases sourceEnd after with
                ⟨stop, rest, rfl, hclosing⟩ | ⟨err, hclosing, herr⟩
              · simp only [hclosing]
                have hreads : Reads sourceEnd _ _ _ (.ok (_, rest)) :=
                  reads_atom (.group hwritten start stop)
                    (Nat.succ_le_succ hneeded)
                simpa using hreads
              · simp only [hclosing]
                exact (herr.append used).cons _
      | operator op =>
          cases op with
          | sub => exact reads_prefixOperand hnested .neg start lexemes
          | _ => exact failsAt_errorAt _ _
      | not => exact reads_prefixOperand hnested .not start lexemes
      | _ => exact failsAt_errorAt _ _

/-! ## Operators -/

theorem reads_operators {needed least strength edge fuel : Nat} {left : Tree}
    {afterComparison : Bool} {used lexemes : List Lexeme}
    (hleft : Written needed strength edge used left)
    (hneeded : needed ≤ levels + 1) (hleast : least ≤ strength)
    (hedge : Stops edge (lexemes.map (·.token)))
    (hafter : strength = Precedence.comparison → afterComparison = true)
    (hfuel : lexemes.length ≤ fuel) :
    Reads sourceEnd (levels + 1) least (used ++ lexemes)
      (operators sourceEnd nested least fuel left afterComparison lexemes) := by
  induction fuel generalizing needed strength edge left afterComparison
    used lexemes with
  | zero =>
      have hnil := List.length_eq_zero_iff.mp (Nat.le_zero.mp hfuel)
      exact ⟨needed, strength, edge, used, hneeded, rfl, hleft, hleast,
        by simp [hnil, Stops], hedge⟩
  | succ fuel ih =>
      by_cases hstops : Stops least (lexemes.map (·.token))
      · rw [operators_of_stops hstops]
        exact ⟨needed, strength, edge, used, hneeded, rfl, hleft, hleast,
          hstops, hedge⟩
      · have hop : ∃ op span rest, lexemes = ⟨.operator op, span⟩ :: rest ∧
            least ≤ op.precedence := by
          cases lexemes with
          | nil => exact absurd (by simp [Stops]) hstops
          | cons lexeme rest =>
              rcases lexeme with ⟨token, span⟩
              simp only [Stops, List.map_cons, List.head?_cons,
                Option.some.injEq, not_forall, Nat.not_lt] at hstops
              rcases hstops with ⟨op, rfl, hle⟩
              exact ⟨op, span, rest, rfl, hle⟩
        rcases hop with ⟨op, span, rest, rfl, hle⟩
        have hbinds : op.precedence < edge := hedge op rfl
        have hlt := hleft.edge_le
        simp only [operators, Token.infixOp?, if_neg (Nat.not_lt.mpr hle)]
        split
        case isTrue => exact (failsAt_errorAt _ _).append used
        case isFalse hchained =>
            have hright := hnested (op.precedence + 1) rest (binary_lt_atom op)
            split
            case h_1 err hparse =>
                rw [hparse] at hright
                exact (hright.cons _).append used
            case h_2 right after hparse =>
                rw [hparse] at hright
                rcases hright with ⟨rightNeeded, rightStrength, rightEdge,
                  rightUsed, hrightNeeded, rfl, hwritten, hstrength,
                  hstops', hrightEdge⟩
                have hchain : op.isComparison = true →
                    op.precedence < strength := by
                  intro hcomparison
                  apply Nat.lt_of_le_of_ne (by omega)
                  intro heq
                  rw [isComparison_iff.mp hcomparison] at heq
                  exact hchained (by rw [hcomparison, hafter heq.symm]; rfl)
                have hbinary :=
                  Written.binary op span hleft hwritten hbinds hchain hstrength
                have hreads :=
                  ih hbinary (by omega) hle (hstops'.min hrightEdge)
                    isComparison_iff.mpr (by simp at hfuel; omega)
                simpa using hreads

end

/-! ## Expressions -/

theorem reads_expression {maxDepth least : Nat}
    (hleast : least ≤ Precedence.atom) (lexemes : List Lexeme) :
    Reads sourceEnd levels least lexemes
      (expression sourceEnd maxDepth levels least lexemes) := by
  induction levels generalizing least lexemes with
  | zero => exact failsAt_errorAt _ _
  | succ levels ih =>
      have hnested : ReadsNested sourceEnd levels
          (expression sourceEnd maxDepth levels) :=
        fun least lexemes hleast => ih hleast lexemes
      have hoperand := reads_operand hnested lexemes
      rw [expression]
      split
      case h_1 err hparse =>
          rw [hparse] at hoperand
          exact hoperand
      case h_2 left rest hparse =>
          rw [hparse] at hoperand
          rcases hoperand with
            ⟨needed, strength, edge, used, hneeded, rfl, hwritten,
              hatom, -, hedge⟩
          apply reads_operators hnested hwritten hneeded
            (Nat.le_trans hleast hatom) hedge _ (Nat.le_refl _)
          intro hcomparison
          rw [hcomparison] at hatom
          exact absurd hatom (by decide)

theorem exists_written_of_ofLexemes {maxDepth : Nat} {lexemes : List Lexeme}
    {e : Tree} (h : ofLexemes sourceEnd maxDepth lexemes = .ok e) :
    ∃ needed strength edge, needed ≤ maxDepth ∧
      Written needed strength edge lexemes e := by
  have hreads : Reads sourceEnd maxDepth 0 lexemes
    (expression sourceEnd maxDepth maxDepth 0 lexemes) :=
    reads_expression (Nat.zero_le _) lexemes
  unfold ofLexemes at h
  split at h
  case h_1 => cases h
  case h_2 hparse =>
      cases h
      rw [hparse] at hreads
      rcases hreads with ⟨needed, strength, edge, used, hneeded, hused,
        hwritten, -, -, -⟩
      rw [List.append_nil] at hused
      exact ⟨needed, strength, edge, hneeded, hused ▸ hwritten⟩
  case h_3 => cases h

theorem failsAt_of_ofLexemes {maxDepth : Nat} {lexemes : List Lexeme}
    {err : ParseError} (h : ofLexemes sourceEnd maxDepth lexemes = .error err) :
    FailsAt sourceEnd lexemes err := by
  have hreads : Reads sourceEnd maxDepth 0 lexemes
    (expression sourceEnd maxDepth maxDepth 0 lexemes) :=
    reads_expression (Nat.zero_le _) lexemes
  unfold ofLexemes at h
  split at h
  case h_1 hparse =>
      cases h
      rw [hparse] at hreads
      exact hreads
  case h_2 => cases h
  case h_3 rest _ hparse =>
      cases h
      rw [hparse] at hreads
      rcases hreads with ⟨needed, strength, edge, used, -, rfl, -, -, -, -⟩
      exact (failsAt_errorAt rest _).append used

end TableQuery.Tree
