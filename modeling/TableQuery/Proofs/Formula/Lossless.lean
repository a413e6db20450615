import TableQuery.Proofs.Formula.Scanning
import TableQuery.Proofs.Formula.Slices

/-!
# Scanning loses only white space

A token is read from its own text alone: what comes after it can end it but not
change it.  So the text from the start of one token to the end of a later one
scans to the tokens in between.
-/

namespace TableQuery

def Lexeme.since (offset : Nat) (lexeme : Lexeme) : Lexeme :=
  ⟨lexeme.token, ⟨lexeme.span.start - offset, lexeme.span.stop - offset⟩⟩

@[simp] theorem Lexeme.token_since (offset : Nat) (lexeme : Lexeme) :
    (lexeme.since offset).token = lexeme.token := rfl

/-! ## Texts cut short -/

section

variable {α : Type} {p : α → Bool}

theorem takeWhile_take {l : List α} {k : Nat} (h : (l.takeWhile p).length ≤ k) :
    (l.take k).takeWhile p = l.takeWhile p := by
  induction l generalizing k with
  | nil => simp
  | cons a l ih =>
      cases ha : p a with
      | false => cases k <;> simp [ha]
      | true =>
          rw [List.takeWhile_cons_of_pos ha, List.length_cons] at h
          rcases Nat.exists_eq_add_one.mpr
            (Nat.lt_of_lt_of_le (Nat.succ_pos _) h) with ⟨k, rfl⟩
          simp [ha, ih (Nat.le_of_succ_le_succ h)]

theorem dropWhile_take {l : List α} {k : Nat} (h : (l.takeWhile p).length ≤ k) :
    (l.take k).dropWhile p =
      (l.dropWhile p).take (k - (l.takeWhile p).length) := by
  induction l generalizing k with
  | nil => simp
  | cons a l ih =>
      cases ha : p a with
      | false => cases k <;> simp [ha]
      | true =>
          rw [List.takeWhile_cons_of_pos ha, List.length_cons] at h ⊢
          rcases Nat.exists_eq_add_one.mpr
            (Nat.lt_of_lt_of_le (Nat.succ_pos _) h) with ⟨k, rfl⟩
          simp [ha, ih (Nat.le_of_succ_le_succ h)]

end

namespace Token

def fractionChars : List Char → List Char
  | '.' :: rest => if (rest.takeWhile Char.isDigit).isEmpty then [] else
    '.' :: rest.takeWhile Char.isDigit
  | _ => []

theorem numberChars_eq (cs : List Char) :
    numberChars cs =
      cs.takeWhile Char.isDigit ++
      fractionChars (cs.dropWhile Char.isDigit) := by
  unfold numberChars
  dsimp only
  split
  case h_1 rest hrest =>
      rw [hrest, fractionChars]
      split <;> simp
  case h_2 hrest =>
      unfold fractionChars
      split
      case h_1 rest hpoint => exact absurd hpoint (hrest rest)
      case h_2 => simp

theorem length_fractionChars_le (cs : List Char) :
    (fractionChars cs).length ≤ cs.length := by
  unfold fractionChars
  split
  case h_1 rest =>
      have hdigits :=
        (List.takeWhile_sublist (l := rest) Char.isDigit).length_le
      split
      · simp
      · simpa using hdigits
  case h_2 => simp

theorem length_numberChars_le (cs : List Char) :
    (numberChars cs).length ≤ cs.length := by
  have hfraction := length_fractionChars_le (cs.dropWhile Char.isDigit)
  have hparts := congrArg List.length
    (List.takeWhile_append_dropWhile (p := Char.isDigit) (l := cs))
  rw [List.length_append] at hparts
  rw [numberChars_eq, List.length_append]
  omega

theorem fractionChars_take {cs : List Char} {k : Nat}
    (h : (fractionChars cs).length ≤ k) :
    fractionChars (cs.take k) = fractionChars cs := by
  by_cases hpoint : ∃ rest, cs = '.' :: rest
  · rcases hpoint with ⟨rest, rfl⟩
    cases k with
    | zero =>
        rw [List.length_eq_zero_iff.mp (Nat.le_zero.mp h)]
        rfl
    | succ k =>
        have hrest : (rest.takeWhile Char.isDigit).length ≤ k := by
          cases hdigits : rest.takeWhile Char.isDigit with
          | nil => simp
          | cons d ds => simpa [fractionChars, hdigits] using h
        simp only [List.take_succ_cons, fractionChars, takeWhile_take hrest]
  · cases cs with
    | nil => rw [List.take_nil]
    | cons c rest =>
        have hc : c ≠ '.' := fun hc => hpoint ⟨rest, by rw [hc]⟩
        cases k <;> simp [fractionChars, hc]

theorem numberChars_take {cs : List Char} {k : Nat}
    (h : (numberChars cs).length ≤ k) :
    numberChars (cs.take k) = numberChars cs := by
  rw [numberChars_eq, List.length_append] at h
  have hwhole : (cs.takeWhile Char.isDigit).length ≤ k := by omega
  rw [numberChars_eq, numberChars_eq, takeWhile_take hwhole,
    dropWhile_take hwhole, fractionChars_take (by omega)]

theorem quotedBody_cons {c : Char} (hc : c ≠ '\\') (quote : Char)
    (rest : List Char) :
    quotedBody quote (c :: rest) =
      if c = quote then ⟨[], 1, true⟩
      else ⟨c :: (quotedBody quote rest).value,
        (quotedBody quote rest).length + 1,
        (quotedBody quote rest).closed⟩ := by
  rw [quotedBody]
  · exact fun h _ => hc h
  · exact fun _ _ h _ => hc h

theorem ne_backslash {c : Char} {rest : List Char}
    (hnil : c = '\\' → rest = [] → False)
    (hcons : ∀ d more, c = '\\' → rest = d :: more → False) : c ≠ '\\' := by
  intro hc
  cases rest with
  | nil => exact hnil hc rfl
  | cons d more => exact hcons d more hc rfl

theorem length_quotedBody_le (quote : Char) (cs : List Char) :
    (quotedBody quote cs).length ≤ cs.length := by
  induction cs using quotedBody.induct quote with
  | case1 | case2 => exact Nat.zero_le _
  | case3 c rest ih => simpa [quotedBody] using ih
  | case4 rest hnil hcons => simp [quotedBody_cons (ne_backslash hnil hcons)]
  | case5 c rest hnil hcons hquote ih =>
      simpa [quotedBody_cons (ne_backslash hnil hcons), hquote] using ih

/-- A closed literal is read without what stands behind its quote. -/
theorem quotedBody_take {quote : Char} {cs : List Char} {k : Nat}
    (hclosed : (quotedBody quote cs).closed = true)
    (h : (quotedBody quote cs).length ≤ k) :
    quotedBody quote (cs.take k) = quotedBody quote cs := by
  induction cs using quotedBody.induct quote generalizing k with
  | case1 | case2 => cases hclosed
  | case3 c rest ih =>
      rw [quotedBody] at hclosed h
      rcases Nat.exists_eq_add_of_le' (Nat.le_trans (Nat.le_add_left 2 _) h)
        with ⟨k, rfl⟩
      simp only [List.take_succ_cons, quotedBody,
        ih hclosed (Nat.le_of_add_le_add_right h)]
  | case4 rest hnil hcons =>
      have hquote := ne_backslash hnil hcons
      rw [quotedBody_cons hquote, if_pos rfl] at h ⊢
      rcases Nat.exists_eq_add_of_le' h with ⟨k, rfl⟩
      rw [List.take_succ_cons, quotedBody_cons hquote, if_pos rfl]
  | case5 c rest hnil hcons hquote ih =>
      have hc := ne_backslash hnil hcons
      rw [quotedBody_cons hc, if_neg hquote] at hclosed h ⊢
      rcases Nat.exists_eq_add_of_le' (Nat.le_trans (Nat.le_add_left 1 _) h)
      with ⟨k, rfl⟩
      rw [List.take_succ_cons, quotedBody_cons hc, if_neg hquote,
        ih hclosed (Nat.le_of_add_le_add_right h)]

/-! ## Tokens on their own -/

theorem head_take {c : Char} {rest : List Char} {token : Token} {more k : Nat}
    (h : head c rest = .ok (token, more)) (hk : more ≤ k) :
    more ≤ rest.length ∧ head c (rest.take k) = .ok (token, more) := by
  cases hstart : isWordStart c with
  | true =>
      rw [head_word hstart, Except.ok.injEq, Prod.mk.injEq] at h
      rcases h with ⟨rfl, rfl⟩
      constructor
      · exact (List.takeWhile_sublist _).length_le
      · rw [head_word hstart, takeWhile_take hk]
  | false =>
      unfold head at h ⊢
      rw [if_neg (by simp [hstart])] at h ⊢
      split at h
      case isTrue hdigit =>
          rw [Except.ok.injEq, Prod.mk.injEq] at h
          rcases h with ⟨rfl, rfl⟩
          have hlength := length_numberChars_le (c :: rest)
          have htake : numberChars (c :: rest.take k) =
              numberChars (c :: rest) := by
            rw [← List.take_succ_cons]
            exact numberChars_take (by omega)
          rw [if_pos hdigit, htake]
          rw [List.length_cons] at hlength
          exact ⟨by omega, rfl⟩
      case isFalse hdigit =>
          rw [if_neg hdigit]
          split at h
          case h_1 | h_2 =>
              dsimp only at h ⊢
              split at h
              case isTrue hclosed =>
                  cases h
                  rw [quotedBody_take hclosed hk, if_pos hclosed]
                  exact ⟨length_quotedBody_le _ rest, rfl⟩
              case isFalse => cases h
          case h_3 =>
              dsimp only at h ⊢
              split at h
              case isTrue hlt =>
                  cases h
                  rw [takeWhile_take (Nat.le_of_succ_le hk), List.length_take,
                    if_pos (Nat.lt_min.mpr ⟨hk, hlt⟩)]
                  exact ⟨hlt, rfl⟩
              case isFalse => cases h
          case h_4 =>
              split at h
              case h_1 next =>
                  cases h
                  rcases Nat.exists_eq_add_of_le' hk with ⟨k, rfl⟩
                  simp
              case h_2 => cases h
              case h_3 => cases h
          case h_5 | h_6 =>
              split at h
              case h_1 next =>
                  cases h
                  rcases Nat.exists_eq_add_of_le' hk with ⟨k, rfl⟩
                  simp
              case h_2 hnext =>
                  cases h
                  constructor
                  · exact Nat.zero_le _
                  · split
                    case h_1 next htake =>
                        cases rest with
                        | nil => simp at htake
                        | cons d rest => cases k <;> simp_all
                    case h_2 => rfl
          case h_15 => cases h
          all_goals
            cases h
            exact ⟨Nat.zero_le _, rfl⟩

/-! ## Scanning a text in pieces -/

theorem scanFrom_blank {c : Char} (h : Unicode.isWhiteSpace c = true)
    (position : Nat) (rest : List Char) :
    scanFrom position (c :: rest) = scanFrom (position + c.utf8Size) rest := by
  rw [scanFrom_cons, if_pos h]

theorem scanFrom_token {c : Char} {piece rest : List Char} {token : Token}
    {lexemes : List Lexeme} {position : Nat}
    (hblank : Unicode.isWhiteSpace c = false)
    (hhead : head c (piece ++ rest) = .ok (token, piece.length))
    (hrest : scanFrom (position + byteLength (c :: piece)) rest = .ok lexemes) :
    scanFrom position (c :: (piece ++ rest)) =
      .ok (⟨token, ⟨position, position + byteLength (c :: piece)⟩⟩ ::
        lexemes) := by
  rw [byteLength_cons, ← Nat.add_assoc] at hrest ⊢
  rw [scanFrom_cons, if_neg (by simp [hblank]), hhead]
  simp only [List.take_left, List.drop_left, hrest]

/-- What holds of the empty text, and carries over from the text behind a blank
or a token, holds of every text that can be scanned, with its lexemes. -/
theorem scanFrom_induction {motive : Nat → List Char → List Lexeme → Prop}
    (nil : ∀ position, motive position [] [])
    (blank : ∀ position c rest lexemes, Unicode.isWhiteSpace c = true →
      motive (position + c.utf8Size) rest lexemes →
      motive position (c :: rest) lexemes)
    (token : ∀ position c piece rest token lexemes,
      Unicode.isWhiteSpace c = false →
      head c (piece ++ rest) = .ok (token, piece.length) →
      scanFrom (position + byteLength (c :: piece)) rest = .ok lexemes →
      motive (position + byteLength (c :: piece)) rest lexemes →
      motive position (c :: (piece ++ rest))
        (⟨token, ⟨position, position + byteLength (c :: piece)⟩⟩ :: lexemes))
    {position : Nat} {cs : List Char} {lexemes : List Lexeme}
    (h : scanFrom position cs = .ok lexemes) : motive position cs lexemes := by
  induction hn : cs.length using Nat.strong_induction_on
    generalizing position cs lexemes with
  | _ n ih =>
      cases cs with
      | nil =>
          rw [scanFrom_nil] at h
          cases h
          exact nil position
      | cons c rest =>
          rw [List.length_cons] at hn
          cases hblank : Unicode.isWhiteSpace c with
          | true =>
              rw [scanFrom_blank hblank] at h
              exact blank position c rest lexemes hblank
                (ih rest.length (by omega) h rfl)
          | false =>
              rw [scanFrom_cons, if_neg (by simp [hblank])] at h
              split at h
              case h_1 => cases h
              case h_2 found more hhead =>
                  dsimp only at h
                  split at h
                  case h_1 => cases h
                  case h_2 after hrest =>
                      cases h
                      have hmore := (head_take hhead (Nat.le_refl more)).1
                      have hpiece : (rest.take more).length = more :=
                        List.length_take_of_le hmore
                      have hparts := List.take_append_drop more rest
                      rw [Nat.add_assoc, ← byteLength_cons] at hrest ⊢
                      rw [← hparts, ← hpiece] at hhead
                      have hlength : (rest.drop more).length < n := by
                        rw [List.length_drop]
                        omega
                      have hmotive :=
                        token position c (rest.take more)
                          (rest.drop more) found after
                        hblank (by simpa [hmore] using hhead) hrest
                          (ih _ hlength hrest rfl)
                      rwa [hparts] at hmotive

theorem scanFrom_since {position offset : Nat} {cs : List Char}
    {lexemes : List Lexeme} (h : scanFrom position cs = .ok lexemes)
    (hoffset : offset ≤ position) :
    scanFrom (position - offset) cs = .ok (lexemes.map (·.since offset)) := by
  revert hoffset
  refine scanFrom_induction
    (motive := fun position cs lexemes => offset ≤ position →
      scanFrom (position - offset) cs = .ok (lexemes.map (·.since offset))) ?nil
        ?blank ?token h
  case nil =>
      intro position _
      rw [scanFrom_nil, List.map_nil]
  case blank =>
      intro position c rest lexemes hblank ih hoffset
      rw [scanFrom_blank hblank, ← ih (by omega)]
      congr 1
      omega
  case token =>
      intro position c piece rest token lexemes hblank hhead _ ih hoffset
      have hposition : position - offset + byteLength (c :: piece) =
          position + byteLength (c :: piece) - offset := by omega
      rw [scanFrom_token hblank hhead (hposition ▸ ih (by omega)), hposition]
      rfl

theorem exists_scanFrom_upTo {position : Nat} {cs : List Char}
    {lexemes : List Lexeme} (h : scanFrom position cs = .ok lexemes)
    {between after : List Lexeme} {last : Lexeme}
    (hlexemes : lexemes = between ++ after) (hlast : last ∈ between.getLast?) :
    ∃ text rest, cs = text ++ rest ∧
      position + byteLength text = last.span.stop ∧
      scanFrom position text = .ok between := by
  revert hlexemes hlast
  refine scanFrom_induction
    (motive := fun position cs lexemes => ∀ {between},
      lexemes = between ++ after →
      last ∈ between.getLast? → ∃ text rest, cs = text ++ rest ∧
        position + byteLength text = last.span.stop ∧
        scanFrom position text = .ok between)
    ?nil ?blank ?token h
  case nil =>
      intro position between hlexemes hlast
      rcases List.append_eq_nil_iff.mp hlexemes.symm with ⟨rfl, -⟩
      cases hlast
  case blank =>
      intro position c rest lexemes hblank ih between hlexemes hlast
      rcases ih hlexemes hlast with ⟨text, after, rfl, hstop, hscan⟩
      refine ⟨c :: text, after, rfl, ?_, by rwa [scanFrom_blank hblank]⟩
      rw [byteLength_cons]
      omega
  case token =>
      intro position c piece rest token lexemes hblank hhead _ ih between
        hlexemes hlast
      cases between with
      | nil => cases hlast
      | cons first between =>
          rw [List.cons_append, List.cons.injEq] at hlexemes
          rcases hlexemes with ⟨rfl, hlexemes⟩
          -- The token stands before any text that begins like the one it was
          -- read from.
          have hcut : ∀ text after, rest = text ++ after →
              head c (piece ++ text) = .ok (token, piece.length) := by
            intro text after hrest
            have htake :=
              (head_take (k := piece.length + text.length) hhead (by omega)).2
            rwa [hrest, ← List.append_assoc, ← List.length_append,
              List.take_left] at htake
          cases between with
          | nil =>
              rw [List.getLast?_singleton] at hlast
              cases hlast
              use c :: piece, rest
              have hend : scanFrom (position + byteLength (c :: piece)) [] =
                  .ok [] := by
                rw [scanFrom_nil]
              have hscan := scanFrom_token hblank (hcut [] rest rfl) hend
              rw [List.append_nil] at hscan
              exact ⟨rfl, rfl, hscan⟩
          | cons second between =>
              rw [List.getLast?_cons_cons] at hlast
              rcases ih hlexemes hlast with ⟨text, after, hrest, hstop, hscan⟩
              use c :: (piece ++ text), after
              constructor
              · simp [hrest]
              · constructor
                · rw [← hstop]
                  simp
                  omega
                · exact scanFrom_token hblank (hcut text after hrest) hscan

theorem exists_scanFrom_start {position : Nat} {cs : List Char}
    {lexemes : List Lexeme} (h : scanFrom position cs = .ok lexemes)
    {before after : List Lexeme} {first : Lexeme}
    (hlexemes : lexemes = before ++ first :: after) :
    ∃ skipped rest, cs = skipped ++ rest ∧
      position + byteLength skipped = first.span.start ∧
      scanFrom first.span.start rest = .ok (first :: after) := by
  revert hlexemes
  refine scanFrom_induction
    (motive := fun position cs lexemes => ∀ {before},
      lexemes = before ++ first :: after →
      ∃ skipped rest, cs = skipped ++ rest ∧
        position + byteLength skipped = first.span.start ∧
        scanFrom first.span.start rest = .ok (first :: after)) ?nil
          ?blank ?token h
  case nil =>
      intro position before hlexemes
      simp at hlexemes
  case blank =>
      intro position c rest lexemes hblank ih before hlexemes
      rcases ih hlexemes with ⟨skipped, after, rfl, hstart, hscan⟩
      refine ⟨c :: skipped, after, rfl, ?_, hscan⟩
      rw [byteLength_cons]
      omega
  case token =>
      intro position c piece rest token lexemes hblank hhead hrest ih
        before hlexemes
      cases before with
      | nil =>
          rw [List.nil_append, List.cons.injEq] at hlexemes
          rcases hlexemes with ⟨rfl, rfl⟩
          exact ⟨[], _, rfl, rfl, scanFrom_token hblank hhead hrest⟩
      | cons lexeme before =>
          rw [List.cons_append, List.cons.injEq] at hlexemes
          rcases ih hlexemes.2 with ⟨skipped, after, rfl, hstart, hscan⟩
          use c :: piece ++ skipped, after
          refine ⟨by simp, ?_, hscan⟩
          rw [← hstart]
          simp
          omega

/-- The text from the start of one token to the end of a later one scans to the
tokens between. -/
theorem exists_text_between {source : String}
    {before between after : List Lexeme} {first last : Lexeme}
    (h : scan source = .ok (before ++ between ++ after))
    (hfirst : first ∈ between.head?) (hlast : last ∈ between.getLast?) :
    ∃ text, Span.text? source ⟨first.span.start, last.span.stop⟩ = some text ∧
      scan text = .ok (between.map (·.since first.span.start)) := by
  rcases List.head?_eq_some_iff.mp hfirst with ⟨between, rfl⟩
  rw [List.append_assoc, List.cons_append] at h
  rcases exists_scanFrom_start h rfl with ⟨skipped, cs, hsource, hstart, hscan⟩
  rw [← List.cons_append] at hscan
  rcases exists_scanFrom_upTo hscan rfl hlast with
    ⟨text, rest, rfl, hstop, htext⟩
  use String.ofList text
  constructor
  · refine Span.text?_eq_some_iff.mpr ⟨skipped, rest, ?_, ?_, ?_⟩
    · rw [hsource, String.toList_ofList, List.append_assoc]
    · rw [← hstart]
      omega
    · rw [String.toList_ofList, byteLength_append, ← hstop, ← hstart]
      omega
  · have hsince := scanFrom_since htext (Nat.le_refl _)
    rw [scan, String.toList_ofList]
    rwa [Nat.sub_self] at hsince

/-! ## What scanning skips -/

theorem ordered_of_scanFrom {position : Nat} {cs : List Char}
    {lexemes : List Lexeme} (h : scanFrom position cs = .ok lexemes) :
    (∀ lexeme ∈ lexemes, position ≤ lexeme.span.start ∧
      lexeme.span.start < lexeme.span.stop) ∧
      lexemes.Pairwise (fun a b => a.span.stop ≤ b.span.start) := by
  refine scanFrom_induction
    (motive := fun position _ lexemes => (∀ lexeme ∈ lexemes,
      position ≤ lexeme.span.start ∧ lexeme.span.start < lexeme.span.stop) ∧
      lexemes.Pairwise (fun a b => a.span.stop ≤ b.span.start)) ?nil
        ?blank ?token h
  case nil => simp
  case blank =>
      intro position c rest lexemes _ ih
      refine ⟨fun lexeme hlexeme => ?_, ih.2⟩
      have hspan := ih.1 lexeme hlexeme
      omega
  case token =>
      intro position c piece rest token lexemes _ _ _ ih
      have hpos := c.utf8Size_pos
      rw [byteLength_cons] at ih ⊢
      constructor
      · rw [List.forall_mem_cons]
        constructor
        · dsimp only
          omega
        · intro lexeme hlexeme
          have hspan := ih.1 lexeme hlexeme
          omega
      · rw [List.pairwise_cons]
        exact ⟨fun lexeme hlexeme => (ih.1 lexeme hlexeme).1, ih.2⟩

theorem isWhiteSpace_of_scanFrom {position : Nat} {cs : List Char}
    {lexemes : List Lexeme} (h : scanFrom position cs = .ok lexemes)
    {before after : List Char} {c : Char} (hcs : cs = before ++ c :: after)
    (houtside : ∀ lexeme ∈ lexemes,
      position + byteLength before < lexeme.span.start ∨
      lexeme.span.stop ≤ position + byteLength before) :
      Unicode.isWhiteSpace c = true := by
  revert hcs houtside
  refine scanFrom_induction
    (motive := fun position cs lexemes => ∀ {before},
      cs = before ++ c :: after →
      (∀ lexeme ∈ lexemes, position + byteLength before < lexeme.span.start ∨
        lexeme.span.stop ≤ position + byteLength before) →
        Unicode.isWhiteSpace c = true)
    ?nil ?blank ?token h
  case nil =>
      intro position before hcs
      simp at hcs
  case blank =>
      intro position c' rest lexemes hblank ih before hcs houtside
      cases before with
      | nil =>
          rw [List.nil_append, List.cons.injEq] at hcs
          rwa [← hcs.1]
      | cons c' before =>
          rw [List.cons_append, List.cons.injEq] at hcs
          rcases hcs with ⟨rfl, rfl⟩
          apply ih rfl
          simpa [Nat.add_assoc] using houtside
  case token =>
      intro position c' piece rest token lexemes hblank hhead _ ih
        before hcs houtside
      rw [List.forall_mem_cons] at houtside
      have hbehind : ∀ skipped, before = c' :: piece ++ skipped →
          rest = skipped ++ c :: after → Unicode.isWhiteSpace c = true := by
        rintro skipped rfl hrest
        apply ih hrest
        intro lexeme hlexeme
        have hspan := houtside.2 lexeme hlexeme
        simp only [byteLength_append] at hspan ⊢
        omega
      rw [← List.cons_append, List.append_eq_append_iff] at hcs
      rcases hcs with ⟨skipped, hbefore, hrest⟩ | ⟨inner, hpiece, hrest⟩
      · exact hbehind skipped hbefore hrest
      · cases inner with
        | nil => exact hbehind [] (by simp [hpiece]) hrest.symm
        | cons d inner =>
            -- The character would be inside the token.
            have hpos := d.utf8Size_pos
            have hspan := houtside.1
            simp only [hpiece, byteLength_append, byteLength_cons] at hspan
            omega

/-! ## Losing nothing -/

/-- Tokens are not empty and stand one behind the other, and outside of them
there is white space only.  Each token's text scans to that token, and the text
from one token to a later one scans to the tokens in between. -/
theorem scan_lossless {source : String} {lexemes : List Lexeme}
    (h : scan source = .ok lexemes) :
    (∀ lexeme ∈ lexemes, lexeme.span.start < lexeme.span.stop) ∧
      lexemes.Pairwise (fun a b => a.span.stop ≤ b.span.start) ∧
      (∀ before c after, source.toList = before ++ c :: after →
        (∀ lexeme ∈ lexemes, byteLength before < lexeme.span.start ∨
          lexeme.span.stop ≤ byteLength before) →
          Unicode.isWhiteSpace c = true) ∧
      (∀ lexeme ∈ lexemes, ∃ text, lexeme.span.text? source = some text ∧
        scan text = .ok [lexeme.since lexeme.span.start]) ∧
      ∀ before between after, lexemes = before ++ between ++ after →
        ∀ first ∈ between.head?, ∀ last ∈ between.getLast?, ∃ text,
          Span.text? source ⟨first.span.start, last.span.stop⟩ = some text ∧
            scan text = .ok (between.map (·.since first.span.start)) := by
  rcases ordered_of_scanFrom h with ⟨hspans, hordered⟩
  refine ⟨fun lexeme hlexeme => (hspans lexeme hlexeme).2, hordered, ?blanks,
    ?each, ?between⟩
  case blanks =>
      intro before c after hsource houtside
      apply isWhiteSpace_of_scanFrom h hsource
      simpa using houtside
  case each =>
      intro lexeme hlexeme
      rcases List.append_of_mem hlexeme with ⟨before, after, rfl⟩
      have hbetween : before ++ lexeme :: after =
          before ++ [lexeme] ++ after := by simp
      rw [hbetween] at h
      exact exists_text_between h rfl rfl
  case between =>
      rintro before between after rfl first hfirst last hlast
      exact exists_text_between h hfirst hlast

def titleFilter : String := "[é] <='it\\'s' and 1.5"

def titleFilterLexemes : List Lexeme :=
  [⟨.field "é", ⟨0, 4⟩⟩, ⟨.operator .le, ⟨5, 7⟩⟩, ⟨.string "it's", ⟨7, 14⟩⟩,
    ⟨.operator .and, ⟨15, 18⟩⟩, ⟨.number "1.5", ⟨19, 22⟩⟩]

theorem scan_titleFilter : scan titleFilter = .ok titleFilterLexemes := by
  decide +kernel

theorem scan_lossless_titleFilter :
    scan titleFilter = .ok titleFilterLexemes ∧
      ∃ text, Span.text? titleFilter ⟨5, 18⟩ = some text ∧
        scan text = .ok [⟨.operator .le, ⟨0, 2⟩⟩, ⟨.string "it's", ⟨2, 9⟩⟩,
          ⟨.operator .and, ⟨10, 13⟩⟩] :=
  ⟨scan_titleFilter,
    (scan_lossless scan_titleFilter).2.2.2.2 [⟨.field "é", ⟨0, 4⟩⟩]
      [⟨.operator .le, ⟨5, 7⟩⟩, ⟨.string "it's", ⟨7, 14⟩⟩,
        ⟨.operator .and, ⟨15, 18⟩⟩]
      [⟨.number "1.5", ⟨19, 22⟩⟩] rfl _ rfl _ rfl⟩

end Token

end TableQuery
