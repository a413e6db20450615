import TableQuery.Formula.Token.Lexer
import TableQuery.Formula.Tree.Printer
import TableQuery.Proofs.Decimal.Text

/-!
# Tokens of written formulas

Scanning the text of a tree gives back its tokens.  Each piece of the text is
read on its own, because none can be taken for a longer one: what follows it
ends it.
-/

namespace TableQuery

namespace Token

-- The equations that `rw [scanFrom]` would use take long to derive.
theorem scanFrom_nil (position : Nat) : scanFrom position [] = .ok [] :=
  scanFrom.eq_def position []

theorem scanFrom_cons (position : Nat) (c : Char) (rest : List Char) :
    scanFrom position (c :: rest) =
      if Unicode.isWhiteSpace c then scanFrom (position + c.utf8Size) rest
      else
        match head c rest with
        | .error stuck =>
          let start := position + byteLength ((c :: rest).take stuck.skipped)
          let stop :=
            start + byteLength
              (((c :: rest).drop stuck.skipped).take stuck.width)
          .error ⟨stuck.fault, ⟨start, stop⟩⟩
        | .ok (token, more) =>
          let stop := position + c.utf8Size + byteLength (rest.take more)
          match scanFrom stop (rest.drop more) with
          | .error e => .error e
          | .ok lexemes => .ok (⟨token, ⟨position, stop⟩⟩ :: lexemes) :=
  scanFrom.eq_def position (c :: rest)

/-! ## Scanning without positions -/

def tokens? : Except LexError (List Lexeme) → Option (List Token)
  | .ok lexemes => some (lexemes.map (·.token))
  | .error _ => none

def read (cs : List Char) : Option (List Token) := tokens? (scanFrom 0 cs)

theorem tokens?_scanFrom (position : Nat) (cs : List Char) :
    tokens? (scanFrom position cs) = read cs := by
  suffices h : ∀ n, ∀ p q cs, cs.length ≤ n →
      tokens? (scanFrom p cs) = tokens? (scanFrom q cs) from h _ position 0 cs
        (Nat.le_refl _)
  intro n
  induction n with
  | zero =>
      intro p q cs hcs
      rw [List.length_eq_zero_iff.mp (Nat.le_zero.mp hcs), scanFrom_nil,
        scanFrom_nil]
  | succ n ih =>
      intro p q cs hcs
      cases cs with
      | nil => rw [scanFrom_nil, scanFrom_nil]
      | cons c rest =>
          rw [List.length_cons] at hcs
          rw [scanFrom_cons, scanFrom_cons]
          split
          case isTrue => exact ih _ _ rest (by omega)
          case isFalse =>
              cases head c rest with
              | error stuck => rfl
              | ok result =>
                  obtain ⟨token, more⟩ := result
                  have hrest :=
                    ih (p + c.utf8Size + byteLength (rest.take more))
                      (q + c.utf8Size + byteLength (rest.take more))
                      (rest.drop more)
                      (by rw [List.length_drop]; omega)
                  dsimp only
                  revert hrest
                  cases scanFrom (p + c.utf8Size + byteLength (rest.take more))
                      (rest.drop more) <;>
                    cases scanFrom
                      (q + c.utf8Size + byteLength (rest.take more))
                      (rest.drop more) <;>
                    simp_all [tokens?]

@[simp] theorem read_nil : read [] = some [] := by
  rw [read, scanFrom_nil]
  rfl

theorem read_blank {c : Char} (h : Unicode.isWhiteSpace c = true)
    (rest : List Char) : read (c :: rest) = read rest := by
  rw [read, scanFrom_cons, if_pos h, tokens?_scanFrom]

theorem read_cons {c : Char} {rest : List Char} {token : Token} {more : Nat}
    (hblank : Unicode.isWhiteSpace c = false)
    (hhead : head c rest = .ok (token, more)) :
    read (c :: rest) = (read (rest.drop more)).map (token :: ·) := by
  rw [read, scanFrom_cons, if_neg (by simp [hblank]), hhead]
  dsimp only
  rw [← tokens?_scanFrom (0 + c.utf8Size + byteLength (rest.take more))
    (rest.drop more)]
  cases scanFrom (0 + c.utf8Size + byteLength (rest.take more))
      (rest.drop more) <;> rfl

theorem read_stuck {c : Char} {rest : List Char} {stuck : Stuck}
    (hblank : Unicode.isWhiteSpace c = false)
    (hhead : head c rest = .error stuck) : read (c :: rest) = none := by
  rw [read, scanFrom_cons, if_neg (by simp [hblank]), hhead]
  rfl

theorem read_eq_some_iff {source : String} {tokens : List Token} :
    read source.toList = some tokens ↔
      ∃ lexemes, scan source = .ok lexemes ∧
      lexemes.map (·.token) = tokens := by
  rw [read, scan]
  cases scanFrom 0 source.toList <;> simp [tokens?]

/-- What holds of the empty text, and carries over from the text behind a blank
or a token, holds of every text that can be scanned. -/
theorem read_induction {motive : List Char → List Token → Prop}
    (nil : motive [] [])
    (blank : ∀ c rest tokens, Unicode.isWhiteSpace c = true →
      motive rest tokens → motive (c :: rest) tokens)
    (token : ∀ c rest token more tokens, Unicode.isWhiteSpace c = false →
      head c rest = .ok (token, more) → motive (rest.drop more) tokens →
      motive (c :: rest) (token :: tokens))
    {cs : List Char} {tokens : List Token} (h : read cs = some tokens) :
      motive cs tokens := by
  induction hn : cs.length using Nat.strong_induction_on
    generalizing cs tokens with
  | _ n ih =>
      cases cs with
      | nil =>
          rw [read_nil] at h
          cases h
          exact nil
      | cons c rest =>
          rw [List.length_cons] at hn
          cases hblank : Unicode.isWhiteSpace c with
          | true =>
              rw [read_blank hblank] at h
              exact blank c rest tokens hblank (ih rest.length (by omega) h rfl)
          | false =>
              cases hhead : head c rest with
              | error stuck =>
                  rw [read_stuck hblank hhead] at h
                  cases h
              | ok result =>
                  rw [read_cons hblank hhead, Option.map_eq_some_iff] at h
                  obtain ⟨tokens, hrest, rfl⟩ := h
                  have hlength : (rest.drop result.2).length < n := by
                    rw [List.length_drop]
                    omega
                  exact token c rest result.1 result.2 tokens hblank hhead
                    (ih _ hlength hrest rfl)

/-! ## Names -/

def IsName (name : String) : Prop := read name.toList = some [word name]

theorem head_word {c : Char} (h : isWordStart c = true) (rest : List Char) :
    head c rest =
      .ok (ofWord (c :: rest.takeWhile Unicode.isIdentifierContinue),
        (rest.takeWhile Unicode.isIdentifierContinue).length) := by
  unfold head
  rw [if_pos h]

theorem toList_of_ofWord_eq_word {cs : List Char} {name : String}
    (h : ofWord cs = word name) : name.toList = cs := by
  unfold ofWord at h
  split at h <;> cases h
  exact String.toList_ofList

theorem isWordStart_of_head_eq_word {c : Char} {rest : List Char}
    {name : String} {more : Nat} (h : head c rest = .ok (word name, more)) :
    isWordStart c = true := by
  by_contra hstart
  unfold head at h
  rw [if_neg hstart] at h
  split at h
  case isTrue => simp at h
  case isFalse =>
      split at h
      case h_1 | h_2 | h_3 =>
          dsimp only at h
          split at h <;> simp at h
      all_goals first
        | (split at h <;> simp at h)
        | simp at h

theorem toList_of_head_eq_word {c : Char} {rest : List Char} {name : String}
    {more : Nat} (h : head c rest = .ok (word name, more)) :
    name.toList = c :: rest.takeWhile Unicode.isIdentifierContinue := by
  rw [head_word (isWordStart_of_head_eq_word h), Except.ok.injEq,
    Prod.mk.injEq] at h
  exact toList_of_ofWord_eq_word h.1

theorem length_le_of_read {cs : List Char} {tokens : List Token}
    (h : read cs = some tokens) :
    ∀ name, word name ∈ tokens → name.toList.length ≤ cs.length := by
  refine read_induction
    (motive := fun cs tokens => ∀ name, word name ∈ tokens →
      name.toList.length ≤ cs.length)
    ?nil ?blank ?token h
  case nil => simp
  case blank =>
      intro c rest tokens _ ih name hname
      exact Nat.le_succ_of_le (ih name hname)
  case token =>
      intro c rest token more tokens _ hhead ih name hname
      rw [List.length_cons]
      obtain rfl | hname := List.mem_cons.mp hname
      · rw [toList_of_head_eq_word hhead, List.length_cons]
        exact Nat.succ_le_succ (List.takeWhile_sublist _).length_le
      · have hrest := ih name hname
        rw [List.length_drop] at hrest
        omega

theorem IsName.exists_cons {name : String} (h : IsName name) :
    ∃ c cs, name.toList = c :: cs ∧ Unicode.isWhiteSpace c = false ∧
      isWordStart c = true ∧
      (∀ c' ∈ cs, Unicode.isIdentifierContinue c' = true) ∧
      ofWord (c :: cs) = word name := by
  unfold IsName at h
  cases hcs : name.toList with
  | nil =>
      rw [hcs, read_nil] at h
      cases h
  | cons c cs =>
      rw [hcs] at h
      cases hblank : Unicode.isWhiteSpace c with
      | true =>
          rw [read_blank hblank] at h
          have hlength := length_le_of_read h name List.mem_cons_self
          rw [hcs, List.length_cons] at hlength
          omega
      | false =>
          cases hhead : head c cs with
          | error stuck =>
              rw [read_stuck hblank hhead] at h
              cases h
          | ok result =>
              rw [read_cons hblank hhead, Option.map_eq_some_iff] at h
              obtain ⟨tokens, -, htokens⟩ := h
              obtain ⟨hword, -⟩ := List.cons.inj htokens
              rw [show result = (word name, result.2) from Prod.ext hword rfl]
                at hhead
              have hstart := isWordStart_of_head_eq_word hhead
              have hname := toList_of_head_eq_word hhead
              rw [hcs, List.cons.injEq] at hname
              rw [head_word hstart, ← hname.2, Except.ok.injEq, Prod.mk.injEq]
                at hhead
              refine ⟨c, cs, rfl, hblank, hstart, fun c' hc' => ?_, hhead.1⟩
              rw [hname.2] at hc'
              exact List.mem_takeWhile_imp hc'

theorem IsName.not_mem_closingBracket {name : String} (h : IsName name) :
    ']' ∉ name.toList := by
  obtain ⟨c, cs, hcs, -, hstart, hcontinue, -⟩ := h.exists_cons
  rw [hcs, List.mem_cons]
  rintro (rfl | hmem)
  · exact absurd hstart (by decide)
  · exact absurd (hcontinue _ hmem) (by decide)

/-! ## Tokens that can be written -/

/-- What scanning promises of the text in a token. -/
def Readable : Token → Prop
  | number digits => ∃ c cs, digits.toList = c :: cs ∧ c.isDigit = true
  | word name => IsName name
  | field name => ']' ∉ name.toList
  | _ => True

theorem readable_ofWord {c : Char} {cs : List Char}
    (hblank : Unicode.isWhiteSpace c = false) (hstart : isWordStart c = true)
    (hcontinue : cs.takeWhile Unicode.isIdentifierContinue = cs) :
    Readable (ofWord (c :: cs)) := by
  have hread := read_cons hblank (head_word hstart cs)
  rw [hcontinue, List.drop_length, read_nil] at hread
  cases hword : ofWord (c :: cs) with
  | word name =>
      rw [hword] at hread
      rw [Readable, IsName, toList_of_ofWord_eq_word hword, hread]
      rfl
  | number | field =>
      unfold ofWord at hword
      split at hword <;> cases hword
  | _ => trivial

theorem numberChars_cons {c : Char} (h : c.isDigit = true) (rest : List Char) :
    ∃ cs, numberChars (c :: rest) = c :: cs := by
  unfold numberChars
  rw [List.takeWhile_cons_of_pos h]
  dsimp only
  split
  case h_1 =>
      split
      · exact ⟨_, rfl⟩
      · exact ⟨_, rfl⟩
  case h_2 => exact ⟨_, rfl⟩

theorem readable_of_head {c : Char} {rest : List Char} {token : Token}
    {more : Nat} (hblank : Unicode.isWhiteSpace c = false)
    (h : head c rest = .ok (token, more)) :
    token.Readable := by
  cases hstart : isWordStart c with
  | true =>
      rw [head_word hstart, Except.ok.injEq, Prod.mk.injEq] at h
      rw [← h.1]
      exact readable_ofWord hblank hstart List.takeWhile_idem
  | false =>
      unfold head at h
      rw [if_neg (by simp [hstart])] at h
      split at h
      case isTrue hdigit =>
          cases h
          obtain ⟨cs, hcs⟩ := numberChars_cons hdigit rest
          exact ⟨c, cs, by rw [String.toList_ofList, hcs], hdigit⟩
      case isFalse =>
          split at h
          case h_1 | h_2 =>
              dsimp only at h
              split at h <;> cases h
              trivial
          case h_3 =>
              dsimp only at h
              split at h <;> cases h
              rw [Readable, String.toList_ofList]
              intro hmem
              simpa using List.mem_takeWhile_imp hmem
          all_goals first
            | (split at h <;> cases h <;> trivial)
            | (cases h <;> trivial)

theorem readable_of_read {cs : List Char} {tokens : List Token}
    (h : read cs = some tokens) : ∀ token ∈ tokens, token.Readable := by
  refine read_induction
    (motive := fun _ tokens => ∀ token ∈ tokens, token.Readable)
    ?nil ?blank ?token h
  case nil => simp
  case blank => exact fun _ _ _ _ ih => ih
  case token =>
      intro c rest token more tokens hblank hhead ih
      exact List.forall_mem_cons.mpr ⟨readable_of_head hblank hhead, ih⟩

end Token

/-! ## Texts that end a token -/

/-- Nothing follows, or a character that none of the tokens before it could take
up. -/
def Ends (rest : List Char) : Prop :=
  ∀ c ∈ rest.head?, c = ' ' ∨ c = ')' ∨ c = ','

namespace Token

theorem read_blank_cons (rest : List Char) : read (' ' :: rest) = read rest :=
  read_blank (by decide) rest

theorem read_leftParen (rest : List Char) :
    read ('(' :: rest) = (read rest).map (leftParen :: ·) :=
  @read_cons _ rest leftParen 0 (by decide) rfl

theorem read_rightParen (rest : List Char) :
    read (')' :: rest) = (read rest).map (rightParen :: ·) :=
  @read_cons _ rest rightParen 0 (by decide) rfl

theorem read_comma (rest : List Char) :
    read (',' :: rest) = (read rest).map (comma :: ·) :=
  @read_cons _ rest comma 0 (by decide) rfl

theorem read_before_blank {c : Char} {cs : List Char} {token : Token}
    {rest : List Char} (hblank : Unicode.isWhiteSpace c = false)
    (hhead : head c (cs ++ ' ' :: rest) = .ok (token, cs.length)) :
    read (c :: cs ++ ' ' :: rest) = (read rest).map (token :: ·) := by
  rw [List.cons_append, read_cons hblank hhead, List.drop_left, read_blank_cons]

theorem head_word_append {c next : Char} {cs : List Char}
    (hstart : isWordStart c = true)
    (hcontinue : cs.all Unicode.isIdentifierContinue = true)
    (hnext : Unicode.isIdentifierContinue next = false) (rest : List Char) :
    head c (cs ++ next :: rest) = .ok (ofWord (c :: cs), cs.length) := by
  have hends : ∀ c' ∈ (next :: rest).head?, Unicode.isIdentifierContinue c' =
      false := by
    intro c' hc'
    cases hc'
    exact hnext
  rw [head_word hstart,
    takeWhile_append_of_head? (List.all_eq_true.mp hcontinue) hends]

theorem read_infix (op : BinaryOp) (rest : List Char) :
    read (op.symbol.toList ++ ' ' :: rest) =
      (read rest).map (operator op :: ·) := by
  cases op with
  | add => exact @read_before_blank '+' [] (operator .add) rest (by decide) rfl
  | sub => exact @read_before_blank '-' [] (operator .sub) rest (by decide) rfl
  | mul => exact @read_before_blank '*' [] (operator .mul) rest (by decide) rfl
  | div => exact @read_before_blank '/' [] (operator .div) rest (by decide) rfl
  | eq => exact @read_before_blank '=' [] (operator .eq) rest (by decide) rfl
  | ne => exact @read_before_blank '!' ['='] (operator .ne) rest (by decide) rfl
  | lt => exact @read_before_blank '<' [] (operator .lt) rest (by decide) rfl
  | gt => exact @read_before_blank '>' [] (operator .gt) rest (by decide) rfl
  | le => exact @read_before_blank '<' ['='] (operator .le) rest (by decide) rfl
  | ge => exact @read_before_blank '>' ['='] (operator .ge) rest (by decide) rfl
  | and =>
      exact @read_before_blank 'A' ['N', 'D'] (operator .and) rest (by decide)
        (head_word_append (by decide) (by decide) (by decide) rest)
  | or =>
      exact @read_before_blank 'O' ['R'] (operator .or) rest (by decide)
        (head_word_append (by decide) (by decide) (by decide) rest)

def ofUnary : UnaryOp → Token
  | .neg => operator .sub
  | .not => not

theorem read_prefix (op : UnaryOp) (rest : List Char) :
    read (op.symbol.toList ++ rest) = (read rest).map (ofUnary op :: ·) := by
  cases op with
  | neg => exact @read_cons '-' rest (operator .sub) 0 (by decide) rfl
  | not =>
      exact @read_before_blank 'N' ['O', 'T'] not rest (by decide)
        (head_word_append (by decide) (by decide) (by decide) rest)

theorem quotedBody_literalChar (c : Char) (rest : List Char) :
    quotedBody '"' (Tree.literalChar c ++ rest) =
      ⟨c :: (quotedBody '"' rest).value,
        (quotedBody '"' rest).length + (Tree.literalChar c).length,
        (quotedBody '"' rest).closed⟩ := by
  unfold Tree.literalChar
  split
  case h_6 hquote hslash _ _ _ =>
      rw [List.singleton_append, quotedBody, if_neg hquote]
      · rfl
      · exact fun h => absurd h hslash
      · exact fun _ _ h => absurd h hslash
  all_goals rfl

theorem quotedBody_literal (cs rest : List Char) :
    quotedBody '"' (cs.flatMap Tree.literalChar ++ '"' :: rest) =
      ⟨cs, (cs.flatMap Tree.literalChar).length + 1, true⟩ := by
  induction cs with
  | nil => rfl
  | cons c cs ih =>
      rw [List.flatMap_cons, List.append_assoc, quotedBody_literalChar, ih,
        List.length_append]
      simp only [QuotedBody.mk.injEq, true_and, and_true]
      omega

theorem read_string (s : String) (rest : List Char) :
    read (Tree.literalChars s ++ rest) = (read rest).map (string s :: ·) := by
  have hbody := quotedBody_literal s.toList rest
  have hhead : head '"' (s.toList.flatMap Tree.literalChar ++ '"' :: rest) =
      .ok (string s, (s.toList.flatMap Tree.literalChar).length + 1) := by
    have hquote : head '"' (s.toList.flatMap Tree.literalChar ++ '"' :: rest) =
        let body :=
          quotedBody '"' (s.toList.flatMap Tree.literalChar ++ '"' :: rest)
        if body.closed then .ok (string (String.ofList body.value), body.length)
        else .error ⟨.unterminatedString, 0, body.length + 1⟩ := rfl
    rw [hquote, hbody]
    simp
  rw [Tree.literalChars, List.append_assoc, List.cons_append,
    List.singleton_append, read_cons (by decide) hhead, ← List.drop_drop,
    List.drop_left]
  rfl

theorem read_field {name : String} (h : ']' ∉ name.toList) (rest : List Char) :
    read ('[' :: name.toList ++ ']' :: rest) =
      (read rest).map (field name :: ·) := by
  have hname : (name.toList ++ ']' :: rest).takeWhile (· != ']') =
      name.toList := by
    refine takeWhile_append_of_head? (fun c hc => ?_) (fun c hc => ?_)
    · simpa using fun hbracket : c = ']' => h (hbracket ▸ hc)
    · cases hc
      rfl
  have hhead : head '[' (name.toList ++ ']' :: rest) =
      .ok (field name, name.toList.length + 1) := by
    have hbracket : head '[' (name.toList ++ ']' :: rest) =
        let found := (name.toList ++ ']' :: rest).takeWhile (· != ']')
        if found.length < (name.toList ++ ']' :: rest).length then
          .ok (field (String.ofList found), found.length + 1)
        else .error ⟨.unterminatedReference, 0, found.length + 1⟩ := rfl
    rw [hbracket, hname]
    simp
  rw [List.cons_append, read_cons (by decide) hhead, ← List.drop_drop,
    List.drop_left]
  rfl

theorem read_name {name : String} (h : IsName name) (rest : List Char) :
    read (name.toList ++ '(' :: rest) =
      (read rest).map (word name :: leftParen :: ·) := by
  obtain ⟨c, cs, hcs, hblank, hstart, hcontinue, hword⟩ := h.exists_cons
  have hhead : head c (cs ++ '(' :: rest) = .ok (ofWord (c :: cs), cs.length) :=
    head_word_append hstart (List.all_eq_true.mpr hcontinue) (by decide) rest
  rw [hcs, List.cons_append, read_cons hblank hhead, List.drop_left,
    read_leftParen, hword, Option.map_map]
  rfl

/-! ### Numbers -/

theorem isWordStart_of_isDigit {c : Char} (h : c.isDigit = true) :
    isWordStart c = false := by
  obtain ⟨hlow, hhigh⟩ := bounds_of_isDigit h
  have hne : c ≠ '_' := by
    rintro rfl
    exact absurd h (by decide)
  have hascii : c.toNat < 128 := by omega
  have hupper : c.isUpper = false := by
    cases hcase : c.isUpper with
    | false => rfl
    | true =>
        have hbounds : 'A'.val ≤ c.val ∧ c.val ≤ 'Z'.val :=
          of_decide_eq_true hcase
        have hletter : 65 ≤ c.toNat := UInt32.le_iff_toNat_le.mp hbounds.1
        omega
  have hlower : c.isLower = false := by
    cases hcase : c.isLower with
    | false => rfl
    | true =>
        have hbound : 'a'.val ≤ c.val :=
          of_decide_eq_true (Bool.and_eq_true_iff.mp hcase).1
        have hletter : 97 ≤ c.toNat := UInt32.le_iff_toNat_le.mp hbound
        omega
  have halpha : c.isAlpha = false := by
    change (c.isUpper || c.isLower) = false
    rw [hupper, hlower, Bool.or_self]
  simp [isWordStart, Unicode.isIdentifierStart, hne, hascii, halpha]

theorem numberChars_append {d : Decimal} {rest : List Char}
    (hrest : Ends rest) :
    numberChars (d.abs.toChars ++ rest) = d.abs.toChars := by
  obtain ⟨whole, fraction, htext, -, hfraction, hdigits⟩ := d.exists_abs_toChars
  have hdigit : ∀ c ∈ whole ++ fraction, c.isDigit :=
    fun c hc => Decimal.isDigit_of_mem_digits (hdigits ▸ hc)
  have hwhole := fun c hc => hdigit c (List.mem_append_left fraction hc)
  have hends : ∀ c ∈ rest.head?, c.isDigit = false := by
    intro c hc
    obtain rfl | rfl | rfl := hrest c hc <;> rfl
  unfold numberChars
  rw [htext]
  by_cases hscale : d.scale = 0
  · rw [if_pos hscale, List.append_nil, takeWhile_append_of_head? hwhole hends,
      dropWhile_append_of_head? hwhole hends]
    split
    case h_1 more =>
        obtain hpoint | hpoint | hpoint := hrest '.' rfl <;> cases hpoint
    case h_2 => rfl
  · have hne : fraction ≠ [] := List.ne_nil_of_length_pos (by omega)
    have hpoint : ∀ c ∈ ('.' :: (fraction ++ rest)).head?,
        c.isDigit = false := by
      intro c hc
      cases hc
      rfl
    have hfraction' := takeWhile_append_of_head?
      (fun c hc => hdigit c (List.mem_append_right whole hc)) hends
    rw [if_neg hscale, List.append_assoc, List.cons_append,
      takeWhile_append_of_head? hwhole hpoint,
      dropWhile_append_of_head? hwhole hpoint]
    simp [hfraction', hne]

theorem read_number {d : Decimal} {rest : List Char} (hrest : Ends rest) :
    read (d.abs.toChars ++ rest) =
      (read rest).map (number (String.ofList d.abs.toChars) :: ·) := by
  obtain ⟨c, cs, hcs, hdigit⟩ := d.exists_abs_toChars_cons
  have hnumber := numberChars_append hrest (d := d)
  have hhead : head c (cs ++ rest) = .ok (number (String.ofList (c :: cs)),
      cs.length) := by
    rw [hcs, List.cons_append] at hnumber
    unfold head
    rw [if_neg (by simp [isWordStart_of_isDigit hdigit]), if_pos hdigit,
      hnumber]
    rfl
  rw [hcs, List.cons_append, read_cons (isWhiteSpace_of_isDigit hdigit) hhead,
    List.drop_left]

end Token

end TableQuery
