import TableQuery.Proofs.Formula.Lossless
import TableQuery.Proofs.Formula.Spelling

/-!
# The source of a node

Every node of a tree is written by the lexemes from one to another, and its span
runs from the start of the first to the end of the last.  So the text at the
span of a node reads as the node.
-/

namespace TableQuery

namespace Tree

/-! ## Nodes -/

def children : Tree → List Tree
  | number _ _ | string _ _ | reference _ _ _ => []
  | call _ args _ => args
  | binary _ left right _ => [left, right]
  | unary _ operand _ => [operand]

mutual

def nodes : Tree → List Tree
  | number value span => [number value span]
  | string value span => [string value span]
  | reference name target span => [reference name target span]
  | call function args span => call function args span :: argNodes args
  | binary op left right span =>
    binary op left right span :: (nodes left ++ nodes right)
  | unary op operand span => unary op operand span :: nodes operand

def argNodes : List Tree → List Tree
  | [] => []
  | arg :: args => nodes arg ++ argNodes args

end

theorem argNodes_eq_flatMap (args : List Tree) :
    argNodes args = args.flatMap nodes := by
  induction args with
  | nil => rfl
  | cons arg args ih => simp [argNodes, ih]

theorem nodes_eq_cons (e : Tree) : e.nodes = e :: e.nodes.tail := by
  cases e <;> rfl

theorem self_mem_nodes (e : Tree) : e ∈ e.nodes := by
  rw [nodes_eq_cons]
  exact List.mem_cons_self

theorem nodes_withSpan (span : Span) (e : Tree) :
    (e.withSpan span).nodes = e.withSpan span :: e.nodes.tail := by
  cases e <;> rfl

@[simp] theorem span_withSpan (span : Span) (e : Tree) :
    (e.withSpan span).span = span := by
  cases e <;> rfl

/-! ## What a run of lexemes covers -/

def Ordered (lexemes : List Lexeme) : Prop :=
  (∀ lexeme ∈ lexemes, lexeme.span.start < lexeme.span.stop) ∧
    lexemes.Pairwise (fun a b => a.span.stop ≤ b.span.start)

def Covers (lexemes : List Lexeme) (span : Span) : Prop :=
  ∃ first ∈ lexemes.head?, ∃ last ∈ lexemes.getLast?,
    span = ⟨first.span.start, last.span.stop⟩

theorem ordered_of_scan {source : String} {lexemes : List Lexeme}
    (h : Token.scan source = .ok lexemes) : Ordered lexemes := by
  rcases Token.ordered_of_scanFrom h with ⟨hspans, hpairwise⟩
  exact ⟨fun lexeme hlexeme => (hspans lexeme hlexeme).2, hpairwise⟩

theorem Ordered.sublist {lexemes lexemes' : List Lexeme} (h : Ordered lexemes)
    (hsub : lexemes'.Sublist lexemes) : Ordered lexemes' :=
  ⟨fun lexeme hlexeme => h.1 lexeme (hsub.mem hlexeme), h.2.sublist hsub⟩

theorem covers_singleton (lexeme : Lexeme) : Covers [lexeme] lexeme.span :=
  ⟨lexeme, rfl, lexeme, rfl, rfl⟩

theorem Ordered.start_le {lexemes : List Lexeme} (h : Ordered lexemes)
    {first lexeme : Lexeme} (hfirst : first ∈ lexemes.head?)
    (hlexeme : lexeme ∈ lexemes) : first.span.start ≤ lexeme.span.start := by
  rcases List.head?_eq_some_iff.mp hfirst with ⟨more, rfl⟩
  rcases List.mem_cons.mp hlexeme with rfl | hmore
  · exact Nat.le_refl _
  · have hspan := h.1 first List.mem_cons_self
    have hle := List.rel_of_pairwise_cons h.2 hmore
    omega

theorem Ordered.stop_le {lexemes : List Lexeme} (h : Ordered lexemes)
    {last lexeme : Lexeme} (hlast : last ∈ lexemes.getLast?)
    (hlexeme : lexeme ∈ lexemes) : lexeme.span.stop ≤ last.span.stop := by
  rcases List.getLast?_eq_some_iff.mp hlast with ⟨before, rfl⟩
  rcases List.mem_append.mp hlexeme with hbefore | hmem
  · have hspan := h.1 last (by simp)
    have hle := (List.pairwise_append.mp h.2).2.2 lexeme hbefore last (by simp)
    omega
  · rw [List.mem_singleton.mp hmem]

/-- The spans of a first and of a last part join to the span of the whole. -/
theorem Covers.join {before after : List Lexeme} {span span' : Span}
    (h : Covers before span) (middle : List Lexeme) (h' : Covers after span')
    (hordered : Ordered (before ++ middle ++ after)) :
    Covers (before ++ middle ++ after) (span.join span') := by
  rcases h with ⟨first, hfirst, last, hlast, rfl⟩
  rcases h' with ⟨first', hfirst', last', hlast', rfl⟩
  have hhead : first ∈ (before ++ middle ++ after).head? := by
    rcases List.head?_eq_some_iff.mp hfirst with ⟨more, rfl⟩
    rfl
  have hend : last' ∈ (before ++ middle ++ after).getLast? := by
    rw [List.getLast?_append, hlast']
    rfl
  refine ⟨first, hhead, last', hend, ?_⟩
  have hstart := hordered.start_le hhead
    (List.mem_append_right (before ++ middle) (List.mem_of_mem_head? hfirst'))
  have hstop := hordered.stop_le hend
    (List.mem_append_left after
      (List.mem_append_left middle (List.mem_of_getLast? hlast)))
  simp only [Span.join, Span.mk.injEq]
  omega

theorem Covers.inside {inner lexemes : List Lexeme} {span outer : Span}
    (h : Covers inner span) (houter : Covers lexemes outer)
    (hsub : inner ⊆ lexemes) (hordered : Ordered lexemes) :
    span.Inside outer := by
  rcases h with ⟨first, hfirst, last, hlast, rfl⟩
  rcases houter with ⟨first', hfirst', last', hlast', rfl⟩
  constructor
  · exact hordered.start_le hfirst' (hsub (List.mem_of_mem_head? hfirst))
  · exact hordered.stop_le hlast' (hsub (List.mem_of_getLast? hlast))

/-! ## The lexemes of a node -/

section

variable {levels strength edge : Nat} {lexemes : List Lexeme} {e : Tree}

theorem Written.covers (h : Written levels strength edge lexemes e)
    (hordered : Ordered lexemes) : Covers lexemes e.span := by
  induction h using Written.rec (motive_2 := fun _ _ _ _ => True) with
  | number | string | field | word => exact covers_singleton _
  | @call _ lexemes _ function hargs start paren stop ih =>
      exact (covers_singleton ⟨.word function, start⟩).join
        (⟨.leftParen, paren⟩ :: lexemes)
        (covers_singleton ⟨.rightParen, stop⟩) hordered
  | @group _ _ _ lexemes _ h start stop ih =>
      rw [span_withSpan]
      exact (covers_singleton ⟨.leftParen, start⟩).join lexemes
        (covers_singleton ⟨.rightParen, stop⟩) hordered
  | @binary _ _ _ _ _ _ leftLexemes rightLexemes _ _ op span _ _ _ _ _
      ihLeft ihRight =>
      have hleft := ihLeft (hordered.sublist (List.sublist_append_left _ _))
      have hright := ihRight (hordered.sublist (by simp))
      have hparts : leftLexemes ++ ⟨.operator op, span⟩ :: rightLexemes =
          leftLexemes ++ [⟨.operator op, span⟩] ++ rightLexemes := by simp
      rw [hparts] at hordered ⊢
      exact hleft.join _ hright hordered
  | unary op start h hstrength ih =>
      have hoperand := ih (hordered.sublist (List.sublist_cons_self _ _))
      exact (covers_singleton ⟨.ofUnary op, start⟩).join [] hoperand hordered
  | none | one | more => trivial

def WrittenIn (levels : Nat) (lexemes : List Lexeme) (e : Tree) : Prop :=
  ∃ between needed strength edge, between <:+: lexemes ∧ needed ≤ levels ∧
    Written needed strength edge between e

def AllWrittenIn (levels : Nat) (lexemes : List Lexeme)
    (trees : List Tree) : Prop :=
  ∀ e ∈ trees, WrittenIn levels lexemes e

theorem AllWrittenIn.mono {levels' : Nat} {lexemes' : List Lexeme}
    {trees : List Tree} (h : AllWrittenIn levels lexemes trees)
    (hlevels : levels ≤ levels') (hwithin : lexemes <:+: lexemes') :
    AllWrittenIn levels' lexemes' trees := by
  intro e he
  rcases h e he with ⟨between, needed, strength, edge, hbetween,
    hneeded, hwritten⟩
  exact ⟨between, needed, strength, edge, hbetween.trans hwithin,
    Nat.le_trans hneeded hlevels, hwritten⟩

theorem AllWrittenIn.append {trees trees' : List Tree}
    (h : AllWrittenIn levels lexemes trees)
    (h' : AllWrittenIn levels lexemes trees') :
    AllWrittenIn levels lexemes (trees ++ trees') :=
  List.forall_mem_append.mpr ⟨h, h'⟩

theorem Written.allWrittenIn_cons (h : Written levels strength edge lexemes e)
    {trees : List Tree} (htrees : AllWrittenIn levels lexemes trees) :
    AllWrittenIn levels lexemes (e :: trees) :=
  List.forall_mem_cons.mpr
    ⟨⟨lexemes, levels, strength, edge, List.infix_refl _, Nat.le_refl _, h⟩,
      htrees⟩

theorem allWrittenIn_nil (levels : Nat) (lexemes : List Lexeme) :
    AllWrittenIn levels lexemes [] :=
  fun _ hmem => absurd hmem List.not_mem_nil

theorem Written.allWrittenIn_nodes
    (h : Written levels strength edge lexemes e) :
    AllWrittenIn levels lexemes e.nodes := by
  induction h using Written.rec (motive_2 := fun levels lexemes args _ =>
    AllWrittenIn levels lexemes (argNodes args)) with
  | number h span =>
      exact (Written.number h span).allWrittenIn_cons (allWrittenIn_nil _ _)
  | string value span =>
      exact (Written.string value span).allWrittenIn_cons (allWrittenIn_nil _ _)
  | field name span =>
      exact (Written.field name span).allWrittenIn_cons (allWrittenIn_nil _ _)
  | word name span =>
      exact (Written.word name span).allWrittenIn_cons (allWrittenIn_nil _ _)
  | call function hargs start paren stop ih =>
      apply (Written.call function hargs start paren stop).allWrittenIn_cons
      apply ih.mono (Nat.le_succ _)
      exact ⟨[_, _], [_], rfl⟩
  | group h start stop ih =>
      rw [nodes_withSpan]
      apply (Written.group h start stop).allWrittenIn_cons
      rw [nodes_eq_cons] at ih
      apply AllWrittenIn.mono (List.forall_mem_cons.mp ih).2 (Nat.le_succ _)
      exact ⟨[_], [_], rfl⟩
  | binary op span hleft hright hedge hchain hstrength ihLeft ihRight =>
      apply (Written.binary op span hleft hright hedge hchain
        hstrength).allWrittenIn_cons
      apply AllWrittenIn.append
      · exact ihLeft.mono (Nat.le_max_left _ _) (List.prefix_append _ _).isInfix
      · apply ihRight.mono (by omega)
        exact (List.suffix_append_of_suffix (List.suffix_cons _ _)).isInfix
  | unary op start h hstrength ih =>
      apply (Written.unary op start h hstrength).allWrittenIn_cons
      exact ih.mono (Nat.le_succ _) (List.suffix_cons _ _).isInfix
  | none => exact allWrittenIn_nil _ _
  | one h ih => simpa [argNodes] using ih
  | more h comma hrest ih ihRest =>
      apply AllWrittenIn.append
      · exact ih.mono (Nat.le_max_left _ _) (List.prefix_append _ _).isInfix
      · apply ihRest.mono (Nat.le_max_right _ _)
        exact (List.suffix_append_of_suffix (List.suffix_cons _ _)).isInfix

theorem children_subset_nodes (e : Tree) : e.children ⊆ e.nodes := by
  intro child hchild
  cases e with
  | number | string | reference => cases hchild
  | call function args span =>
      rw [Tree.nodes, argNodes_eq_flatMap]
      exact List.mem_cons_of_mem _
        (List.mem_flatMap.mpr ⟨child, hchild, self_mem_nodes child⟩)
  | binary op left right span =>
      rw [Tree.nodes]
      have hleft := self_mem_nodes left
      have hright := self_mem_nodes right
      simp only [children, List.mem_cons, List.not_mem_nil, or_false] at hchild
      rcases hchild with rfl | rfl <;> simp_all
  | unary op operand span =>
      rw [List.mem_singleton.mp hchild]
      exact List.mem_cons_of_mem _ (self_mem_nodes operand)

theorem Written.inside (h : Written levels strength edge lexemes e)
    (hordered : Ordered lexemes) {child : Tree} (hchild : child ∈ e.children) :
    child.span.Inside e.span := by
  rcases h.allWrittenIn_nodes child (children_subset_nodes e hchild) with
    ⟨between, needed, strength', edge', hbetween, -, hwritten⟩
  have hcovers := hwritten.covers (hordered.sublist hbetween.sublist)
  exact hcovers.inside (h.covers hordered) hbetween.subset hordered

end

/-! ## The text of a node -/

/-- Each child of a node lies in the node, and the text of a node is read as the
node. -/
theorem node_of_parseWithin {depth : Nat} {source : String} {e : Tree}
    (h : parseWithin depth source = .ok e) {node : Tree}
    (hnode : node ∈ e.nodes) :
    (∀ child ∈ node.children, child.span.Inside node.span) ∧
      ∃ text, node.span.text? source = some text ∧
        ∃ e', parseWithin depth text = .ok e' ∧
        e'.withoutSpans = node.withoutSpans := by
  rcases exists_written_of_parseWithin h with
    ⟨lexemes, levels, strength, edge, hscan, hlevels, hwritten⟩
  rcases hwritten.allWrittenIn_nodes node hnode with
    ⟨between, needed, strength', edge', ⟨before, after, rfl⟩, hneeded, hbetween⟩
  have hordered := (ordered_of_scan hscan).sublist
    (List.infix_append before between after).sublist
  constructor
  · exact fun child hchild => hbetween.inside hordered hchild
  · rcases hbetween.covers hordered with ⟨first, hfirst, last, hlast, hspan⟩
    rcases Token.exists_text_between hscan hfirst hlast with
      ⟨text, htext, hscanText⟩
    use text
    constructor
    · rw [hspan, htext]
    · have hread : Token.read text.toList = some (between.map (·.token)) :=
        Token.read_eq_some_iff.mpr ⟨_, hscanText, by simp⟩
      exact hbetween.spells.exists_parse hread (Nat.le_trans hneeded hlevels)

end Tree

end TableQuery
