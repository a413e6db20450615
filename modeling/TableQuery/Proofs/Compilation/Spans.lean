import TableQuery.Proofs.Compilation.Clause
import TableQuery.Proofs.Formula.Nodes

/-!
# Spans point into the formula

The span of a node is the text that reads as the node, and the span of an error
is a piece of the formula.  The scanner and the parser stop at a place of their
own; what finds fault with a tree names the span of one of its nodes.
-/

namespace TableQuery

theorem Span.inSource_of_text? {source text : String} {span : Span}
    (h : span.text? source = some text) : span.InSource source := by
  rcases text?_eq_some_iff.mp h with ⟨before, after, hsource, hstart, hstop⟩
  exact inSource_iff.mpr ⟨before, text.toList, after, hsource,
    by rw [hstart, hstop]⟩

/-! ## Errors of the scanner -/

namespace Token

theorem exists_piece_of_scanFrom {position : Nat} {cs : List Char}
    {err : LexError} (h : scanFrom position cs = .error err) :
    ∃ before piece after, cs = before ++ piece ++ after ∧
      err.span = ⟨position + byteLength before,
        position + byteLength (before ++ piece)⟩ := by
  induction position, cs using scanFrom.induct with
  | case1 position =>
      rw [scanFrom_nil] at h
      cases h
  | case2 position c rest hblank ih =>
      rw [scanFrom_blank hblank] at h
      rcases ih h with ⟨before, piece, after, rfl, hspan⟩
      refine ⟨c :: before, piece, after, rfl, ?_⟩
      simp [hspan, Nat.add_assoc]
  | case3 position c rest hblank stuck hhead =>
      rw [scanFrom_cons, if_neg hblank, hhead] at h
      cases h
      refine ⟨(c :: rest).take stuck.skipped,
        ((c :: rest).drop stuck.skipped).take stuck.width,
        ((c :: rest).drop stuck.skipped).drop stuck.width, ?_, ?_⟩
      · rw [List.append_assoc, List.take_append_drop, List.take_append_drop]
      · simp [Nat.add_assoc]
  | case4 position c rest hblank token more hhead stop err' hrest ih =>
      rw [scanFrom_cons, if_neg hblank, hhead] at h
      dsimp only at h
      rw [hrest] at h
      cases h
      rcases ih hrest with ⟨before, piece, after, hdrop, hspan⟩
      refine ⟨c :: rest.take more ++ before, piece, after, ?_, ?_⟩
      · have hparts : rest = rest.take more ++ before ++ piece ++ after := by
          rw [List.append_assoc, List.append_assoc, ← List.append_assoc before,
            ← hdrop, List.take_append_drop]
        exact congrArg (c :: ·) hparts
      · simp [hspan, stop, Nat.add_assoc]
  | case5 position c rest hblank token more hhead stop lexemes hrest ih =>
      rw [scanFrom_cons, if_neg hblank, hhead] at h
      dsimp only at h
      rw [hrest] at h
      cases h

theorem inSource_of_scan_error {source : String} {err : LexError}
    (h : scan source = .error err) : err.span.InSource source := by
  rcases exists_piece_of_scanFrom h with ⟨before, piece, after, hsource, hspan⟩
  refine Span.inSource_iff.mpr ⟨before, piece, after, hsource, ?_⟩
  simpa using hspan

end Token

namespace Tree

/-! ## Errors of the parser -/

theorem inSource_end (source : String) :
    Span.InSource source ⟨source.utf8ByteSize, source.utf8ByteSize⟩ :=
  Span.inSource_iff.mpr ⟨source.toList, [], [], by simp,
    by simp [byteLength_toList]⟩

theorem inSource_of_failsAt {source : String} {lexemes : List Lexeme}
    (hscan : Token.scan source = .ok lexemes) {err : ParseError}
    (h : FailsAt source.utf8ByteSize lexemes err) :
    err.span.InSource source := by
  rcases h with ⟨rest, expected, ⟨before, rfl⟩, rfl⟩
  cases rest with
  | nil => exact inSource_end source
  | cons lexeme rest =>
      have hlexemes : before ++ lexeme :: rest =
          before ++ [lexeme] ++ rest := by simp
      rw [hlexemes] at hscan
      rcases Token.exists_text_between hscan rfl rfl with ⟨text, htext, -⟩
      exact Span.inSource_of_text? htext

theorem inSource_of_parseWithin_error {depth : Nat} {source : String}
    {err : FormulaError} (h : parseWithin depth source = .error err) :
    err.span.InSource source := by
  unfold parseWithin at h
  split at h
  case h_1 hscan =>
      cases h
      exact Token.inSource_of_scan_error hscan
  case h_2 lexemes hscan =>
      split at h
      case h_1 hparse =>
          cases h
          exact inSource_of_failsAt hscan (failsAt_of_ofLexemes hparse)
      case h_2 => cases h

/-! ## Errors of a tree -/

variable {ctx : Context} {separators : List String} {span : Span}

def AtNode (t : Tree) (span : Span) : Prop := ∃ node ∈ t.nodes, node.span = span

theorem atNode_self (t : Tree) : t.AtNode t.span := ⟨t, self_mem_nodes t, rfl⟩

theorem AtNode.arg {arg : Tree} (h : arg.AtNode span) {args : List Tree}
    (harg : arg ∈ args) (function : String) (callSpan : Span) :
    (call function args callSpan).AtNode span := by
  rcases h with ⟨node, hnode, hspan⟩
  refine ⟨node, ?_, hspan⟩
  rw [nodes, argNodes_eq_flatMap]
  exact List.mem_cons_of_mem _ (List.mem_flatMap.mpr ⟨arg, harg, hnode⟩)

theorem AtNode.left {left : Tree} (h : left.AtNode span) (op : BinaryOp)
    (right : Tree) (binarySpan : Span) :
    (binary op left right binarySpan).AtNode span := by
  rcases h with ⟨node, hnode, hspan⟩
  exact ⟨node, by simp [nodes, hnode], hspan⟩

theorem AtNode.right {right : Tree} (h : right.AtNode span) (op : BinaryOp)
    (left : Tree) (binarySpan : Span) :
    (binary op left right binarySpan).AtNode span := by
  rcases h with ⟨node, hnode, hspan⟩
  exact ⟨node, by simp [nodes, hnode], hspan⟩

theorem AtNode.operand {operand : Tree} (h : operand.AtNode span) (op : UnaryOp)
    (unarySpan : Span) : (unary op operand unarySpan).AtNode span := by
  rcases h with ⟨node, hnode, hspan⟩
  exact ⟨node, List.mem_cons_of_mem _ hnode, hspan⟩

/-! ### Resolution -/

theorem AtNode.of_resolve {t resolved : Tree} (h : resolved.AtNode span)
    (hresolve : t.resolve ctx separators = .ok resolved) : t.AtNode span := by
  induction t using induct generalizing resolved with
  | number value span' =>
      cases hresolve
      exact h
  | string value span' =>
      cases hresolve
      exact h
  | reference name target span' =>
      rcases h with ⟨node, hnode, rfl⟩
      rcases resolveReference_eq_ok_iff.mp hresolve with ⟨entry, -, rfl⟩ |
        ⟨-, function, -, rfl⟩
      all_goals
        simp only [nodes, argNodes, List.mem_singleton] at hnode
        rw [hnode]
        exact atNode_self _
  | call name args span' ih =>
      rcases resolve_call_eq_ok_iff.mp hresolve with
        ⟨function, args', -, -, hargs, -, rfl⟩
      rcases h with ⟨node, hnode, hspan⟩
      rw [nodes, argNodes_eq_flatMap, List.mem_cons, List.mem_flatMap] at hnode
      rcases hnode with rfl | ⟨arg', harg', hnode⟩
      · rw [← hspan]
        exact atNode_self (call name args span')
      · rcases exists_of_mem_forall₂ hargs harg' with ⟨arg, harg, harg'⟩
        exact (ih arg harg ⟨node, hnode, hspan⟩ harg').arg harg name span'
  | binary op left right span' ihLeft ihRight =>
      rcases resolve_binary_eq_ok_iff.mp hresolve with
        ⟨left', right', hleft, hright, rfl⟩
      rcases h with ⟨node, hnode, hspan⟩
      rw [nodes, List.mem_cons, List.mem_append] at hnode
      rcases hnode with rfl | hnode | hnode
      · rw [← hspan]
        exact atNode_self (binary op left right span')
      · exact (ihLeft ⟨node, hnode, hspan⟩ hleft).left op right span'
      · exact (ihRight ⟨node, hnode, hspan⟩ hright).right op left span'
  | unary op operand span' ih =>
      rcases resolve_unary_eq_ok_iff.mp hresolve with ⟨operand', hoperand, rfl⟩
      rcases h with ⟨node, hnode, hspan⟩
      rw [nodes, List.mem_cons] at hnode
      rcases hnode with rfl | hnode
      · rw [← hspan]
        exact atNode_self (unary op operand span')
      · exact (ih ⟨node, hnode, hspan⟩ hoperand).operand op span'

theorem exists_arg_of_resolveArgs {args : List Tree} {err : ResolveError}
    (h : resolveArgs ctx separators args = .error err) :
    ∃ arg ∈ args, arg.resolve ctx separators = .error err := by
  induction args with
  | nil => cases h
  | cons arg args ih =>
      rw [resolveArgs] at h
      split at h
      case h_1 err' harg =>
          cases h
          exact ⟨arg, List.mem_cons_self, harg⟩
      case h_2 =>
          split at h
          case h_1 err' hargs =>
              cases h
              rcases ih hargs with ⟨arg', harg', herr⟩
              exact ⟨arg', List.mem_cons_of_mem arg harg', herr⟩
          case h_2 => cases h

theorem atNode_of_resolve_error {t : Tree} {err : ResolveError}
    (h : t.resolve ctx separators = .error err) : t.AtNode err.span := by
  induction t using induct with
  | number value span => cases h
  | string value span => cases h
  | reference name target span =>
      rw [resolve, resolveReference] at h
      split at h
      case h_1 => cases h
      case h_2 =>
          split at h
          case h_1 => cases h
          case h_2 =>
              cases h
              exact atNode_self (reference name target span)
      case h_3 =>
          cases h
          exact atNode_self (reference name target span)
  | call name args span ih =>
      rw [resolve] at h
      split at h
      case h_1 =>
          cases h
          exact atNode_self (call name args span)
      case h_2 function hname =>
          split at h
          case isTrue =>
              cases h
              exact atNode_self (call name args span)
          case isFalse =>
              split at h
              case h_1 err' hargs =>
                  cases h
                  rcases exists_arg_of_resolveArgs hargs with ⟨arg, harg, herr⟩
                  exact (ih arg harg herr).arg harg name span
              case h_2 args' hargs =>
                  split at h
                  case h_1 inner hinner =>
                      cases h
                      -- The inner aggregation is an argument that was resolved.
                      have hmem : inner ∈ args' := by
                        split at hinner
                        case isTrue => exact List.mem_of_find?_eq_some hinner
                        case isFalse => cases hinner
                      rw [resolveArgs_eq_mapM, mapM_eq_ok_iff] at hargs
                      rcases exists_of_mem_forall₂ hargs hmem with
                        ⟨arg, harg, hresolve⟩
                      exact ((atNode_self inner).of_resolve hresolve).arg
                        harg name span
                  case h_2 => cases h
  | binary op left right span ihLeft ihRight =>
      rw [resolve] at h
      split at h
      case h_1 err' hleft =>
          cases h
          exact (ihLeft hleft).left op right span
      case h_2 =>
          split at h
          case h_1 err' hright =>
              cases h
              exact (ihRight hright).right op left span
          case h_2 => cases h
  | unary op operand span ih =>
      rw [resolve] at h
      split at h
      case h_1 err' hoperand =>
          cases h
          exact (ih hoperand).operand op span
      case h_2 => cases h

/-! ### Typing -/

theorem TypeFault.span_of_at {α : Type} {result : Except TypeFault α}
    {err : TypeError} (h : TypeFault.at span result = .error err) :
    err.span = span := by
  cases result with
  | ok a => cases h
  | error fault =>
      cases h
      rfl

theorem exists_arg_of_typedArgs {function : Function} {args : List Tree}
    (ih : ∀ arg ∈ args, ∀ err, arg.typed ctx = .error err → arg.AtNode err.span)
    {index : Nat} {err : TypeError}
    (h : typedArgs ctx function index args = .error err) :
    ∃ arg ∈ args, arg.AtNode err.span := by
  induction args generalizing index with
  | nil => cases h
  | cons arg args ihArgs =>
      rw [typedArgs] at h
      split at h
      case h_1 err' harg =>
          cases h
          exact ⟨arg, List.mem_cons_self, ih arg List.mem_cons_self _ harg⟩
      case h_2 =>
          split at h
          case isTrue =>
              cases h
              exact ⟨arg, List.mem_cons_self, atNode_self arg⟩
          case isFalse =>
              split at h
              case h_1 err' hargs =>
                  cases h
                  rcases ihArgs (fun a ha => ih a (List.mem_cons_of_mem arg ha))
                    hargs with
                    ⟨arg', harg', hspan⟩
                  exact ⟨arg', List.mem_cons_of_mem arg harg', hspan⟩
              case h_2 => cases h

theorem atNode_of_typed_error {t : Tree} {err : TypeError}
    (h : t.typed ctx = .error err) : t.AtNode err.span := by
  induction t using induct generalizing err with
  | number value span => cases h
  | string value span => cases h
  | reference name target span =>
      cases target with
      | none =>
          cases h
          exact atNode_self (reference name none span)
      | some id => cases h
  | call name args span ih =>
      rw [typed] at h
      split at h
      case h_1 =>
          cases h
          exact atNode_self (call name args span)
      case h_2 function hname =>
          split at h
          case h_1 err' hargs =>
              cases h
              rcases exists_arg_of_typedArgs
                (fun arg harg _ => ih arg harg) hargs with
                ⟨arg, harg, hspan⟩
              exact hspan.arg harg name span
          case h_2 => cases h
  | binary op left right span ihLeft ihRight =>
      rw [typed] at h
      split at h
      case h_1 err' hleft =>
          cases h
          exact (ihLeft hleft).left op right span
      case h_2 =>
          split at h
          case h_1 err' hright =>
              cases h
              exact (ihRight hright).right op left span
          case h_2 =>
              split at h
              case h_1 err' hkind =>
                  cases h
                  rw [TypeFault.span_of_at hkind]
                  exact atNode_self (binary op left right span)
              case h_2 => cases h
  | unary op operand span ih =>
      rw [typed] at h
      split at h
      case h_1 err' hoperand =>
          cases h
          exact (ih hoperand).operand op span
      case h_2 =>
          split at h
          case h_1 err' hkind =>
              cases h
              rw [TypeFault.span_of_at hkind]
              exact atNode_self (unary op operand span)
          case h_2 => cases h

/-! ### Clauses -/

theorem exists_arg_of_argColumnOutsideAggregation? {args : List Tree}
    {column : Tree} (h : argColumnOutsideAggregation? args = some column) :
    ∃ arg ∈ args, arg.columnOutsideAggregation? = some column := by
  induction args with
  | nil => cases h
  | cons arg args ih =>
      simp only [argColumnOutsideAggregation?, Option.orElse_eq_orElse,
        Option.orElse_eq_or, Option.or_eq_some_iff] at h
      rcases h with h | ⟨-, h⟩
      · exact ⟨arg, List.mem_cons_self, h⟩
      · rcases ih h with ⟨arg', harg', h⟩
        exact ⟨arg', List.mem_cons_of_mem arg harg', h⟩

theorem mem_nodes_of_columnOutsideAggregation? {t column : Tree}
    (h : t.columnOutsideAggregation? = some column) : column ∈ t.nodes := by
  induction t using induct with
  | number value span => cases h
  | string value span => cases h
  | reference name target span =>
      rw [columnOutsideAggregation?] at h
      split at h
      case isTrue => cases h
      case isFalse =>
          cases h
          exact self_mem_nodes _
  | call name args span ih =>
      rw [columnOutsideAggregation?] at h
      split at h
      case isTrue => cases h
      case isFalse =>
          rcases exists_arg_of_argColumnOutsideAggregation? h with
            ⟨arg, harg, h⟩
          rw [nodes, argNodes_eq_flatMap]
          exact List.mem_cons_of_mem _
            (List.mem_flatMap.mpr ⟨arg, harg, ih arg harg h⟩)
  | binary op left right span ihLeft ihRight =>
      simp only [columnOutsideAggregation?, Option.orElse_eq_orElse,
        Option.orElse_eq_or, Option.or_eq_some_iff] at h
      rw [nodes]
      rcases h with h | ⟨-, h⟩
      · exact List.mem_cons_of_mem _ (List.mem_append_left _ (ihLeft h))
      · exact List.mem_cons_of_mem _ (List.mem_append_right _ (ihRight h))
  | unary op operand span ih => exact List.mem_cons_of_mem _ (ih h)

theorem atNode_of_rejectAggregates_error {t : Tree} {clauses : String}
    {err : CompileError} (h : t.rejectAggregates clauses = .error err)
    (hspan : err.span? = some span) : t.AtNode span := by
  unfold rejectAggregates at h
  split at h
  case isTrue =>
      cases h
      cases hspan
      exact atNode_self t
  case isFalse => cases h

theorem span?_of_columnName_error {name : Option String} {err : CompileError}
    (h : columnName name = .error err) : err.span? = none := by
  unfold columnName at h
  split at h
  case h_1 => cases h
  case h_2 =>
      cases h
      rfl

theorem atNode_of_clauseFor_error {t : Tree} {target : FormulaTarget}
    {name : Option String} {e : Expression} {kind : ValueKind}
    {err : CompileError} (h : t.clauseFor target name e kind = .error err)
    (hspan : err.span? = some span) : t.AtNode span := by
  cases target with
  | aggregation =>
      simp only [clauseFor] at h
      split at h
      case isTrue =>
          cases h
          cases hspan
          exact atNode_self t
      case isFalse =>
          split at h
          case h_1 column hcolumn =>
              cases h
              cases hspan
              exact ⟨column,
                mem_nodes_of_columnOutsideAggregation? hcolumn, rfl⟩
          case h_2 => cases h
  | filter =>
      cases hreject : t.rejectAggregates "filters" with
      | error err' =>
          simp only [clauseFor, hreject] at h
          cases h
          exact atNode_of_rejectAggregates_error hreject hspan
      | ok _ =>
          simp only [clauseFor, hreject, bind, Except.bind] at h
          split at h
          case isTrue => cases h
          case isFalse =>
              cases h
              cases hspan
              exact atNode_self t
  | customColumn =>
      cases hreject : t.rejectAggregates "custom columns" with
      | error err' =>
          simp only [clauseFor, hreject] at h
          cases h
          exact atNode_of_rejectAggregates_error hreject hspan
      | ok _ =>
          cases hname : columnName name with
          | error err' =>
              simp only [clauseFor, hreject, hname, bind, Except.bind] at h
              cases h
              rw [span?_of_columnName_error hname] at hspan
              cases hspan
          | ok text =>
              simp only [clauseFor, hreject, hname] at h
              cases h

theorem atNode_of_compile_error {t : Tree} {target : FormulaTarget}
    {name : Option String} {err : CompileError}
    (h : t.compile ctx target name = .error err)
    (hspan : err.span? = some span) : t.AtNode span := by
  unfold compile at h
  split at h
  case h_1 err' htyped =>
      cases h
      cases hspan
      exact atNode_of_typed_error htyped
  case h_2 e kind htyped =>
      split at h
      case h_1 err' hclause =>
          cases h
          exact atNode_of_clauseFor_error hclause hspan
      case h_2 => cases h

end Tree

/-! ## Texts at spans -/

/-- An error of a formula that was read is about one of its nodes. -/
theorem atNode_of_compileAt_error {c : Catalog} {options : CompileOptions}
    {q : Query} {source : String} {target : FormulaTarget}
    {name : Option String} {position : ClausePosition} {err : QueryError}
    {span : Span}
    (h : q.compileAt c options source target name position = .error err)
    (hspan : err.span? = some span) :
    (∃ err', Tree.parseWithin options.maxDepth source = .error err' ∧
      err'.span = span) ∨
      ∃ e, Tree.parseWithin options.maxDepth source = .ok e ∧
      e.AtNode span := by
  unfold Query.compileAt at h
  split at h
  case h_1 =>
      cases h
      cases hspan
  case h_2 ctx hctx =>
      split at h
      case h_1 err' hparse =>
          cases h
          cases hspan
          exact .inl ⟨err', hparse, rfl⟩
      case h_2 parsed hparse =>
          right
          use parsed
          constructor
          · exact hparse
          · split at h
            case h_1 err' hresolve =>
                cases h
                cases hspan
                exact Tree.atNode_of_resolve_error hresolve
            case h_2 resolved hresolve =>
                cases hcompile : resolved.compile ctx target name with
                | ok compiled =>
                    rw [hcompile] at h
                    cases h
                | error err' =>
                    rw [hcompile] at h
                    cases h
                    exact (Tree.atNode_of_compile_error hcompile
                      hspan).of_resolve hresolve

/-- Every node of a tree lies in its parent and is what the text at its span
reads as, within the same levels.  Every error that has a span, of reading or of
compiling, is about a piece of the formula. -/
theorem text_at_spans (source : String) :
    (∀ depth e, Tree.parseWithin depth source = .ok e → ∀ node ∈ e.nodes,
      node.span.InSource source ∧
        (∀ child ∈ node.children, child.span.Inside node.span) ∧ ∃ text,
          node.span.text? source = some text ∧
          ∃ e', Tree.parseWithin depth text = .ok e' ∧ e'.same node = true) ∧
      (∀ depth err, Tree.parseWithin depth source = .error err →
        err.span.InSource source) ∧
      ∀ (c : Catalog) options (q : Query) target name position err span,
        q.compileAt c options source target name position = .error err →
          err.span? = some span → span.InSource source := by
  constructor
  · intro depth e h node hnode
    rcases Tree.node_of_parseWithin h hnode with
      ⟨hchildren, text, htext, e', hparse, hsame⟩
    exact ⟨Span.inSource_of_text? htext, hchildren, text, htext, e', hparse,
      Tree.same_of_withoutSpans_eq hsame⟩
  · constructor
    · exact fun depth err h => Tree.inSource_of_parseWithin_error h
    · intro c options q target name position err span h hspan
      rcases atNode_of_compileAt_error h hspan with
        ⟨err', hparse, rfl⟩ | ⟨e, hparse, node, hnode, rfl⟩
      · exact Tree.inSource_of_parseWithin_error hparse
      · rcases Tree.node_of_parseWithin hparse hnode with ⟨-, text, htext, -⟩
        exact Span.inSource_of_text? htext

open Draft (sales salesCounts)

def scaledComplement : Tree :=
  .binary .mul (.reference "é" none ⟨0, 4⟩)
    (.unary .not (.reference "b" none ⟨12, 13⟩) ⟨7, 14⟩) ⟨0, 14⟩

theorem parseWithin_scaledComplement :
    Tree.parseWithin 4 "[é] * (NOT b)" = .ok scaledComplement := by
  have hscan : Token.scan "[é] * (NOT b)" =
      .ok [⟨.field "é", ⟨0, 4⟩⟩, ⟨.operator .mul, ⟨5, 6⟩⟩,
      ⟨.leftParen, ⟨7, 8⟩⟩, ⟨.not, ⟨8, 11⟩⟩, ⟨.word "b", ⟨12, 13⟩⟩,
      ⟨.rightParen, ⟨13, 14⟩⟩] := by
    decide +kernel
  rw [Tree.parseWithin, hscan]
  rfl

theorem compileAt_unknownName :
    salesCounts.query.compileAt sales {} "Sum(1 + [é])" .aggregation none
        ⟨.aggregation, 0⟩ =
      .error (.resolve (.unresolvedReference "é" ⟨8, 12⟩)) := by
  have hscan : Token.scan "Sum(1 + [é])" =
      .ok [⟨.word "Sum", ⟨0, 3⟩⟩, ⟨.leftParen, ⟨3, 4⟩⟩,
      ⟨.number "1", ⟨4, 5⟩⟩, ⟨.operator .add, ⟨6, 7⟩⟩, ⟨.field "é", ⟨8, 12⟩⟩,
      ⟨.rightParen, ⟨12, 13⟩⟩] := by decide +kernel
  rw [Query.compileAt, Tree.parseWithin, hscan]
  rfl

theorem parseWithin_unfinished :
    Tree.parseWithin 4 "[é] *" =
      .error (.parse ⟨.expression, none, ⟨6, 6⟩⟩) := by
  have hscan : Token.scan "[é] *" =
      .ok [⟨.field "é", ⟨0, 4⟩⟩, ⟨.operator .mul, ⟨5, 6⟩⟩] := by
    decide +kernel
  rw [Tree.parseWithin, hscan]
  rfl

theorem text_at_spans_scaledComplement :
    (∃ text, Span.text? "[é] * (NOT b)" ⟨7, 14⟩ = some text ∧ ∃ e',
        Tree.parseWithin 4 text = .ok e' ∧
          e'.same (.unary .not (.reference "b" none ⟨12, 13⟩) ⟨7, 14⟩) = true) ∧
      Span.InSource "[é] *" ⟨6, 6⟩ ∧ Span.InSource "Sum(1 + [é])" ⟨8, 12⟩ := by
  constructor
  · have hnode : .unary .not (.reference "b" none ⟨12, 13⟩) ⟨7, 14⟩ ∈
      scaledComplement.nodes := by
      simp [scaledComplement, Tree.nodes]
    exact ((text_at_spans "[é] * (NOT b)").1 4 _ parseWithin_scaledComplement _
      hnode).2.2
  · constructor
    · exact (text_at_spans "[é] *").2.1 4 _ parseWithin_unfinished
    · exact (text_at_spans "Sum(1 + [é])").2.2 sales {} salesCounts.query
        .aggregation none ⟨.aggregation, 0⟩ _ _ compileAt_unknownName rfl

end TableQuery
