import TableQuery.Formula.Tree

/-!
# Trees up to spans and targets

What is left of a tree without the spans of its nodes, and without the columns
that its references were resolved to.
-/

namespace TableQuery

theorem Decimal.sameValue_self (d : Decimal) : d.sameValue d = true := by
  simp [sameValue, compare]

namespace Tree

@[elab_as_elim]
theorem induct {motive : Tree → Prop}
    (number : ∀ value span, motive (.number value span))
    (string : ∀ value span, motive (.string value span))
    (reference : ∀ name target span, motive (.reference name target span))
    (call : ∀ function args span, (∀ arg ∈ args, motive arg) →
      motive (.call function args span))
    (binary : ∀ op left right span, motive left → motive right →
      motive (.binary op left right span))
    (unary : ∀ op operand span, motive operand →
      motive (.unary op operand span))
    (e : Tree) : motive e :=
  Tree.rec (motive_1 := motive)
    (motive_2 := fun args => ∀ arg ∈ args, motive arg)
    number string reference call binary unary
    (fun _ h => absurd h List.not_mem_nil)
    (fun _ _ first rest arg h => (List.mem_cons.mp h).elim (fun h => h ▸ first)
      (rest arg)) e

/-! ## Without spans -/

mutual

def withoutSpans : Tree → Tree
  | number value _ => number value ⟨0, 0⟩
  | string value _ => string value ⟨0, 0⟩
  | reference name target _ => reference name target ⟨0, 0⟩
  | call function args _ => call function (argsWithoutSpans args) ⟨0, 0⟩
  | binary op left right _ =>
    binary op (withoutSpans left) (withoutSpans right) ⟨0, 0⟩
  | unary op operand _ => unary op (withoutSpans operand) ⟨0, 0⟩

def argsWithoutSpans : List Tree → List Tree
  | [] => []
  | arg :: args => withoutSpans arg :: argsWithoutSpans args

end

theorem argsWithoutSpans_eq_map (args : List Tree) :
    argsWithoutSpans args = args.map withoutSpans := by
  induction args with
  | nil => rfl
  | cons arg args ih => simp [argsWithoutSpans, ih]

@[simp] theorem withoutSpans_withSpan (span : Span) (e : Tree) :
    (e.withSpan span).withoutSpans = e.withoutSpans := by
  cases e <;> rfl

private theorem sameArgs_of_map_eq {as bs : List Tree}
    (h : ∀ a ∈ as, ∀ b, a.withoutSpans = b.withoutSpans → a.same b = true)
    (hmap : as.map withoutSpans = bs.map withoutSpans) :
    sameArgs as bs = true := by
  induction as generalizing bs with
  | nil =>
      rw [List.map_nil, eq_comm, List.map_eq_nil_iff] at hmap
      rw [hmap]
      rfl
  | cons a as ih =>
      cases bs with
      | nil => simp at hmap
      | cons b bs =>
          obtain ⟨hhead, htail⟩ := List.cons.inj hmap
          have hfirst := h a List.mem_cons_self b hhead
          have hrest :=
            ih (fun a' ha' => h a' (List.mem_cons_of_mem a ha')) htail
          simp [sameArgs, hfirst, hrest]

theorem same_of_withoutSpans_eq {a b : Tree}
    (h : a.withoutSpans = b.withoutSpans) : a.same b = true := by
  induction a using induct generalizing b with
  | number value span =>
      cases b <;> simp_all [withoutSpans, same, Decimal.sameValue_self]
  | string value span => cases b <;> simp_all [withoutSpans, same]
  | reference name target span => cases b <;> simp_all [withoutSpans, same]
  | call function args span ih =>
      cases b with
      | call function' args' span' =>
          simp only [withoutSpans, argsWithoutSpans_eq_map, call.injEq] at h
          obtain ⟨hfunction, hargs, -⟩ := h
          have hsame := sameArgs_of_map_eq (fun a ha b hb => ih a ha hb) hargs
          simp [same, hfunction, hsame]
      | _ => simp [withoutSpans] at h
  | binary op left right span ihLeft ihRight =>
      cases b with
      | binary op' left' right' span' =>
          simp only [withoutSpans, binary.injEq] at h
          obtain ⟨hop, hleft, hright, -⟩ := h
          simp [same, hop, ihLeft hleft, ihRight hright]
      | _ => simp [withoutSpans] at h
  | unary op operand span ih =>
      cases b with
      | unary op' operand' span' =>
          simp only [withoutSpans, unary.injEq] at h
          obtain ⟨hop, hoperand, -⟩ := h
          simp [same, hop, ih hoperand]
      | _ => simp [withoutSpans] at h

/-! ## Without targets -/

mutual

def unresolved : Tree → Tree
  | number value span => number value span
  | string value span => string value span
  | reference name _ span => reference name none span
  | call function args span => call function (argsUnresolved args) span
  | binary op left right span =>
    binary op (unresolved left) (unresolved right) span
  | unary op operand span => unary op (unresolved operand) span

def argsUnresolved : List Tree → List Tree
  | [] => []
  | arg :: args => unresolved arg :: argsUnresolved args

end

theorem argsUnresolved_eq_map (args : List Tree) :
    argsUnresolved args = args.map unresolved := by
  induction args with
  | nil => rfl
  | cons arg args ih => simp [argsUnresolved, ih]

@[simp] theorem unresolved_withSpan (span : Span) (e : Tree) :
    (e.withSpan span).unresolved = e.unresolved.withSpan span := by
  cases e <;> rfl

end Tree

end TableQuery
