import Mathlib.Data.List.Forall2

/-!
# Computations that may fail

When a computation made of smaller ones succeeds, and how a success carries over
to a computation that does no worse.
-/

namespace TableQuery

variable {ε α β γ : Type}

/-! ## Successes and failures -/

theorem bind_eq_ok_iff {x : Except ε α} {f : α → Except ε β} {b : β} :
    (x >>= f) = .ok b ↔ ∃ a, x = .ok a ∧ f a = .ok b := by
  cases x with
  | error e => simp [bind, Except.bind]
  | ok a => simp [bind, Except.bind]

theorem bind_eq_error_iff {x : Except ε α} {f : α → Except ε β} {e : ε} :
    (x >>= f) = .error e ↔ x = .error e ∨ ∃ a, x = .ok a ∧ f a = .error e := by
  cases x with
  | error e' => simp [bind, Except.bind]
  | ok a => simp [bind, Except.bind]

theorem check_bind_eq_ok_iff {x : Except ε Unit} {f : Unit → Except ε β}
    {b : β} : (x >>= f) = .ok b ↔ x = .ok () ∧ f () = .ok b := by
  rw [bind_eq_ok_iff]
  constructor
  · rintro ⟨⟨⟩, hx, hb⟩
    exact ⟨hx, hb⟩
  · rintro ⟨hx, hb⟩
    exact ⟨(), hx, hb⟩

theorem ite_bind {c : Prop} [Decidable c] {x y : Except ε α}
    {f : α → Except ε β} :
    (if c then x >>= f else y >>= f) = (if c then x else y) >>= f := by
  split <;> rfl

theorem map_eq_ok_iff {x : Except ε α} {f : α → β} {b : β} :
    f <$> x = .ok b ↔ ∃ a, x = .ok a ∧ f a = b := by
  cases x with
  | error e => simp [Functor.map, Except.map]
  | ok a => simp [Functor.map, Except.map]

theorem pure_eq_ok_iff {a b : α} : (pure a : Except ε α) = .ok b ↔ a = b := by
  simp [pure, Except.pure]

theorem mapError_eq_ok_iff {ε' : Type} {x : Except ε α} {f : ε → ε'} {a : α} :
    x.mapError f = .ok a ↔ x = .ok a := by
  cases x <;> simp [Except.mapError]

theorem toOption_eq_some_iff {x : Except ε α} {a : α} :
    x.toOption = some a ↔ x = .ok a := by
  cases x <;> simp [Except.toOption]

theorem mapM_eq_ok_iff {f : α → Except ε β} {as : List α} {bs : List β} :
    as.mapM f = .ok bs ↔ List.Forall₂ (fun a b => f a = .ok b) as bs := by
  induction as generalizing bs with
  | nil =>
      rw [List.mapM_nil, List.forall₂_nil_left_iff, pure_eq_ok_iff]
      exact eq_comm
  | cons a as ih =>
      simp only [List.mapM_cons, bind_eq_ok_iff, pure_eq_ok_iff, ih,
        List.forall₂_cons_left_iff]
      constructor
      · rintro ⟨b, hb, bs, hbs, rfl⟩
        exact ⟨b, bs, hb, hbs, rfl⟩
      · rintro ⟨b, bs, hb, hbs, rfl⟩
        exact ⟨b, hb, bs, hbs, rfl⟩

theorem exists_of_mem_forall₂ {R : α → β → Prop} {as : List α} {bs : List β}
    (h : List.Forall₂ R as bs) {b : β} (hb : b ∈ bs) : ∃ a ∈ as, R a b := by
  induction h with
  | nil => cases hb
  | cons head _ ih =>
      obtain rfl | hmem := List.mem_cons.mp hb
      · exact ⟨_, List.mem_cons_self, head⟩
      · obtain ⟨a, ha, hab⟩ := ih hmem
        exact ⟨a, List.mem_cons_of_mem _ ha, hab⟩

theorem mapM_congr_of_mem {f g : α → Except ε β} {as : List α}
    (h : ∀ a ∈ as, f a = g a) : as.mapM f = as.mapM g := by
  induction as with
  | nil => rfl
  | cons a as ih =>
      rw [List.mapM_cons, List.mapM_cons, h a List.mem_cons_self,
        ih fun b hb => h b (List.mem_cons_of_mem a hb)]

theorem forall₂_imp_of_mem {R S : α → β → Prop} {as : List α} {bs : List β}
    (h : List.Forall₂ R as bs) (hRS : ∀ a ∈ as, ∀ b ∈ bs, R a b → S a b) :
    List.Forall₂ S as bs := by
  induction h with
  | nil => exact .nil
  | cons head _ ih =>
      apply List.Forall₂.cons
      · exact hRS _ List.mem_cons_self _ List.mem_cons_self head
      · exact ih fun a ha b hb =>
          hRS a (List.mem_cons_of_mem _ ha) b (List.mem_cons_of_mem _ hb)

theorem exists_of_mem_mapM {f : α → Except ε β} {as : List α} {bs : List β}
    (h : as.mapM f = .ok bs) {b : β} (hb : b ∈ bs) : ∃ a ∈ as, f a = .ok b :=
  exists_of_mem_forall₂ (mapM_eq_ok_iff.mp h) hb

private theorem filterAuxM_eq_ok_iff {p : α → Except ε Bool}
    {as kept out : List α} :
    as.filterAuxM p kept = .ok out ↔
      (∀ a ∈ as, ∃ b, p a = .ok b) ∧
        out = (as.filter fun a => (p a).toOption = some true).reverse ++
        kept := by
  induction as generalizing kept with
  | nil => simp [List.filterAuxM, pure, Except.pure, eq_comm]
  | cons a as ih =>
      simp only [List.filterAuxM, bind_eq_ok_iff, ih, List.forall_mem_cons]
      cases hp : p a with
      | error e => simp
      | ok b => cases b <;> simp [hp, Except.toOption]

theorem filterM_eq_ok_iff {p : α → Except ε Bool} {as out : List α} :
    as.filterM p = .ok out ↔
      (∀ a ∈ as, ∃ b, p a = .ok b) ∧ out = as.filter fun a => (p a).toOption =
        some true := by
  simp only [List.filterM, bind_eq_ok_iff, filterAuxM_eq_ok_iff, pure_eq_ok_iff]
  constructor
  · rintro ⟨_, ⟨hall, rfl⟩, rfl⟩
    exact ⟨hall, by simp⟩
  · rintro ⟨hall, rfl⟩
    exact ⟨_, ⟨hall, rfl⟩, by simp⟩

theorem map_bind {x : Except ε α} {f : α → β} {g : β → Except ε γ} :
    (x.map f >>= g) = x >>= fun a => g (f a) := by
  cases x <;> rfl

theorem mapM_map {f : α → Except ε β} {g : β → γ} {as : List α} :
    (as.mapM fun a => (f a).map g) = (as.mapM f).map (List.map g) := by
  induction as with
  | nil => rfl
  | cons a as ih =>
      rw [List.mapM_cons, List.mapM_cons, ih]
      cases f a with
      | error e => rfl
      | ok b => cases as.mapM f <;> rfl

theorem filterM_map {p : β → Except ε Bool} {f : α → β} {as : List α} :
    (as.map f).filterM p = (as.filterM fun a => p (f a)).map (List.map f) := by
  have haux : ∀ kept, (as.map f).filterAuxM p (kept.map f) =
      (as.filterAuxM (fun a => p (f a)) kept).map (List.map f) := by
    induction as with
    | nil => exact fun kept => rfl
    | cons a as ih =>
        intro kept
        rw [List.map_cons, List.filterAuxM, List.filterAuxM]
        cases p (f a) with
        | error e => rfl
        | ok b =>
            cases b with
            | true => exact ih (a :: kept)
            | false => exact ih kept
  have hfilter := haux []
  rw [List.map_nil] at hfilter
  rw [List.filterM, List.filterM, hfilter, map_bind]
  cases as.filterAuxM (fun a => p (f a)) [] with
  | error e => rfl
  | ok kept => exact congrArg Except.ok List.map_reverse.symm

/-! ## Agreeing -/

/-- Both computations succeed, with related results, or both fail. -/
inductive Agree (R : α → β → Prop) : Except ε α → Except ε β → Prop
  | ok {a : α} {b : β} (h : R a b) : Agree R (.ok a) (.ok b)
  | error (e e' : ε) : Agree R (.error e) (.error e')

namespace Agree

variable {γ' : Type} {R : α → β → Prop} {S : γ → γ' → Prop} {x : Except ε α}
  {y : Except ε β}

theorem cases (h : Agree R x y) :
    (∃ a b, x = .ok a ∧ y = .ok b ∧ R a b) ∨ ∃ e e', x = .error e ∧
      y = .error e' := by
  cases h with
  | ok hab => exact .inl ⟨_, _, rfl, rfl, hab⟩
  | error e e' => exact .inr ⟨e, e', rfl, rfl⟩

theorem exists_left (h : Agree R x y) {b : β} (hy : y = .ok b) :
    ∃ a, x = .ok a ∧ R a b := by
  cases h with
  | ok hab =>
      cases hy
      exact ⟨_, rfl, hab⟩
  | error e e' => cases hy

theorem exists_right (h : Agree R x y) {a : α} (hx : x = .ok a) :
    ∃ b, y = .ok b ∧ R a b := by
  cases h with
  | ok hab =>
      cases hx
      exact ⟨_, rfl, hab⟩
  | error e e' => cases hx

theorem bind_of_ok (h : Agree R x y) {f : α → Except ε γ} {g : β → Except ε γ'}
    (hfg : ∀ a b, x = .ok a → y = .ok b → R a b → Agree S (f a) (g b)) :
    Agree S (x >>= f) (y >>= g) := by
  cases h with
  | ok hab => exact hfg _ _ rfl rfl hab
  | error e e' => exact .error e e'

theorem bind (h : Agree R x y) {f : α → Except ε γ} {g : β → Except ε γ'}
    (hfg : ∀ a b, R a b → Agree S (f a) (g b)) : Agree S (x >>= f) (y >>= g) :=
  h.bind_of_ok fun a b _ _ => hfg a b

theorem mono {R' : α → β → Prop} (h : Agree R x y)
    (hR : ∀ a b, R a b → R' a b) : Agree R' x y := by
  cases h with
  | ok hab => exact .ok (hR _ _ hab)
  | error e e' => exact .error e e'

theorem map (h : Agree R x y) {f : α → γ} {g : β → γ'}
    (hfg : ∀ a b, R a b → S (f a) (g b)) : Agree S (x.map f) (y.map g) := by
  cases h with
  | ok hab => exact .ok (hfg _ _ hab)
  | error e e' => exact .error e e'

theorem refl {R : α → α → Prop} (hR : ∀ a, R a a) (x : Except ε α) :
    Agree R x x := by
  cases x with
  | error e => exact .error e e
  | ok a => exact .ok (hR a)

theorem trans {R' : β → γ → Prop} {T : α → γ → Prop} {z : Except ε γ}
    (h : Agree R x y) (h' : Agree R' y z)
    (hT : ∀ a b c, R a b → R' b c → T a c) : Agree T x z := by
  cases h with
  | ok hab =>
      cases h' with
      | ok hbc => exact .ok (hT _ _ _ hab hbc)
  | error e e' =>
      cases h' with
      | error _ e'' => exact .error e e''

theorem of_imp (h : ∀ a, x = .ok a → ∃ b, y = .ok b ∧ R a b)
    (h' : ∀ b, y = .ok b → ∃ a, x = .ok a) : Agree R x y := by
  cases hx : x with
  | ok a =>
      obtain ⟨b, hy, hab⟩ := h a hx
      rw [hy]
      exact .ok hab
  | error e =>
      cases hy : y with
      | ok b =>
          obtain ⟨a, ha⟩ := h' b hy
          rw [hx] at ha
          cases ha
      | error e' => exact .error e e'

/-! ### Lists -/

theorem mapM {as : List α} {bs : List β} (h : List.Forall₂ R as bs)
    {f : α → Except ε γ} {g : β → Except ε γ'}
    (hfg : ∀ a ∈ as, ∀ b ∈ bs, R a b → Agree S (f a) (g b)) :
    Agree (List.Forall₂ S) (as.mapM f) (bs.mapM g) := by
  induction h with
  | nil => exact .ok .nil
  | cons head _ ih =>
      simp only [List.mapM_cons]
      apply (hfg _ List.mem_cons_self _ List.mem_cons_self head).bind
      intro c c' hc
      apply (ih fun a ha b hb =>
        hfg a (List.mem_cons_of_mem _ ha) b (List.mem_cons_of_mem _ hb)).bind
      intro cs cs' hcs
      exact .ok (.cons hc hcs)

theorem mapM_perm {as bs : List α} (h : as.Perm bs) (f : α → Except ε β) :
    Agree List.Perm (as.mapM f) (bs.mapM f) := by
  induction h with
  | nil => exact .ok .nil
  | cons a _ ih =>
      simp only [List.mapM_cons]
      cases f a with
      | error e => exact .error e e
      | ok b => exact ih.bind fun _ _ hbs => .ok (hbs.cons b)
  | swap a b rest =>
      simp only [List.mapM_cons]
      cases f a <;> cases f b <;> cases rest.mapM f
      case ok.ok.ok c d cs => exact .ok (.swap c d cs)
      all_goals exact .error _ _
  | trans _ _ ih ih' => exact ih.trans ih' fun _ _ _ => .trans

theorem filterM_perm {as bs : List α} (h : as.Perm bs) (p : α → Except ε Bool) :
    Agree List.Perm (as.filterM p) (bs.filterM p) := by
  apply of_imp
  · intro kept hkept
    rw [filterM_eq_ok_iff] at hkept
    rw [hkept.2]
    exact ⟨_, filterM_eq_ok_iff.mpr ⟨fun b hb => hkept.1 b (h.mem_iff.mpr hb),
      rfl⟩, h.filter _⟩
  · intro kept hkept
    rw [filterM_eq_ok_iff] at hkept
    exact ⟨_, filterM_eq_ok_iff.mpr
      ⟨fun a ha => hkept.1 a (h.mem_iff.mp ha), rfl⟩⟩

/-- The order of the steps does not matter if that of two steps does not. -/
theorem foldlM_perm {R : β → β → Prop} (hR : ∀ a b c, R a b → R b c → R a c)
    {f : β → α → Except ε β}
    (hstep : ∀ b b' a, R b b' → Agree R (f b a) (f b' a))
    (hswap : ∀ b a a', Agree R (f b a >>= (f · a')) (f b a' >>= (f · a)))
    (hrefl : ∀ b, R b b) {as as' : List α} (h : as.Perm as') (b : β) :
    Agree R (as.foldlM f b) (as'.foldlM f b) := by
  have hfold : ∀ (as : List α) b b', R b b' →
      Agree R (as.foldlM f b) (as.foldlM f b') := by
    intro as
    induction as with
    | nil => exact fun b b' hb => .ok hb
    | cons a as ih =>
        intro b b' hb
        simp only [List.foldlM_cons]
        exact (hstep b b' a hb).bind ih
  induction h generalizing b with
  | nil => exact .ok (hrefl b)
  | cons a _ ih =>
      simp only [List.foldlM_cons]
      cases f b a with
      | error e => exact .error e e
      | ok next => exact ih next
  | swap a a' rest =>
      simp only [List.foldlM_cons, ← bind_assoc]
      exact (hswap b a' a).bind (hfold rest)
  | trans _ _ ih ih' => exact (ih b).trans (ih' b) hR

end Agree

/-! ## Doing no worse -/

def Refines (x y : Except ε α) : Prop := ∀ a, x = .ok a → y = .ok a

namespace Refines

theorem refl (x : Except ε α) : Refines x x := fun _ h => h

theorem of_error (e : ε) (y : Except ε α) : Refines (.error e) y :=
  fun _ h => nomatch h

theorem bind {x y : Except ε α} {f g : α → Except ε β} (hxy : Refines x y)
    (hfg : ∀ a, Refines (f a) (g a)) : Refines (x >>= f) (y >>= g) := by
  intro b h
  obtain ⟨a, ha, hb⟩ := bind_eq_ok_iff.mp h
  exact bind_eq_ok_iff.mpr ⟨a, hxy a ha, hfg a b hb⟩

theorem mapM {f : α → Except ε β} {g : γ → Except ε β} {as : List α}
    {cs : List γ} (h : List.Forall₂ (fun a c => Refines (f a) (g c)) as cs) :
    Refines (as.mapM f) (cs.mapM g) := by
  induction h with
  | nil => exact refl _
  | cons head _ ih =>
      simp only [List.mapM_cons]
      exact bind head fun _ => bind ih fun _ => refl _

private theorem filterAuxM {p q : α → Except ε Bool} {as : List α}
    (h : ∀ a ∈ as, Refines (p a) (q a)) (kept : List α) :
    Refines (as.filterAuxM p kept) (as.filterAuxM q kept) := by
  induction as generalizing kept with
  | nil => exact refl _
  | cons a as ih =>
      exact bind (h a List.mem_cons_self) fun _ =>
        ih (fun b hb => h b (List.mem_cons_of_mem a hb)) _

theorem filterM {p q : α → Except ε Bool} {as : List α}
    (h : ∀ a ∈ as, Refines (p a) (q a)) :
    Refines (as.filterM p) (as.filterM q) :=
  bind (filterAuxM h []) fun _ => refl _

end Refines

end TableQuery
