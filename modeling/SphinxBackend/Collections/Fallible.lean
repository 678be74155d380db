import Mathlib.Data.List.Forall2

/-!
# Which check fails first

A sequence of fallible steps fails with the error of the first step that does. `errorOf` forgets
the value of a result and keeps its error, and through the ways in which steps are put together it
is a search for the first error: one after the other (`errorOf_bind`), over a list collecting the
values (`errorOf_mapM`), or over a list threading a state (`errorOf_foldlM`). The last two ask that
whether a step fails depends on the element alone.
-/

namespace Collections

variable {ε α β γ σ : Type}

/-- The error of a result, if it is one. -/
def errorOf : Except ε α → Option ε
  | .ok _ => none
  | .error e => some e

@[simp] theorem errorOf_pure (a : α) : errorOf (pure a : Except ε α) = none := rfl

theorem errorOf_eq_some_iff {x : Except ε α} {e : ε} : errorOf x = some e ↔ x = .error e := by
  cases x <;> simp [errorOf]

theorem errorOf_eq_none_iff {x : Except ε α} : errorOf x = none ↔ ∃ a, x = .ok a := by
  cases x <;> simp [errorOf]

@[simp] theorem errorOf_map (f : α → β) (x : Except ε α) : errorOf (x.map f) = errorOf x := by
  cases x <;> rfl

theorem errorOf_bind {x : Except ε α} {f : α → Except ε β} {o : Option ε}
    (h : ∀ a, errorOf (f a) = o) : errorOf (x >>= f) = (errorOf x).or o := by
  cases x with
  | ok a => exact h a
  | error e => rfl

/-- One step after the other succeeds if both do. -/
theorem bind_eq_ok_iff {x : Except ε α} {f : α → Except ε β} {b : β} :
    x >>= f = .ok b ↔ ∃ a, x = .ok a ∧ f a = .ok b := by
  cases x with
  | ok a =>
    constructor
    · intro h
      exact ⟨a, rfl, h⟩
    · rintro ⟨a', ha', h⟩
      rw [← Except.ok.inj ha'] at h
      exact h
  | error e =>
    constructor
    · intro h
      exact absurd h (by simp [bind, Except.bind])
    · rintro ⟨a, ha, -⟩
      exact absurd ha (by simp)

theorem map_eq_ok_iff {x : Except ε α} {f : α → β} {b : β} :
    x.map f = .ok b ↔ ∃ a, x = .ok a ∧ f a = b := by
  have hbind : x.map f = x >>= fun a ↦ .ok (f a) := by cases x <;> rfl
  rw [hbind, bind_eq_ok_iff]
  simp only [Except.ok.injEq]

theorem errorOf_mapM (f : α → Except ε β) (l : List α) :
    errorOf (l.mapM f) = l.findSome? fun a ↦ errorOf (f a) := by
  induction l with
  | nil => rfl
  | cons a l ih =>
    have htail (b : β) :
        errorOf (l.mapM f >>= fun bs ↦ pure (b :: bs)) = l.findSome? fun a ↦ errorOf (f a) := by
      rw [errorOf_bind fun _ ↦ errorOf_pure _, Option.or_none, ih]
    rw [List.mapM_cons, errorOf_bind htail, List.findSome?_cons]
    cases errorOf (f a) <;> rfl

/-- The values collected are the values, one by one. -/
theorem mapM_eq_ok_iff {f : α → Except ε β} {l : List α} {l' : List β} :
    l.mapM f = .ok l' ↔ List.Forall₂ (fun a b ↦ f a = .ok b) l l' := by
  induction l generalizing l' with
  | nil =>
    rw [List.mapM_nil, List.forall₂_nil_left_iff]
    exact ⟨fun h ↦ (Except.ok.inj h).symm, fun h ↦ congrArg _ h.symm⟩
  | cons a l ih =>
    rw [List.mapM_cons, List.forall₂_cons_left_iff, bind_eq_ok_iff]
    constructor
    · rintro ⟨b, hb, htail⟩
      obtain ⟨bs, hbs, h⟩ := bind_eq_ok_iff.mp htail
      exact ⟨b, bs, hb, ih.mp hbs, (Except.ok.inj h).symm⟩
    · rintro ⟨b, bs, hb, hbs, rfl⟩
      exact ⟨b, hb, bind_eq_ok_iff.mpr ⟨bs, ih.mpr hbs, rfl⟩⟩

/-- Collecting the values of some elements is choosing some of the values. -/
theorem mapM_filter {f : α → Except ε β} {p : α → Bool} {q : β → Bool} {l : List α} {l' : List β}
    (h : l.mapM f = .ok l') (hpq : ∀ a ∈ l, ∀ b, f a = .ok b → p a = q b) :
    (l.filter p).mapM f = .ok (l'.filter q) := by
  rw [mapM_eq_ok_iff] at h ⊢
  induction h with
  | nil => exact .nil
  | @cons a b l l' hab _ ih =>
    have hrest := ih fun x hx ↦ hpq x (List.mem_cons_of_mem a hx)
    have hhead : p a = q b := hpq a List.mem_cons_self b hab
    by_cases hq : q b = true
    · rw [List.filter_cons_of_pos (hhead.trans hq), List.filter_cons_of_pos hq]
      exact .cons hab hrest
    · rw [List.filter_cons_of_neg (hhead ▸ hq), List.filter_cons_of_neg hq]
      exact hrest

/-- Related elements with the same values give the same list. -/
theorem mapM_congr_of_forall₂ {R : α → β → Prop} {f : α → Except ε σ} {g : β → Except ε σ}
    {l : List α} {l' : List β} (h : ∀ a ∈ l, ∀ b, R a b → f a = g b) (hl : List.Forall₂ R l l') :
    l.mapM f = l'.mapM g := by
  induction hl with
  | nil => rfl
  | cons hab _ ih =>
    rw [List.mapM_cons, List.mapM_cons, h _ List.mem_cons_self _ hab,
      ih fun x hx ↦ h x (List.mem_cons_of_mem _ hx)]

/-- Related elements with related values give related lists. -/
theorem forall₂_of_mapM {S : α → σ → Prop} {R : β → γ → Prop} {f : α → Except ε β}
    {g : σ → Except ε γ} (h : ∀ a s, S a s → ∀ b c, f a = .ok b → g s = .ok c → R b c)
    {l : List α} {l' : List σ} (hl : List.Forall₂ S l l') {bs : List β} {cs : List γ}
    (hf : l.mapM f = .ok bs) (hg : l'.mapM g = .ok cs) : List.Forall₂ R bs cs := by
  rw [mapM_eq_ok_iff] at hf hg
  induction hl generalizing bs cs with
  | nil =>
    rw [List.forall₂_nil_left_iff.mp hf, List.forall₂_nil_left_iff.mp hg]
    exact .nil
  | cons has _ ih =>
    obtain ⟨b, bs, hb, hbs, rfl⟩ := List.forall₂_cons_left_iff.mp hf
    obtain ⟨c, cs, hc, hcs, rfl⟩ := List.forall₂_cons_left_iff.mp hg
    exact .cons (h _ _ has b c hb hc) (ih hbs hcs)

/-- Elements at the same place are related. -/
theorem forall₂_zipIdx {S : α → σ → Prop} {l : List α} {l' : List σ} (h : List.Forall₂ S l l')
    (n : ℕ) : List.Forall₂ (fun p q ↦ S p.1 q.1 ∧ p.2 = q.2) (l.zipIdx n) (l'.zipIdx n) := by
  induction h generalizing n with
  | nil => exact .nil
  | cons hab _ ih => exact .cons ⟨hab, rfl⟩ (ih (n + 1))

theorem exists_mem_of_forall₂ {R : α → β → Prop} {l : List α} {l' : List β}
    (h : List.Forall₂ R l l') {a : α} (ha : a ∈ l) : ∃ b ∈ l', R a b := by
  induction h with
  | nil => exact absurd ha List.not_mem_nil
  | cons hab _ ih =>
    rcases List.mem_cons.mp ha with rfl | ha
    · exact ⟨_, List.mem_cons_self, hab⟩
    · obtain ⟨b, hb, hR⟩ := ih ha
      exact ⟨b, List.mem_cons_of_mem _ hb, hR⟩

/-- What related elements have in common holds of all of one list if it does of the other. -/
theorem forall_mem_iff_of_forall₂ {R : α → β → Prop} {P : α → Prop} {Q : β → Prop}
    (h : ∀ a b, R a b → (P a ↔ Q b)) {l : List α} {l' : List β} (hl : List.Forall₂ R l l') :
    (∀ a ∈ l, P a) ↔ ∀ b ∈ l', Q b := by
  induction hl with
  | nil => exact iff_of_true (List.forall_mem_nil P) (List.forall_mem_nil Q)
  | cons hab _ ih => rw [List.forall_mem_cons, List.forall_mem_cons, h _ _ hab, ih]

theorem exists_mem_iff_of_forall₂ {R : α → β → Prop} {P : α → Prop} {Q : β → Prop}
    (h : ∀ a b, R a b → (P a ↔ Q b)) {l : List α} {l' : List β} (hl : List.Forall₂ R l l') :
    (∃ a ∈ l, P a) ↔ ∃ b ∈ l', Q b := by
  have hnone := forall_mem_iff_of_forall₂ (fun a b hab ↦ not_congr (h a b hab)) hl
  simpa only [not_forall, exists_prop, not_not] using not_congr hnone

theorem mapM_exists_ok {f : α → Except ε β} {l : List α} (h : ∀ a ∈ l, ∃ b, f a = .ok b) :
    ∃ l', l.mapM f = .ok l' := by
  induction l with
  | nil => exact ⟨[], rfl⟩
  | cons a l ih =>
    obtain ⟨b, hb⟩ := h a List.mem_cons_self
    obtain ⟨bs, hbs⟩ := ih fun x hx ↦ h x (List.mem_cons_of_mem a hx)
    exact ⟨b :: bs, by rw [List.mapM_cons, hb, hbs]; rfl⟩

theorem mapM_append_ok {f : α → Except ε β} {l₁ l₂ : List α} {r₁ r₂ : List β}
    (h₁ : l₁.mapM f = .ok r₁) (h₂ : l₂.mapM f = .ok r₂) :
    (l₁ ++ l₂).mapM f = .ok (r₁ ++ r₂) := by
  rw [List.mapM_append, h₁, h₂]
  rfl

/-- Going through a list by its indices. -/
theorem mapM_range'_eq {f : α → Except ε β} {g : ℕ → Except ε β} {l : List α} {n : ℕ}
    (h : ∀ k a, l[k]? = some a → g (n + k) = f a) :
    (List.range' n l.length).mapM g = l.mapM f := by
  induction l generalizing n with
  | nil => rfl
  | cons a l ih =>
    have htail : (List.range' (n + 1) l.length).mapM g = l.mapM f := ih fun k b hb ↦ by
      rw [Nat.add_assoc, Nat.add_comm 1 k]
      exact h (k + 1) b hb
    have hhead : g n = f a := h 0 a rfl
    rw [List.length_cons, List.range'_succ, List.mapM_cons, List.mapM_cons, hhead, htail]

theorem errorOf_foldlM {f : σ → α → Except ε σ} {err : α → Option ε} {l : List α}
    (h : ∀ s, ∀ a ∈ l, errorOf (f s a) = err a) (s : σ) :
    errorOf (l.foldlM f s) = l.findSome? err := by
  induction l generalizing s with
  | nil => rfl
  | cons a l ih =>
    rw [List.foldlM_cons,
      errorOf_bind fun s' ↦ ih (fun s b hb ↦ h s b (List.mem_cons_of_mem a hb)) s',
      h s a List.mem_cons_self, List.findSome?_cons]
    cases err a <;> rfl

theorem findSome?_flatMap (f : α → List β) (g : β → Option ε) (l : List α) :
    (l.flatMap f).findSome? g = l.findSome? fun a ↦ (f a).findSome? g := by
  induction l with
  | nil => rfl
  | cons a l ih =>
    rw [List.flatMap_cons, List.findSome?_append, ih, List.findSome?_cons]
    cases (f a).findSome? g <;> rfl

/-- Before each element with `P` there is one with `Q`. -/
def Preceded (P Q : α → Prop) (l : List α) : Prop :=
  ∀ before a after, l = before ++ a :: after → P a → ∃ b ∈ before, Q b

theorem preceded_of_forall_not {P Q : α → Prop} {l : List α} (h : ∀ a ∈ l, ¬P a) :
    Preceded P Q l := by
  rintro before a after rfl ha
  exact absurd ha (h a (List.mem_append_right _ List.mem_cons_self))

/-- The first error is not one of `P` exactly when some other error comes before each of those. -/
theorem findSome?_avoids_iff {f : α → Option ε} {P : ε → Prop} {l : List α} :
    (∀ e, l.findSome? f = some e → ¬P e) ↔
      Preceded (fun a ↦ ∃ e, P e ∧ f a = some e) (fun a ↦ ∃ e, ¬P e ∧ f a = some e) l := by
  constructor
  · rintro havoids before a after rfl ⟨e, hP, ha⟩
    rw [List.findSome?_append, List.findSome?_cons, ha] at havoids
    cases hfirst : before.findSome? f with
    | none => exact absurd hP (havoids e (by rw [hfirst]; rfl))
    | some e' =>
      obtain ⟨b, hb, hfb⟩ := List.exists_of_findSome?_eq_some hfirst
      exact ⟨b, hb, e', havoids e' (by rw [hfirst]; rfl), hfb⟩
  · intro h e hsome hP
    obtain ⟨before, a, after, rfl, ha, hnone⟩ := List.findSome?_eq_some_iff.mp hsome
    obtain ⟨b, hb, e', -, hfb⟩ := h before a after rfl ⟨e, hP, ha⟩
    rw [hnone b hb] at hfb
    exact absurd hfb (by simp)

end Collections
