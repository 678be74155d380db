import Mathlib.Data.List.Forall2
import Mathlib.Logic.Relation

/-!
# Programs that talk to a service

A `Program` is a finite tree of requests: it returns, it throws, or it sends a request and goes on
with whatever response comes back. Nothing is said here about who answers. That makes one
definition of a program usable under every reading of it: against a fixed stream of responses,
against a state machine, or interleaved with other programs at one service.

The trace of a run is the list of requests sent, each with its response. A run splits into two
independent halves:

- `Follows p t q`, which is about the program only: along `t` it sends exactly the requests of
  `t` and is left at `q`;
- `Chain step s t s'`, which is about the service only: it can answer the requests of `t` in this
  way, moving from `s` to `s'`.

`Runs` is the conjunction at a finished program. The same `Follows` is what a client of a shared
service does between the steps of the other clients, so a fact about `Follows` holds under every
interleaving.
-/

namespace Interaction

/-- A program over requests `Op`, responses `Res`, exceptions `Err` and results `α`. -/
inductive Program (Op Res Err α : Type) where
  | pure (a : α)
  | throw (e : Err)
  | call (op : Op) (k : Res → Program Op Res Err α)

namespace Program

variable {Op Res Err α β γ : Type}

/-! ## The monad -/

/-- Sequencing: an exception skips the rest. -/
def bind : Program Op Res Err α → (α → Program Op Res Err β) → Program Op Res Err β
  | .pure a, f => f a
  | .throw e, _ => .throw e
  | .call op k, f => .call op fun r ↦ (k r).bind f

instance : Monad (Program Op Res Err) where
  pure := .pure
  bind := .bind

@[simp] theorem pure_bind (a : α) (f : α → Program Op Res Err β) :
    (Program.pure a : Program Op Res Err α) >>= f = f a := rfl

@[simp] theorem throw_bind (e : Err) (f : α → Program Op Res Err β) :
    (Program.throw e : Program Op Res Err α) >>= f = .throw e := rfl

@[simp] theorem call_bind (op : Op) (k : Res → Program Op Res Err α)
    (f : α → Program Op Res Err β) :
    (Program.call op k) >>= f = .call op fun r ↦ k r >>= f := rfl

theorem bind_pure_eq (p : Program Op Res Err α) : p.bind .pure = p := by
  induction p with
  | pure a => rfl
  | throw e => rfl
  | call op k ih => exact congrArg (Program.call op) (funext ih)

theorem bind_assoc_eq (p : Program Op Res Err α) (f : α → Program Op Res Err β)
    (g : β → Program Op Res Err γ) : (p.bind f).bind g = p.bind fun a ↦ (f a).bind g := by
  induction p with
  | pure a => rfl
  | throw e => rfl
  | call op k ih => exact congrArg (Program.call op) (funext ih)

instance : LawfulMonad (Program Op Res Err) :=
  LawfulMonad.mk' _ (fun p ↦ bind_pure_eq p) (fun _ _ ↦ rfl) (fun p f g ↦ bind_assoc_eq p f g)

/-- A finished program, as the result it ended with. -/
def ofExcept : Except Err α → Program Op Res Err α
  | .ok a => .pure a
  | .error e => .throw e

@[simp] theorem ofExcept_ok (a : α) : (ofExcept (.ok a) : Program Op Res Err α) = .pure a := rfl

@[simp] theorem ofExcept_error (e : Err) :
    (ofExcept (.error e) : Program Op Res Err α) = .throw e := rfl

theorem ofExcept_injective :
    Function.Injective (ofExcept : Except Err α → Program Op Res Err α) := by
  rintro (e | a) (e' | a') h <;> simp_all [ofExcept]

/-! ## What a program does along a trace -/

/-- Along the trace, `p` sends exactly its requests and is left at `q` by its responses. -/
inductive Follows : Program Op Res Err α → List (Op × Res) → Program Op Res Err α → Prop
  | nil (p : Program Op Res Err α) : Follows p [] p
  | cons {op : Op} {k : Res → Program Op Res Err α} {r : Res} {t : List (Op × Res)}
      {q : Program Op Res Err α} : Follows (k r) t q → Follows (.call op k) ((op, r) :: t) q

@[simp] theorem follows_nil_iff {p q : Program Op Res Err α} : Follows p [] q ↔ q = p := by
  constructor
  · rintro ⟨⟩; rfl
  · rintro rfl; exact .nil _

@[simp] theorem follows_call_cons_iff {op op' : Op} {r : Res} {k : Res → Program Op Res Err α}
    {t : List (Op × Res)} {q : Program Op Res Err α} :
    Follows (.call op k) ((op', r) :: t) q ↔ op' = op ∧ Follows (k r) t q := by
  constructor
  · rintro (_ | h); exact ⟨rfl, h⟩
  · rintro ⟨rfl, h⟩; exact .cons h

@[simp] theorem follows_pure_iff {a : α} {t : List (Op × Res)} {q : Program Op Res Err α} :
    Follows (.pure a) t q ↔ t = [] ∧ q = .pure a := by
  constructor
  · rintro ⟨⟩; exact ⟨rfl, rfl⟩
  · rintro ⟨rfl, rfl⟩; exact .nil _

@[simp] theorem follows_throw_iff {e : Err} {t : List (Op × Res)} {q : Program Op Res Err α} :
    Follows (.throw e) t q ↔ t = [] ∧ q = .throw e := by
  constructor
  · rintro ⟨⟩; exact ⟨rfl, rfl⟩
  · rintro ⟨rfl, rfl⟩; exact .nil _

theorem follows_ofExcept_iff {x : Except Err α} {t : List (Op × Res)} {q : Program Op Res Err α} :
    Follows (ofExcept x) t q ↔ t = [] ∧ q = ofExcept x := by
  cases x with
  | ok a => exact follows_pure_iff
  | error e => exact follows_throw_iff

theorem Follows.append {p q r : Program Op Res Err α} {t u : List (Op × Res)}
    (h : Follows p t q) (h' : Follows q u r) : Follows p (t ++ u) r := by
  induction h with
  | nil p => exact h'
  | cons _ ih => exact .cons (ih h')

/-- A trace can be cut anywhere. -/
theorem Follows.split {p r : Program Op Res Err α} {t u : List (Op × Res)}
    (h : Follows p (t ++ u) r) : ∃ q, Follows p t q ∧ Follows q u r := by
  induction t generalizing p with
  | nil => exact ⟨p, .nil p, h⟩
  | cons x t ih =>
    obtain ⟨op, res⟩ := x
    cases h with
    | cons h =>
      obtain ⟨q, hq, hr⟩ := ih h
      exact ⟨q, .cons hq, hr⟩

/-- The program part of sequencing: the first program returns and the second one takes over. -/
theorem Follows.bind {p : Program Op Res Err α} {f : α → Program Op Res Err β} {a : α}
    {t u : List (Op × Res)} {q : Program Op Res Err β} (h : Follows p t (.pure a))
    (h' : Follows (f a) u q) : Follows (p >>= f) (t ++ u) q := by
  generalize hp : (Program.pure a : Program Op Res Err α) = pa at h
  induction h with
  | nil p => subst hp; exact h'
  | cons _ ih => exact .cons (ih hp)

/-- A result that is changed afterwards. -/
theorem Follows.bind_pure {p : Program Op Res Err α} {a : α} {t : List (Op × Res)}
    (h : Follows p t (.pure a)) (g : α → β) :
    Follows (p >>= fun x ↦ .pure (g x)) t (.pure (g a)) := by
  have hnil : Follows ((fun x ↦ Program.pure (g x)) a : Program Op Res Err β) [] (.pure (g a)) :=
    .nil _
  rw [← List.append_nil t]
  exact h.bind hnil

theorem Follows.bind_throw {p : Program Op Res Err α} {f : α → Program Op Res Err β} {e : Err}
    {t : List (Op × Res)} (h : Follows p t (.throw e)) : Follows (p >>= f) t (.throw e) := by
  generalize hp : (Program.throw e : Program Op Res Err α) = pe at h
  induction h with
  | nil p => subst hp; exact .nil _
  | cons _ ih => exact .cons (ih hp)

/-- A finished program that sends a request has sent it. -/
theorem follows_call_ofExcept {op : Op} {k : Res → Program Op Res Err α} {t : List (Op × Res)}
    {x : Except Err α} (h : Follows (.call op k) t (ofExcept x)) :
    ∃ r u, t = (op, r) :: u ∧ Follows (k r) u (ofExcept x) := by
  cases t with
  | nil => cases x <;> exact absurd (follows_nil_iff.mp h) (by simp)
  | cons y t =>
    obtain ⟨op', r⟩ := y
    obtain ⟨rfl, hk⟩ := follows_call_cons_iff.mp h
    exact ⟨r, t, rfl, hk⟩

/-- Inversion of a finished sequencing. -/
theorem follows_bind_ofExcept {p : Program Op Res Err α} {f : α → Program Op Res Err β}
    {t : List (Op × Res)} {x : Except Err β} (h : Follows (p >>= f) t (ofExcept x)) :
    (∃ e, x = .error e ∧ Follows p t (.throw e)) ∨
      ∃ a t₁ t₂, t = t₁ ++ t₂ ∧ Follows p t₁ (.pure a) ∧ Follows (f a) t₂ (ofExcept x) := by
  induction p generalizing t with
  | pure a => exact .inr ⟨a, [], t, rfl, .nil _, h⟩
  | throw e =>
    obtain ⟨rfl, hx⟩ := follows_throw_iff.mp h
    exact .inl ⟨e, ofExcept_injective hx, .nil _⟩
  -- the first request of a sequencing is that of its first program
  | call op k ih =>
    rw [call_bind] at h
    obtain ⟨r, u, rfl, hk⟩ := follows_call_ofExcept h
    rcases ih r hk with ⟨e, rfl, he⟩ | ⟨a, t₁, t₂, rfl, h₁, h₂⟩
    · exact .inl ⟨e, rfl, .cons he⟩
    · exact .inr ⟨a, (op, r) :: t₁, t₂, rfl, .cons h₁, h₂⟩

/-- Inversion of a sequencing that has returned: both programs have. -/
theorem Follows.of_bind {p : Program Op Res Err α} {f : α → Program Op Res Err β} {b : β}
    {t : List (Op × Res)} (h : Follows (p >>= f) t (.pure b)) :
    ∃ a t₁ t₂, t = t₁ ++ t₂ ∧ Follows p t₁ (.pure a) ∧ Follows (f a) t₂ (.pure b) := by
  rcases follows_bind_ofExcept (x := .ok b) h with ⟨e, he, -⟩ | h
  · exact absurd he (by simp)
  · exact h

/-- Inversion of a result that is changed afterwards. -/
theorem Follows.of_bind_pure {p : Program Op Res Err α} {g : α → β} {b : β} {t : List (Op × Res)}
    (h : Follows (p >>= fun x ↦ .pure (g x)) t (.pure b)) :
    ∃ a, Follows p t (.pure a) ∧ b = g a := by
  obtain ⟨a, t₁, t₂, rfl, h₁, h₂⟩ := h.of_bind
  obtain ⟨rfl, hb⟩ := follows_pure_iff.mp h₂
  rw [List.append_nil]
  exact ⟨a, h₁, Program.pure.inj hb⟩

/-! ## Properties that sequencing keeps -/

/-- `P` holds of a program that has returned, and of a sequencing if it holds of its parts. -/
structure BindClosed (P : ∀ α : Type, Program Op Res Err α → Prop) : Prop where
  pure : ∀ {α : Type} (a : α), P α (.pure a)
  bind : ∀ {α β : Type} {p : Program Op Res Err α} {f : α → Program Op Res Err β},
    P α p → (∀ a, P β (f a)) → P β (p >>= f)

/-- Such a property passes from one element to a list of them. -/
theorem BindClosed.many {P : ∀ α : Type, Program Op Res Err α → Prop} (hP : BindClosed P)
    {one : α → Program Op Res Err β} {many : List α → Program Op Res Err (List β)}
    (hnil : many [] = .pure [])
    (hcons : ∀ a as, many (a :: as) = one a >>= fun b ↦ many as >>= fun bs ↦ .pure (b :: bs))
    (h : ∀ a, P β (one a)) (as : List α) : P (List β) (many as) := by
  induction as with
  | nil =>
    rw [hnil]
    exact hP.pure []
  | cons a as ih =>
    rw [hcons]
    exact hP.bind (h a) fun b ↦ hP.bind ih fun bs ↦ hP.pure (b :: bs)

/-! ## Runs against a service

A service is a step relation: from a state it can answer a request by moving to a state with a
response. It may have a choice. -/

section Service

variable {σ : Type} (step : σ → Op → σ → Res → Prop)

/-- The service can answer the requests of the trace with its responses. -/
inductive Chain : σ → List (Op × Res) → σ → Prop
  | nil (s : σ) : Chain s [] s
  | cons {s s' s'' : σ} {op : Op} {r : Res} {t : List (Op × Res)} :
      step s op s' r → Chain s' t s'' → Chain s ((op, r) :: t) s''

/-- `p`, started with the service at `s`, can send and receive `t` and end with `x`, leaving the
service at `s'`. -/
def Runs (s : σ) (p : Program Op Res Err α) (t : List (Op × Res)) (s' : σ) (x : Except Err α) :
    Prop :=
  Follows p t (ofExcept x) ∧ Chain step s t s'

/-- Whatever the service chooses, `p` ends with `x` and leaves the service at `s'`; and it does
end. -/
def Yields (s : σ) (p : Program Op Res Err α) (s' : σ) (x : Except Err α) : Prop :=
  (∃ t, Runs step s p t s' x) ∧ ∀ t s'' y, Runs step s p t s'' y → s'' = s' ∧ y = x

variable {step}

@[simp] theorem chain_nil_iff {s s' : σ} : Chain step s [] s' ↔ s' = s := by
  constructor
  · rintro ⟨⟩; rfl
  · rintro rfl; exact .nil _

theorem chain_cons_iff {s s'' : σ} {op : Op} {r : Res} {t : List (Op × Res)} :
    Chain step s ((op, r) :: t) s'' ↔ ∃ s', step s op s' r ∧ Chain step s' t s'' := by
  constructor
  · rintro (_ | ⟨h, h'⟩); exact ⟨_, h, h'⟩
  · rintro ⟨s', h, h'⟩; exact .cons h h'

theorem chain_append_iff {s s'' : σ} {t u : List (Op × Res)} :
    Chain step s (t ++ u) s'' ↔ ∃ s', Chain step s t s' ∧ Chain step s' u s'' := by
  induction t generalizing s with
  | nil => simp
  | cons x t ih =>
    obtain ⟨op, r⟩ := x
    simp only [List.cons_append, chain_cons_iff, ih]
    constructor
    · rintro ⟨s₁, h, s₂, h', h''⟩; exact ⟨s₂, ⟨s₁, h, h'⟩, h''⟩
    · rintro ⟨s₂, ⟨s₁, h, h'⟩, h''⟩; exact ⟨s₁, h, s₂, h', h''⟩

/-- Every pair of a trace is an answer the service gave at some state. -/
theorem Chain.answered {s s' : σ} {t : List (Op × Res)} (h : Chain step s t s') :
    ∀ x ∈ t, ∃ s₁ s₂, step s₁ x.1 s₂ x.2 := by
  induction h with
  | nil s => exact List.forall_mem_nil _
  | cons h _ ih => exact List.forall_mem_cons.mpr ⟨⟨_, _, h⟩, ih⟩

/-- What a program yields is determined. -/
theorem Yields.unique {s s' s'' : σ} {p : Program Op Res Err α} {x y : Except Err α}
    (h : Yields step s p s' x) (h' : Yields step s p s'' y) : s'' = s' ∧ y = x := by
  obtain ⟨t, ht⟩ := h'.1
  exact h.2 t s'' y ht

theorem runs_pure_iff {s s' : σ} {a : α} {t : List (Op × Res)} {x : Except Err α} :
    Runs step s (.pure a) t s' x ↔ t = [] ∧ s' = s ∧ x = .ok a := by
  rw [Runs, ← ofExcept_ok, follows_ofExcept_iff]
  constructor
  · rintro ⟨⟨rfl, hx⟩, h⟩; exact ⟨rfl, chain_nil_iff.mp h, ofExcept_injective hx⟩
  · rintro ⟨rfl, rfl, rfl⟩; exact ⟨⟨rfl, rfl⟩, .nil _⟩

theorem runs_throw_iff {s s' : σ} {e : Err} {t : List (Op × Res)} {x : Except Err α} :
    Runs step s (.throw e) t s' x ↔ t = [] ∧ s' = s ∧ x = .error e := by
  rw [Runs, ← ofExcept_error, follows_ofExcept_iff]
  constructor
  · rintro ⟨⟨rfl, hx⟩, h⟩; exact ⟨rfl, chain_nil_iff.mp h, ofExcept_injective hx⟩
  · rintro ⟨rfl, rfl, rfl⟩; exact ⟨⟨rfl, rfl⟩, .nil _⟩

theorem runs_call_iff {s s' : σ} {op : Op} {k : Res → Program Op Res Err α}
    {t : List (Op × Res)} {x : Except Err α} :
    Runs step s (.call op k) t s' x ↔
      ∃ r s₁ u, t = (op, r) :: u ∧ step s op s₁ r ∧ Runs step s₁ (k r) u s' x := by
  constructor
  · rintro ⟨h, h'⟩
    obtain ⟨r, u, rfl, hk⟩ := follows_call_ofExcept h
    obtain ⟨s₁, hs, ht⟩ := chain_cons_iff.mp h'
    exact ⟨r, s₁, u, rfl, hs, hk, ht⟩
  · rintro ⟨r, s₁, u, rfl, hs, hk, ht⟩
    exact ⟨.cons hk, .cons hs ht⟩

/-- A run followed by something that sends no requests. -/
theorem runs_bind_ofExcept_iff {s s' : σ} {p : Program Op Res Err α} {g : α → Except Err β}
    {t : List (Op × Res)} {x : Except Err β} :
    Runs step s (p >>= fun a ↦ ofExcept (g a)) t s' x ↔
      ∃ y, Runs step s p t s' y ∧ x = y.bind g := by
  constructor
  · rintro ⟨h, h'⟩
    rcases follows_bind_ofExcept h with ⟨e, rfl, he⟩ | ⟨a, t₁, t₂, rfl, h₁, h₂⟩
    · exact ⟨.error e, ⟨he, h'⟩, rfl⟩
    · obtain ⟨rfl, hx⟩ := follows_ofExcept_iff.mp h₂
      rw [List.append_nil] at h' ⊢
      exact ⟨.ok a, ⟨h₁, h'⟩, ofExcept_injective hx⟩
  · rintro ⟨y, ⟨h, h'⟩, rfl⟩
    refine ⟨?_, h'⟩
    cases y with
    | error e => exact h.bind_throw
    | ok a =>
      have hnil : Follows ((fun a ↦ ofExcept (g a)) a : Program Op Res Err β) []
          (ofExcept (g a)) := .nil _
      rw [← List.append_nil t]
      exact Follows.bind h hnil

theorem Yields.bind_ofExcept {s s' : σ} {p : Program Op Res Err α} {x : Except Err α}
    (h : Yields step s p s' x) (g : α → Except Err β) :
    Yields step s (p >>= fun a ↦ ofExcept (g a)) s' (x.bind g) := by
  obtain ⟨⟨t, hrun⟩, hunique⟩ := h
  refine ⟨⟨t, runs_bind_ofExcept_iff.mpr ⟨x, hrun, rfl⟩⟩, fun t s'' y hy ↦ ?_⟩
  obtain ⟨x', hx', rfl⟩ := runs_bind_ofExcept_iff.mp hy
  obtain ⟨rfl, rfl⟩ := hunique _ _ _ hx'
  exact ⟨rfl, rfl⟩

theorem runs_ofExcept_bind_iff {s s' : σ} {y : Except Err α} {f : α → Program Op Res Err β}
    {t : List (Op × Res)} {x : Except Err β} :
    Runs step s (ofExcept y >>= f) t s' x ↔
      (∃ e, y = .error e ∧ t = [] ∧ s' = s ∧ x = .error e) ∨
        ∃ a, y = .ok a ∧ Runs step s (f a) t s' x := by
  cases y with
  | error e =>
    rw [ofExcept_error, throw_bind, runs_throw_iff]
    simp
  | ok a =>
    rw [ofExcept_ok, pure_bind]
    simp

end Service

/-! ## Programs that stop at a failed request -/

/-- After a response that `fails` calls an exception, the program throws that exception, wherever
in the program the request was sent. -/
inductive FailFast (fails : Res → Option Err) : Program Op Res Err α → Prop
  | pure (a : α) : FailFast fails (.pure a)
  | throw (e : Err) : FailFast fails (.throw e)
  | call {op : Op} {k : Res → Program Op Res Err α} :
      (∀ r e, fails r = some e → k r = .throw e) →
      (∀ r, fails r = none → FailFast fails (k r)) → FailFast fails (.call op k)

theorem FailFast.bind {fails : Res → Option Err} {p : Program Op Res Err α}
    {f : α → Program Op Res Err β} (hp : FailFast fails p) (hf : ∀ a, FailFast fails (f a)) :
    FailFast fails (p >>= f) := by
  induction hp with
  | pure a => exact hf a
  | throw e => exact .throw e
  | @call op k hfail _ ih =>
    refine .call (fun r e hr ↦ ?_) ih
    rw [hfail r e hr]
    rfl

theorem FailFast.bindClosed (fails : Res → Option Err) :
    BindClosed fun α ↦ (FailFast fails : Program Op Res Err α → Prop) :=
  ⟨.pure, .bind⟩

theorem FailFast.ofExcept {fails : Res → Option Err} (x : Except Err α) :
    FailFast fails (Program.ofExcept x : Program Op Res Err α) := by
  cases x with
  | ok a => exact .pure a
  | error e => exact .throw e

/-- The traces of such a program: every response is good, or the last one alone is not and the
program has thrown what it stands for. -/
theorem FailFast.trace_cases {fails : Res → Option Err} {p q : Program Op Res Err α}
    {t : List (Op × Res)} (hp : FailFast fails p) (h : Follows p t q) :
    (∀ x ∈ t, fails x.2 = none) ∨
      ∃ u op r e, t = u ++ [(op, r)] ∧ (∀ x ∈ u, fails x.2 = none) ∧ fails r = some e ∧
        q = .throw e := by
  induction h with
  | nil p => exact .inl (List.forall_mem_nil _)
  | @cons op k r t q h ih =>
    cases hp with
    | call hfail hgood =>
      cases hr : fails r with
      | some e =>
        -- the program is finished here, so the rest of the trace is empty
        rw [hfail r e hr, follows_throw_iff] at h
        obtain ⟨rfl, rfl⟩ := h
        exact .inr ⟨[], op, r, e, rfl, List.forall_mem_nil _, hr, rfl⟩
      | none =>
        rcases ih (hgood r hr) with hall | ⟨u, op', r', e, rfl, hall, hr', rfl⟩
        · exact .inl (List.forall_mem_cons.mpr ⟨hr, hall⟩)
        · exact .inr ⟨(op, r) :: u, op', r', e, rfl, List.forall_mem_cons.mpr ⟨hr, hall⟩, hr', rfl⟩

/-- Had a response failed instead, the program would have thrown there. -/
theorem FailFast.follows_fail {fails : Res → Option Err} {p q : Program Op Res Err α}
    {t u : List (Op × Res)} {op : Op} {r r' : Res} {e : Err} (hp : FailFast fails p)
    (h : Follows p (t ++ (op, r) :: u) q) (ht : ∀ x ∈ t, fails x.2 = none)
    (hr' : fails r' = some e) : Follows p (t ++ [(op, r')]) (.throw e) := by
  induction t generalizing p with
  | nil =>
    cases hp with
    | pure a => exact absurd (follows_pure_iff.mp h).1 (by simp)
    | throw e => exact absurd (follows_throw_iff.mp h).1 (by simp)
    | call hfail _ =>
      obtain ⟨rfl, -⟩ := follows_call_cons_iff.mp h
      rw [List.nil_append, follows_call_cons_iff]
      exact ⟨rfl, by rw [hfail r' e hr']; exact .nil _⟩
  | cons x t ih =>
    cases hp with
    | pure a => exact absurd (follows_pure_iff.mp h).1 (by simp)
    | throw e => exact absurd (follows_throw_iff.mp h).1 (by simp)
    | call _ hgood =>
      obtain ⟨rfl, hk⟩ := follows_call_cons_iff.mp h
      rw [List.cons_append, follows_call_cons_iff]
      exact ⟨rfl, ih (hgood _ (ht x List.mem_cons_self)) hk fun y hy ↦
        ht y (List.mem_cons_of_mem x hy)⟩

/-! ## Programs that send only certain requests -/

/-- Every request the program can ever send satisfies `P`. -/
inductive Sends (P : Op → Prop) : Program Op Res Err α → Prop
  | pure (a : α) : Sends P (.pure a)
  | throw (e : Err) : Sends P (.throw e)
  | call {op : Op} {k : Res → Program Op Res Err α} :
      P op → (∀ r, Sends P (k r)) → Sends P (.call op k)

theorem Sends.ofExcept {P : Op → Prop} (x : Except Err α) :
    Sends P (Program.ofExcept x : Program Op Res Err α) := by
  cases x with
  | ok a => exact .pure a
  | error e => exact .throw e

theorem Sends.imp {P Q : Op → Prop} {p : Program Op Res Err α} (hp : Sends P p)
    (h : ∀ op, P op → Q op) : Sends Q p := by
  induction hp with
  | pure a => exact .pure a
  | throw e => exact .throw e
  | call hop _ ih => exact .call (h _ hop) ih

theorem Sends.bind {P : Op → Prop} {p : Program Op Res Err α} {f : α → Program Op Res Err β}
    (hp : Sends P p) (hf : ∀ a, Sends P (f a)) : Sends P (p >>= f) := by
  induction hp with
  | pure a => exact hf a
  | throw e => exact .throw e
  | call hop _ ih => exact .call hop ih

theorem Sends.of_bind {P : Op → Prop} {p : Program Op Res Err α}
    {f : α → Program Op Res Err β} (h : Sends P (p >>= f)) : Sends P p := by
  induction p with
  | pure a => exact .pure a
  | throw e => exact .throw e
  | call op k ih =>
    cases h with
    | call hop hk => exact .call hop fun r ↦ ih r (hk r)

theorem Sends.bindClosed (P : Op → Prop) :
    BindClosed fun α ↦ (Sends P : Program Op Res Err α → Prop) :=
  ⟨.pure, .bind⟩

theorem Sends.of_mem {P : Op → Prop} {p q : Program Op Res Err α} {t : List (Op × Res)}
    (hp : Sends P p) (h : Follows p t q) : ∀ x ∈ t, P x.1 := by
  induction h with
  | nil p => exact List.forall_mem_nil _
  | cons _ ih =>
    cases hp with
    | call hop hk => exact List.forall_mem_cons.mpr ⟨hop, ih (hk _)⟩

/-! ## Programs that return when all goes well -/

/-- Given good responses only, the program returns. -/
inductive Reliable (good : Res → Prop) : Program Op Res Err α → Prop
  | pure (a : α) : Reliable good (.pure a)
  | call {op : Op} {k : Res → Program Op Res Err α} :
      (∀ r, good r → Reliable good (k r)) → Reliable good (.call op k)

theorem Reliable.bind {good : Res → Prop} {p : Program Op Res Err α}
    {f : α → Program Op Res Err β} (hp : Reliable good p) (hf : ∀ a, Reliable good (f a)) :
    Reliable good (p >>= f) := by
  induction hp with
  | pure a => exact hf a
  | call _ ih => exact .call ih

theorem Reliable.bindClosed (good : Res → Prop) :
    BindClosed fun α ↦ (Reliable good : Program Op Res Err α → Prop) :=
  ⟨.pure, .bind⟩

/-- What follows a program that can return is sent as well. If its requests are of the kind for
one result just if they are for another, then so are those of the sequence just if all are. -/
theorem Reliable.sends_bind_iff {good : Res → Prop} {P : Op → Prop} {C : Prop}
    {p : Program Op Res Err α} {f : α → Program Op Res Err β} (hp : Reliable good p) {r₀ : Res}
    (hr₀ : good r₀) (hf : ∀ a, Sends P (f a) ↔ C) : Sends P (p >>= f) ↔ Sends P p ∧ C := by
  refine ⟨fun h ↦ ⟨h.of_bind, ?_⟩, fun h ↦ h.1.bind fun a ↦ (hf a).mpr h.2⟩
  induction hp with
  | pure a => exact (hf a).mp h
  | call _ ih =>
    cases h with
    | call _ hk => exact ih r₀ hr₀ (hk r₀)

/-- Wherever such a program is left by good responses, some more of them complete it. -/
theorem Reliable.complete {good : Res → Prop} {p q : Program Op Res Err α} {t : List (Op × Res)}
    (hp : Reliable good p) {r₀ : Res} (hr₀ : good r₀) (h : Follows p t q)
    (ht : ∀ x ∈ t, good x.2) :
    ∃ u a, (∀ x ∈ u, good x.2) ∧ Follows q u (.pure a) := by
  induction h with
  | nil p =>
    -- one good response answers everything that is still asked
    induction hp with
    | pure a => exact ⟨[], a, List.forall_mem_nil _, .nil _⟩
    | @call op k _ ih =>
      obtain ⟨u, a, hu, hf⟩ := ih r₀ hr₀
      exact ⟨(op, r₀) :: u, a, List.forall_mem_cons.mpr ⟨hr₀, hu⟩, .cons hf⟩
  | cons _ ih =>
    cases hp with
    | call hk =>
      exact ih (hk _ (ht _ List.mem_cons_self)) fun x hx ↦ ht x (List.mem_cons_of_mem _ hx)

/-! ## Two runs side by side -/

/-- The programs send `R`-related requests for as long as they are given `S`-related responses,
and end alike. -/
inductive Similar (R : Op → Op → Prop) (S : Res → Res → Prop) (Q : α → β → Prop) :
    Program Op Res Err α → Program Op Res Err β → Prop
  | pure {a : α} {b : β} : Q a b → Similar R S Q (.pure a) (.pure b)
  | throw (e e' : Err) : Similar R S Q (.throw e) (.throw e')
  | call {op op' : Op} {k : Res → Program Op Res Err α} {k' : Res → Program Op Res Err β} :
      R op op' → (∀ r r', S r r' → Similar R S Q (k r) (k' r')) →
      Similar R S Q (.call op k) (.call op' k')

theorem Similar.bind {R : Op → Op → Prop} {S : Res → Res → Prop} {α' β' : Type}
    {Q : α → β → Prop} {Q' : α' → β' → Prop} {p : Program Op Res Err α}
    {p' : Program Op Res Err β} {f : α → Program Op Res Err α'} {f' : β → Program Op Res Err β'}
    (hp : Similar R S Q p p') (hf : ∀ a b, Q a b → Similar R S Q' (f a) (f' b)) :
    Similar R S Q' (p >>= f) (p' >>= f') := by
  induction hp with
  | pure h => exact hf _ _ h
  | throw e e' => exact .throw e e'
  | call hop _ ih => exact .call hop ih

/-- Finished runs of similar programs whose responses are related one by one, as far as both go,
send related requests, and equally many. -/
theorem Similar.forall₂ {R : Op → Op → Prop} {S : Res → Res → Prop} {Q : α → β → Prop}
    {p : Program Op Res Err α} {p' : Program Op Res Err β} (h : Similar R S Q p p')
    {t t' : List (Op × Res)} {x : Except Err α} {x' : Except Err β}
    (ht : Follows p t (ofExcept x)) (ht' : Follows p' t' (ofExcept x'))
    (hS : ∀ y ∈ t.zip t', S y.1.2 y.2.2) :
    List.Forall₂ (fun y y' ↦ R y.1 y'.1) t t' := by
  induction h generalizing t t' with
  | pure h =>
    rw [(follows_pure_iff.mp ht).1, (follows_pure_iff.mp ht').1]
    exact .nil
  | throw e e' =>
    rw [(follows_throw_iff.mp ht).1, (follows_throw_iff.mp ht').1]
    exact .nil
  | call hop _ ih =>
    obtain ⟨r, u, rfl, hu⟩ := follows_call_ofExcept ht
    obtain ⟨r', u', rfl, hu'⟩ := follows_call_ofExcept ht'
    rw [List.zip_cons_cons] at hS
    exact .cons hop (ih r r' (hS _ List.mem_cons_self) hu hu' fun y hy ↦
      hS y (List.mem_cons_of_mem _ hy))

end Program

end Interaction
