import SphinxBackend.Interaction.Pool

/-!
# Programs through an interface

A program may be written against one service and run against another. An `Interface` says how a
request of the first is put to the second, and how the answer is to be understood; `Program.via`
is the program with all of its requests put that way. It commutes with sequencing, so a program
written in steps is translated step by step.

Each request becomes one request. A relation between the states of the two services that every
answer keeps (`Simulates`) is then kept by every step of any number of clients, each through the
interface: what the second service does the first one could have done, with the same clients at the
same points of their programs after the same requests (`Pool.Related`).
-/

namespace Interaction

/-- How the requests of one service are put to another. -/
structure Interface (Op Res Op' Res' : Type) where
  send : Op → Op'
  read : Op → Res' → Res

variable {ι σ σ' Op Res Op' Res' Err α β : Type}

namespace Program

/-- The program with its requests put through the interface. -/
def via (d : Interface Op Res Op' Res') : Program Op Res Err α → Program Op' Res' Err α
  | .pure a => .pure a
  | .throw e => .throw e
  | .call op k => .call (d.send op) fun r ↦ (k (d.read op r)).via d

section Via

variable (d : Interface Op Res Op' Res')

@[simp] theorem via_pure (a : α) :
    (Program.pure a : Program Op Res Err α).via d = .pure a := rfl

@[simp] theorem via_throw (e : Err) :
    (Program.throw e : Program Op Res Err α).via d = .throw e := rfl

theorem via_call (op : Op) (k : Res → Program Op Res Err α) :
    (Program.call op k).via d = .call (d.send op) fun r ↦ (k (d.read op r)).via d := rfl

@[simp] theorem via_ofExcept (x : Except Err α) :
    (ofExcept x : Program Op Res Err α).via d = ofExcept x := by
  cases x <;> rfl

@[simp] theorem via_bind (p : Program Op Res Err α) (f : α → Program Op Res Err β) :
    (p >>= f).via d = p.via d >>= fun a ↦ (f a).via d := by
  induction p with
  | pure a => rfl
  | throw e => rfl
  | call op k ih => exact congrArg (Program.call (d.send op)) (funext fun r ↦ ih (d.read op r))

/-- What is translated into a finished program was finished. -/
theorem via_eq_ofExcept_iff {p : Program Op Res Err α} {x : Except Err α} :
    p.via d = ofExcept x ↔ p = ofExcept x := by
  constructor
  · intro h
    cases p with
    | pure a =>
      have hx : .ok a = x := ofExcept_injective h
      rw [← hx, ofExcept_ok]
    | throw e =>
      have hx : .error e = x := ofExcept_injective h
      rw [← hx, ofExcept_error]
    | call op k =>
      rw [via_call] at h
      cases x <;> exact absurd h (by simp)
  · rintro rfl
    exact via_ofExcept d x

end Via

end Program

open Program

/-- Whatever the second service answers, the first one can answer what is read of it, and the
states stay related. -/
def Simulates (d : Interface Op Res Op' Res') (step : σ → Op → σ → Res → Prop)
    (step' : σ' → Op' → σ' → Res' → Prop) (R : σ → σ' → Prop) : Prop :=
  ∀ {s s' t' op r'}, R s s' → step' s' (d.send op) t' r' →
    ∃ t, step s op t (d.read op r') ∧ R t t'

namespace Pool

variable {d : Interface Op Res Op' Res'} {step : σ → Op → σ → Res → Prop}
  {step' : σ' → Op' → σ' → Res' → Prop} {R : σ → σ' → Prop}

/-- The second request is the first one, put through the interface, and so is the answer. -/
structure Conveys (d : Interface Op Res Op' Res') (x : Op × Res) (x' : Op' × Res') : Prop where
  request : x'.1 = d.send x.1
  response : x.2 = d.read x.1 x'.2

/-- The services are in related states, and the clients of one pool are those of the other, put
through the interface, as are their requests so far. -/
structure Related (d : Interface Op Res Op' Res') (R : σ → σ' → Prop)
    (c : Pool ι σ Op Res Err α) (c' : Pool ι σ' Op' Res' Err α) : Prop where
  shared : R c.shared c'.shared
  clients : ∀ i, c'.clients i = (c.clients i).via d
  log : List.Forall₂ (fun x x' ↦ x'.1 = x.1 ∧ Conveys d x.2 x'.2) c.log c'.log

section Related

variable {c : Pool ι σ Op Res Err α} {c' c'' : Pool ι σ' Op' Res' Err α}

theorem Related.eq_ofExcept_iff (h : Related d R c c') {i : ι} {x : Except Err α} :
    c'.clients i = ofExcept x ↔ c.clients i = ofExcept x := by
  rw [h.clients i, via_eq_ofExcept_iff]

variable [DecidableEq ι]

/-- A step of the second pool is a step of the first. -/
theorem Related.exists_step (hsim : Simulates d step step' R) (h : Related d R c c')
    (hstep : Step step' c' c'') : ∃ c₁, Step step c c₁ ∧ Related d R c₁ c'' := by
  obtain ⟨hi, hs⟩ := hstep
  rename_i i op' k' t' r'
  rw [h.clients i] at hi
  cases hp : c.clients i with
  | call op k =>
    rw [hp, via_call] at hi
    obtain ⟨rfl, rfl⟩ := Program.call.inj hi
    obtain ⟨t, ht, hR⟩ := hsim h.shared hs
    refine ⟨_, .send hp ht, hR, fun j ↦ ?_, List.rel_append h.log (.cons ⟨rfl, rfl, rfl⟩ .nil)⟩
    by_cases hj : j = i
    · subst hj
      simp only [Function.update_self]
    · simp only [Function.update_of_ne hj]
      exact h.clients j
  | pure a =>
    rw [hp] at hi
    exact absurd hi (by simp)
  | throw e =>
    rw [hp] at hi
    exact absurd hi (by simp)

end Related

end Pool

end Interaction
