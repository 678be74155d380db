import Mathlib.Data.List.Induction
import SphinxBackend.Interaction.Program

/-!
# Clients of one service

Any number of programs, each sending its own requests to one shared service in any order. A step
of the pool is one request of one client with its response, taken as a unit; nothing else is
assumed about the scheduling, and a client may stop being scheduled for good.

The log is a ghost: it records who sent what, and no step looks at it. It is what connects the two
views of a run. Read whole, it is a trace of the service (`Reachable.chain`); read for one client
alone, it is a trace of that client's program (`Reachable.follows`).
-/

namespace Interaction

open Program

variable {ι σ Op Res Err α : Type} [DecidableEq ι]

/-- The service, the clients, and what has been sent so far. -/
structure Pool (ι σ Op Res Err α : Type) where
  /-- The state of the service. -/
  shared : σ
  /-- What is left of each client's program. -/
  clients : ι → Program Op Res Err α
  /-- Every request so far, oldest first, with its sender and its response. -/
  log : List (ι × Op × Res)

namespace Pool

/-- One client sends its next request and the service answers it. -/
inductive Step (step : σ → Op → σ → Res → Prop) :
    Pool ι σ Op Res Err α → Pool ι σ Op Res Err α → Prop
  | send {c : Pool ι σ Op Res Err α} {i : ι} {op : Op} {k : Res → Program Op Res Err α} {s' : σ}
      {r : Res} : c.clients i = .call op k → step c.shared op s' r →
      Step step c ⟨s', Function.update c.clients i (k r), c.log ++ [(i, op, r)]⟩

/-- The pool before anything has been sent. -/
def start (s : σ) (p : ι → Program Op Res Err α) : Pool ι σ Op Res Err α := ⟨s, p, []⟩

/-- Some interleaving leads from the start to `c`. -/
def Reachable (step : σ → Op → σ → Res → Prop) (s : σ) (p : ι → Program Op Res Err α)
    (c : Pool ι σ Op Res Err α) : Prop :=
  Relation.ReflTransGen (Step step) (start s p) c

variable {step : σ → Op → σ → Res → Prop} {s : σ} {p : ι → Program Op Res Err α}
  {c : Pool ι σ Op Res Err α}

/-- The whole log is a trace of the service. -/
theorem Reachable.chain (h : Reachable step s p c) :
    Chain step s (c.log.map Prod.snd) c.shared := by
  induction h with
  | refl => exact .nil s
  | tail _ hstep ih =>
    obtain ⟨-, hs⟩ := hstep
    rw [List.map_append]
    exact chain_append_iff.mpr ⟨_, ih, .cons hs (.nil _)⟩

/-- The part of a log that belongs to one client. -/
def part (log : List (ι × Op × Res)) (i : ι) : List (Op × Res) :=
  (log.filter fun x ↦ x.1 = i).map Prod.snd

theorem part_append (log log' : List (ι × Op × Res)) (i : ι) :
    part (log ++ log') i = part log i ++ part log' i := by
  rw [part, List.filter_append, List.map_append, part, part]

theorem part_singleton_self (i : ι) (x : Op × Res) : part [(i, x)] i = [x] := by simp [part]

theorem part_singleton_of_ne {i j : ι} (h : j ≠ i) (x : Op × Res) : part [(j, x)] i = [] := by
  simp [part, h]

/-- What one client has sent and received. -/
def history (c : Pool ι σ Op Res Err α) (i : ι) : List (Op × Res) := part c.log i

theorem mem_history {i : ι} {x : Op × Res} : x ∈ c.history i ↔ (i, x) ∈ c.log := by
  rw [history, part, List.mem_map]
  constructor
  · rintro ⟨⟨j, y⟩, hy, rfl⟩
    obtain ⟨hmem, hj⟩ := List.mem_filter.mp hy
    exact of_decide_eq_true hj ▸ hmem
  · exact fun h ↦ ⟨(i, x), List.mem_filter.mpr ⟨h, decide_eq_true rfl⟩, rfl⟩

/-- The part of the log that belongs to one client is a trace of its program. -/
theorem Reachable.follows (h : Reachable step s p c) (i : ι) :
    Follows (p i) (c.history i) (c.clients i) := by
  induction h with
  | refl => exact .nil _
  | @tail c _ _ hstep ih =>
    obtain ⟨hi, -⟩ := hstep
    rename_i j op k s' r
    change Follows (p i) (part (c.log ++ [(j, op, r)]) i) (Function.update c.clients j (k r) i)
    rw [part_append, ← history]
    -- only the sender's program moves, and only its part of the log grows
    by_cases hj : j = i
    · subst hj
      have hlast : Follows (c.clients j) [(op, r)] (k r) := by
        rw [hi]
        exact .cons (.nil _)
      rw [part_singleton_self, Function.update_self]
      exact ih.append hlast
    · rw [part_singleton_of_ne hj, List.append_nil, Function.update_of_ne (Ne.symm hj)]
      exact ih

/-- Conversely, a trace of the service whose parts are traces of the clients is the log of some
interleaving. -/
theorem reachable_of_log {log : List (ι × Op × Res)} {s' : σ} {q : ι → Program Op Res Err α}
    (hchain : Chain step s (log.map Prod.snd) s')
    (hfollows : ∀ i, Follows (p i) (part log i) (q i)) :
    Reachable step s p ⟨s', q, log⟩ := by
  induction log using List.reverseRecOn generalizing s' q with
  | nil =>
    obtain rfl := chain_nil_iff.mp hchain
    obtain rfl : q = p := funext fun i ↦ follows_nil_iff.mp (hfollows i)
    exact .refl
  | append_singleton log x ih =>
    obtain ⟨j, op, r⟩ := x
    rw [List.map_append] at hchain
    obtain ⟨s₁, hchain, hlast⟩ := chain_append_iff.mp hchain
    obtain ⟨s₂, hstep, hend⟩ := chain_cons_iff.mp hlast
    obtain rfl := chain_nil_iff.mp hend
    -- the client that sent the last request was about to send it
    have hj := hfollows j
    rw [part_append, part_singleton_self] at hj
    obtain ⟨pj, hpj, hsend⟩ := hj.split
    obtain ⟨k, rfl, hk⟩ : ∃ k, pj = .call op k ∧ k r = q j := by
      cases hsend with
      | cons hrest => exact ⟨_, rfl, (follows_nil_iff.mp hrest).symm⟩
    have hbefore : ∀ i, Follows (p i) (part log i) (Function.update q j (.call op k) i) := by
      intro i
      by_cases hi : i = j
      · subst hi
        rw [Function.update_self]
        exact hpj
      · have hothers := hfollows i
        rw [part_append, part_singleton_of_ne (Ne.symm hi), List.append_nil] at hothers
        rw [Function.update_of_ne hi]
        exact hothers
    have hlaststep : Step step ⟨s₁, Function.update q j (.call op k), log⟩
        ⟨s', Function.update (Function.update q j (.call op k)) j (k r), log ++ [(j, op, r)]⟩ :=
      .send (Function.update_self ..) hstep
    rw [Function.update_idem, hk, Function.update_eq_self] at hlaststep
    exact (ih hchain hbefore).tail hlaststep

end Pool

end Interaction
