import Mathlib.Data.Nat.Init
import Mathlib.Order.Defs.PartialOrder
import SphinxBackend.Interaction.Faults

/-!
# Runs in time

The log of a pool is in the order in which the requests were answered, and between any two of its
entries the service was in one state. So there is one sequence of states for the whole log
(`Pool.Timeline`), and what a client was told by its one request is what the service could tell in
the state at its place. A client that has not sent anything yet will be found in the log after
everything that is there now.

Where one service stands for another, both have such a sequence, and they are related state by state
(`Pool.Lockstep`). As a run goes on, the sequences go on with it (`Pool.Lockstep.exists_run`).
-/

namespace Interaction

open Program

variable {ι σ σ' Op Res Op' Res' Err α : Type}

/-! ## States along a trace -/

/-- Requests only add to the service. -/
def Growing [Preorder σ] (step : σ → Op → σ → Res → Prop) : Prop :=
  ∀ {s s' op r}, step s op s' r → s ≤ s'

theorem Growing.unreliable [Preorder σ] {step : σ → Op → σ → Res → Prop} {lost : Res → Prop}
    (hgrow : Growing step) : Growing (Unreliable step lost) := by
  intro s s' op r h
  cases h with
  | answered h => exact hgrow h
  | unsent => exact le_rfl
  | unanswered h => exact hgrow h

section States

variable {step : σ → Op → σ → Res → Prop} {t : List (Op × Res)} {states : ℕ → σ}

/-- The `n`-th request of the trace is answered in the `n`-th state. -/
def AnsweredIn (step : σ → Op → σ → Res → Prop) (t : List (Op × Res)) (states : ℕ → σ) : Prop :=
  ∀ n x, t[n]? = some x → step (states n) x.1 (states (n + 1)) x.2

/-- At a service that only grows, later states are above earlier ones. -/
theorem AnsweredIn.le [Preorder σ] (hgrow : Growing step) (h : AnsweredIn step t states) {m n : ℕ}
    (hmn : m ≤ n) (hn : n ≤ t.length) : states m ≤ states n := by
  induction n, hmn using Nat.le_induction with
  | base => exact le_rfl
  | succ n _ ih =>
    have hentry : t[n]? = some t[n] := List.getElem?_eq_getElem hn
    exact le_trans (ih (Nat.le_of_succ_le hn)) (hgrow (h n _ hentry))

end States

namespace Pool

variable [DecidableEq ι] {step : σ → Op → σ → Res → Prop} {c c' : Pool ι σ Op Res Err α}

/-- A client with one request has been answered at some place of the log, and has ended as the
answer says. -/
theorem Reachable.exists_entry {s : σ} {p : ι → Program Op Res Err α} (h : Reachable step s p c)
    {i : ι} {op : Op} {f : Res → Except Err α} (hp : p i = .call op fun r ↦ ofExcept (f r))
    {x : Except Err α} (hi : c.clients i = ofExcept x) :
    ∃ (n : ℕ) (r : Res), c.log[n]? = some (i, op, r) ∧ x = f r := by
  have hfollows := h.follows i
  rw [hp, hi] at hfollows
  obtain ⟨r, u, hhistory, hu⟩ := follows_call_ofExcept hfollows
  have hmem : (i, op, r) ∈ c.log := mem_history.mp (hhistory ▸ List.mem_cons_self)
  obtain ⟨n, hn⟩ := List.mem_iff_getElem?.mp hmem
  exact ⟨n, r, hn, ofExcept_injective (follows_ofExcept_iff.mp hu).2⟩

/-- Nothing is ever taken out of the log. -/
theorem log_prefix_of_steps (h : Relation.ReflTransGen (Step step) c c') : c.log <+: c'.log := by
  induction h with
  | refl => exact List.prefix_refl _
  | tail _ hstep ih =>
    obtain ⟨-, -⟩ := hstep
    exact ih.trans (List.prefix_append _ _)

/-- Who has not begun comes after everything that is in the log. -/
theorem length_le_of_history_eq_nil {i : ι} (hi : c.history i = []) (hlog : c.log <+: c'.log)
    {n : ℕ} {x : Op × Res} (hn : c'.log[n]? = some (i, x)) : c.log.length ≤ n := by
  by_contra hlt
  have hentry : c.log[n]? = some (i, x) := by
    obtain ⟨rest, hrest⟩ := hlog
    rwa [← hrest, List.getElem?_append_left (Nat.not_le.mp hlt)] at hn
  have hmem : x ∈ c.history i := mem_history.mpr (List.mem_of_getElem? hentry)
  rw [hi] at hmem
  exact absurd hmem List.not_mem_nil

/-- Who has ended sends nothing more. -/
theorem history_eq_of_steps (h : Relation.ReflTransGen (Step step) c c') {i : ι}
    {x : Except Err α} (hi : c.clients i = ofExcept x) :
    c'.clients i = c.clients i ∧ c'.history i = c.history i := by
  induction h with
  | refl => exact ⟨rfl, rfl⟩
  | tail _ hstep ih =>
    obtain ⟨hj, -⟩ := hstep
    rename_i j op k s' r
    -- the sender was about to send something, so it is another client
    have hne : i ≠ j := by
      rintro rfl
      rw [ih.1, hi] at hj
      cases x <;> exact absurd hj (by simp)
    refine ⟨(Function.update_of_ne hne _ _).trans ih.1, ?_⟩
    rw [← ih.2, history, part_append, part_singleton_of_ne (Ne.symm hne), List.append_nil, history]

/-- The `n`-th request was answered while the client was being served: after everything that was
in the log when it had not begun, and before it ended. -/
def Within (step : σ → Op → σ → Res → Prop) (c : Pool ι σ Op Res Err α) (i : ι) (n : ℕ) : Prop :=
  ∀ c₁, Relation.ReflTransGen (Step step) c₁ c →
    (c₁.history i = [] → c₁.log.length ≤ n) ∧
    ∀ x, c₁.clients i = ofExcept x → n < c₁.log.length

theorem within_of_entry {i : ι} {n : ℕ} {x : Op × Res} (hn : c.log[n]? = some (i, x)) :
    Within step c i n := by
  intro c₁ hsteps
  have hlog := log_prefix_of_steps hsteps
  refine ⟨fun hi ↦ length_le_of_history_eq_nil hi hlog hn, fun y hy ↦ ?_⟩
  by_contra hle
  obtain ⟨rest, hrest⟩ := hlog
  have hhistory : c.history i = c₁.history i ++ part rest i := by
    rw [history, ← hrest, part_append]
    rfl
  rw [(history_eq_of_steps hsteps hy).2] at hhistory
  have hnone : part rest i = [] := List.self_eq_append_right.mp hhistory
  rw [← hrest, List.getElem?_append_right (Nat.not_lt.mp hle)] at hn
  have hmem : x ∈ part rest i := List.mem_map.mpr
    ⟨(i, x), List.mem_filter.mpr ⟨List.mem_of_getElem? hn, decide_eq_true rfl⟩, rfl⟩
  rw [hnone] at hmem
  exact absurd hmem List.not_mem_nil

/-! ## The states of a run -/

/-- `states n` is the state in which the `n`-th request of the log was answered; the first one is
`s`, and the last one the present one. -/
structure Timeline (step : σ → Op → σ → Res → Prop) (s : σ) (c : Pool ι σ Op Res Err α)
    (states : ℕ → σ) : Prop where
  first : states 0 = s
  last : states c.log.length = c.shared
  answered : AnsweredIn step (c.log.map Prod.snd) states

section Timeline

variable {s : σ} {states states' : ℕ → σ}

omit [DecidableEq ι] in
/-- Only the states up to the present one matter. -/
theorem Timeline.congr (h : Timeline step s c states)
    (heq : ∀ n ≤ c.log.length, states' n = states n) : Timeline step s c states' where
  first := (heq 0 (Nat.zero_le _)).trans h.first
  last := (heq _ (Nat.le_refl _)).trans h.last
  answered n x hn := by
    have hlt : n < c.log.length := by
      simpa using (List.getElem?_eq_some_iff.mp hn).1
    rw [heq n (Nat.le_of_lt hlt), heq (n + 1) hlt]
    exact h.answered n x hn

omit [DecidableEq ι] in
theorem Timeline.step_of_entry (h : Timeline step s c states) {n : ℕ} {i : ι} {x : Op × Res}
    (hn : c.log[n]? = some (i, x)) : step (states n) x.1 (states (n + 1)) x.2 :=
  h.answered n x (by rw [List.getElem?_map, hn]; rfl)

omit [DecidableEq ι] in
theorem Timeline.le [Preorder σ] (hgrow : Growing step) (h : Timeline step s c states) {m n : ℕ}
    (hmn : m ≤ n) (hn : n ≤ c.log.length) : states m ≤ states n :=
  h.answered.le hgrow hmn (by rwa [List.length_map])

/-- The states of a pool with one more behind them. -/
def extend (c : Pool ι σ Op Res Err α) (states : ℕ → σ) (s' : σ) (n : ℕ) : σ :=
  if n ≤ c.log.length then states n else s'

omit [DecidableEq ι] in
theorem extend_of_le {s' : σ} {n : ℕ} (hn : n ≤ c.log.length) : c.extend states s' n = states n :=
  if_pos hn

omit [DecidableEq ι] in
theorem extend_of_lt {s' : σ} {n : ℕ} (hn : c.log.length < n) : c.extend states s' n = s' :=
  if_neg (Nat.not_le.mpr hn)

/-- A step adds the state that it leads to. -/
theorem Timeline.extend (h : Timeline step s c states) (hstep : Step step c c') :
    c'.log.length = c.log.length + 1 ∧ Timeline step s c' (c.extend states c'.shared) := by
  obtain ⟨-, hs⟩ := hstep
  rename_i i op k s' r
  have hlength : (c.log ++ [(i, op, r)]).length = c.log.length + 1 := by simp
  refine ⟨hlength, (extend_of_le (Nat.zero_le _)).trans h.first, ?_, fun n x hn ↦ ?_⟩
  · change c.extend states s' (c.log ++ [(i, op, r)]).length = s'
    rw [hlength, extend_of_lt (Nat.lt_succ_self _)]
  · change ((c.log ++ [(i, op, r)]).map Prod.snd)[n]? = some x at hn
    rw [List.map_append] at hn
    rcases Nat.lt_or_ge n c.log.length with hlt | hge
    · rw [extend_of_le (Nat.le_of_lt hlt), extend_of_le hlt]
      rw [List.getElem?_append_left (by simpa using hlt)] at hn
      exact h.answered n x hn
    -- the last entry is that of the step
    · obtain rfl : n = c.log.length := by
        have hlt := (List.getElem?_eq_some_iff.mp hn).1
        simp only [List.length_append, List.length_map, List.length_cons, List.length_nil] at hlt
        omega
      rw [List.getElem?_append_right (by simp)] at hn
      obtain rfl : (op, r) = x := by simpa using hn
      rw [extend_of_le (Nat.le_refl _), h.last, extend_of_lt (Nat.lt_succ_self _)]
      exact hs

end Timeline

/-! ## Two services in step -/

variable {d : Interface Op Res Op' Res'} {step' : σ' → Op' → σ' → Res' → Prop}
  {R : σ → σ' → Prop}

/-- The pools are related, and so are the services, in all states that they have been in. -/
structure Lockstep (d : Interface Op Res Op' Res') (step : σ → Op → σ → Res → Prop)
    (step' : σ' → Op' → σ' → Res' → Prop) (R : σ → σ' → Prop) (s : σ) (s' : σ')
    (c : Pool ι σ Op Res Err α) (c' : Pool ι σ' Op' Res' Err α) (states : ℕ → σ)
    (states' : ℕ → σ') : Prop where
  related : Related d R c c'
  timeline : Timeline step s c states
  timeline' : Timeline step' s' c' states'
  states : ∀ n ≤ c'.log.length, R (states n) (states' n)

section Lockstep

variable {s : σ} {s' : σ'} {states : ℕ → σ} {states' : ℕ → σ'} {d' d'' : Pool ι σ' Op' Res' Err α}

/-- One step of the second service, and one of the first. -/
theorem Lockstep.exists_step (hsim : Simulates d step step' R)
    (h : Lockstep d step step' R s s' c d' states states') (hstep : Step step' d' d'') :
    ∃ c₁, Step step c c₁ ∧ Lockstep d step step' R s s' c₁ d'' (c.extend states c₁.shared)
      (d'.extend states' d''.shared) := by
  obtain ⟨c₁, hstep₁, hrelated⟩ := h.related.exists_step hsim hstep
  obtain ⟨-, htimeline⟩ := h.timeline.extend hstep₁
  obtain ⟨hlength', htimeline'⟩ := h.timeline'.extend hstep
  have hlength : c.log.length = d'.log.length := h.related.log.length_eq
  refine ⟨c₁, hstep₁, hrelated, htimeline, htimeline', fun n hn ↦ ?_⟩
  rcases Nat.lt_or_ge d'.log.length n with hlt | hle
  · rw [extend_of_lt hlt, extend_of_lt (hlength ▸ hlt)]
    exact hrelated.shared
  · rw [extend_of_le hle, extend_of_le (hlength ▸ hle)]
    exact h.states n hle

/-- The states that were passed stay the same as the run goes on. -/
theorem Lockstep.exists_run (hsim : Simulates d step step' R)
    (h : Lockstep d step step' R s s' c d' states states')
    (hsteps : Relation.ReflTransGen (Step step') d' d'') :
    ∃ c₁ states₁ states₁', Relation.ReflTransGen (Step step) c c₁ ∧
      Lockstep d step step' R s s' c₁ d'' states₁ states₁' ∧
      ∀ n ≤ d'.log.length, states₁ n = states n ∧ states₁' n = states' n := by
  induction hsteps with
  | refl => exact ⟨c, states, states', .refl, h, fun _ _ ↦ ⟨rfl, rfl⟩⟩
  | tail hbefore hlast ih =>
    obtain ⟨c₁, states₁, states₁', hsteps₁, h₁, hsame⟩ := ih
    obtain ⟨c₂, hstep₂, h₂⟩ := h₁.exists_step hsim hlast
    refine ⟨c₂, _, _, hsteps₁.tail hstep₂, h₂, fun n hn ↦ ?_⟩
    have hle : n ≤ _ := Nat.le_trans hn (log_prefix_of_steps hbefore).length_le
    rw [extend_of_le hle, extend_of_le (h₁.related.log.length_eq ▸ hle)]
    exact hsame n hn

/-- **Every run at the second service is one at the first, state by state.** -/
theorem Reachable.exists_lockstep (hsim : Simulates d step step' R) (hR : R s s')
    {p : ι → Program Op Res Err α} (h : Reachable step' s' (fun i ↦ (p i).via d) d') :
    ∃ c states states', Reachable step s p c ∧
      Lockstep d step step' R s s' c d' states states' := by
  have hstart : Lockstep d step step' R s s' (start s p) (start s' fun i ↦ (p i).via d)
      (fun _ ↦ s) fun _ ↦ s' :=
    ⟨⟨hR, fun _ ↦ rfl, .nil⟩, ⟨rfl, rfl, fun _ _ hn ↦ absurd hn (by simp [start])⟩,
      ⟨rfl, rfl, fun _ _ hn ↦ absurd hn (by simp [start])⟩, fun _ _ ↦ hR⟩
  obtain ⟨c, states, states', hsteps, hlockstep, -⟩ := hstart.exists_run hsim h
  exact ⟨c, states, states', hsteps, hlockstep⟩

end Lockstep

end Pool

end Interaction
