import Mathlib.Algebra.BigOperators.Group.Finset.Piecewise
import Mathlib.Algebra.GroupWithZero.Nat
import Mathlib.Algebra.Order.BigOperators.Group.Finset
import SphinxBackend.Interaction.Pool

/-!
# How many requests a program sends

A program costs `n` requests if it has sent `n` when it returns, and no more than that when it
throws. What it still costs goes down with every request, so a pool of programs that have their
costs comes to an end, however they are scheduled and whatever they are answered. If the service
answers every request, it ends only with all of them finished.
-/

namespace Interaction

variable {ι σ Op Res Err α β : Type}

namespace Program

/-- The program sends `n` requests and returns, or it throws with no more than `n` sent. -/
inductive Costs : ℕ → Program Op Res Err α → Prop
  | pure (a : α) : Costs 0 (.pure a)
  | throw (n : ℕ) (e : Err) : Costs n (.throw e)
  | call {n : ℕ} {op : Op} {k : Res → Program Op Res Err α} :
      (∀ r, Costs n (k r)) → Costs (n + 1) (.call op k)

theorem costs_pure_iff {n : ℕ} {a : α} :
    Costs n (.pure a : Program Op Res Err α) ↔ n = 0 := by
  constructor
  · rintro ⟨⟩; rfl
  · rintro rfl; exact .pure a

namespace Costs

variable {n m : ℕ} {p q : Program Op Res Err α}

theorem ofExcept (x : Except Err α) : Costs 0 (.ofExcept x : Program Op Res Err α) := by
  cases x with
  | ok a => exact .pure a
  | error e => exact .throw 0 e

theorem bind {f : α → Program Op Res Err β} (h : Costs n p) (hf : ∀ a, Costs m (f a)) :
    Costs (n + m) (p >>= f) := by
  induction h with
  | pure a =>
    rw [Nat.zero_add]
    exact hf a
  | throw n e => exact .throw _ e
  | call _ ih =>
    rw [Nat.add_right_comm]
    exact .call ih

/-- The cost of a list is the sum of what its elements cost. -/
theorem many {one : α → Program Op Res Err β} {many : List α → Program Op Res Err (List β)}
    {cost : α → ℕ} (hnil : many [] = .pure [])
    (hcons : ∀ a as, many (a :: as) = one a >>= fun b ↦ many as >>= fun bs ↦ .pure (b :: bs))
    (h : ∀ a, Costs (cost a) (one a)) (as : List α) : Costs (as.map cost).sum (many as) := by
  induction as with
  | nil =>
    rw [hnil]
    exact .pure []
  | cons a as ih =>
    rw [hcons, List.map_cons, List.sum_cons]
    exact (h a).bind fun b ↦ ih.bind fun bs ↦ .pure (b :: bs)

/-- What a program still costs. -/
theorem exists_left {t : List (Op × Res)} (h : Costs n p) (hf : Follows p t q) :
    ∃ left, n = t.length + left ∧ Costs left q := by
  induction hf generalizing n with
  | nil p => exact ⟨n, (Nat.zero_add n).symm, h⟩
  | @cons op k r t q _ ih =>
    cases h with
    | @call n _ _ hk =>
      obtain ⟨left, hn, hleft⟩ := ih (hk r)
      refine ⟨left, ?_, hleft⟩
      rw [hn, List.length_cons, Nat.add_right_comm]

theorem length_le {t : List (Op × Res)} (h : Costs n p) (hf : Follows p t q) : t.length ≤ n := by
  obtain ⟨left, rfl, -⟩ := h.exists_left hf
  exact Nat.le_add_right _ _

theorem length_eq {t : List (Op × Res)} {a : α} (h : Costs n p) (hf : Follows p t (.pure a)) :
    t.length = n := by
  obtain ⟨left, rfl, hleft⟩ := h.exists_left hf
  rw [costs_pure_iff.mp hleft, Nat.add_zero]

end Costs

end Program

/-! ## Pools -/

namespace Pool

open Program

variable [DecidableEq ι]

/-- A log is as long as its parts together. -/
theorem length_eq_sum_part [Fintype ι] (log : List (ι × Op × Res)) :
    log.length = ∑ i, (part log i).length := by
  induction log with
  | nil => simp [part]
  | cons x log ih =>
    have hpart (i : ι) :
        (part (x :: log) i).length = (if x.1 = i then 1 else 0) + (part log i).length := by
      rw [← List.singleton_append, part_append, List.length_append]
      by_cases hi : x.1 = i
      · rw [if_pos hi, ← hi, part_singleton_self, List.length_singleton]
      · rw [if_neg hi, part_singleton_of_ne hi, List.length_nil]
    rw [List.length_cons, ih, Finset.sum_congr rfl fun i _ ↦ hpart i, Finset.sum_add_distrib,
      Finset.sum_ite_eq, if_pos (Finset.mem_univ _), Nat.add_comm]

variable {step : σ → Op → σ → Res → Prop} {s : σ} {p : ι → Program Op Res Err α}
  {c : Pool ι σ Op Res Err α}

/-- **No interleaving is longer than what the clients cost together.** -/
theorem Reachable.length_log_le [Fintype ι] (h : Reachable step s p c) {cost : ι → ℕ}
    (hcost : ∀ i, Costs (cost i) (p i)) : c.log.length ≤ ∑ i, cost i := by
  rw [length_eq_sum_part]
  exact Finset.sum_le_sum fun i _ ↦ (hcost i).length_le (h.follows i)

/-- A pool stops only when everyone is finished. -/
theorem stopped_iff (hanswers : ∀ s op, ∃ s' r, step s op s' r) :
    (∀ c', ¬Step step c c') ↔ ∀ i, ∃ x, c.clients i = ofExcept x := by
  constructor
  · intro h i
    cases hi : c.clients i with
    | pure a => exact ⟨.ok a, rfl⟩
    | throw e => exact ⟨.error e, rfl⟩
    | call op k =>
      obtain ⟨s', r, hs⟩ := hanswers c.shared op
      exact absurd (.send hi hs) (h _)
  · rintro h c' ⟨hi, -⟩
    rename_i i op k s' r
    obtain ⟨x, hx⟩ := h i
    rw [hi] at hx
    cases x <;> exact absurd hx (by simp)

end Pool

end Interaction
