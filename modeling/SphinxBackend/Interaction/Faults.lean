import SphinxBackend.Interaction.Interface

/-!
# Answers that get lost

A connection may break at any request. Then the service has not seen the request, or it has acted
on it and the answer is lost; the client cannot tell, and is told only that something is wrong.

So a lost answer is one of the things that can happen to a request, and a service behind such a
connection is a service like any other, with more choices (`Unreliable`). Every run of the service
itself is one of its runs, and an interface to it that takes a lost answer for a lost answer is one
between the two services behind their connections (`Simulates.unreliable`).
-/

namespace Interaction

open Program

variable {ι σ Op Res Err α : Type}

/-- The service behind a connection that can break. `lost` are the answers the client makes up for
itself. -/
inductive Unreliable (step : σ → Op → σ → Res → Prop) (lost : Res → Prop) :
    σ → Op → σ → Res → Prop
  | answered {s s' : σ} {op : Op} {r : Res} : step s op s' r → Unreliable step lost s op s' r
  | unsent {s : σ} {op : Op} {r : Res} : lost r → Unreliable step lost s op s r
  | unanswered {s s' : σ} {op : Op} {r r' : Res} :
      step s op s' r → lost r' → Unreliable step lost s op s' r'

/-- Nothing is lost on a connection that does not break. -/
theorem Program.Chain.unreliable {step : σ → Op → σ → Res → Prop} {lost : Res → Prop} {s s' : σ}
    {t : List (Op × Res)} (h : Chain step s t s') : Chain (Unreliable step lost) s t s' := by
  induction h with
  | nil s => exact .nil s
  | cons hstep _ ih => exact .cons (.answered hstep) ih

theorem Simulates.unreliable {σ' Op' Res' : Type} {d : Interface Op Res Op' Res'}
    {step : σ → Op → σ → Res → Prop} {step' : σ' → Op' → σ' → Res' → Prop} {R : σ → σ' → Prop}
    {lost : Res → Prop} {lost' : Res' → Prop} (hsim : Simulates d step step' R)
    (hlost : ∀ op r', lost' r' → lost (d.read op r')) :
    Simulates d (Unreliable step lost) (Unreliable step' lost') R := by
  intro s s' t' op r' hR h
  cases h with
  | answered h =>
    obtain ⟨t, ht, hR'⟩ := hsim hR h
    exact ⟨t, .answered ht, hR'⟩
  | unsent hr => exact ⟨s, .unsent (hlost op r' hr), hR⟩
  | unanswered h hr =>
    obtain ⟨t, ht, hR'⟩ := hsim hR h
    exact ⟨t, .unanswered ht (hlost op r' hr), hR'⟩

namespace Pool

variable {step : σ → Op → σ → Res → Prop} {lost : Res → Prop} {c c' : Pool ι σ Op Res Err α}

/-- Every run of the reliable pool is one behind a connection that does not break. -/
theorem steps_unreliable [DecidableEq ι] (h : Relation.ReflTransGen (Step step) c c') :
    Relation.ReflTransGen (Step (Unreliable step lost)) c c' := by
  refine Relation.ReflTransGen.mono (fun a b hstep ↦ ?_) _ _ h
  obtain ⟨hi, hs⟩ := hstep
  exact .send hi (.answered hs)

end Pool

end Interaction
