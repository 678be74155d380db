import SphinxBackend.Db.Insertion
import SphinxBackend.Interaction.Faults

/-!
# Insertions of several clients

Several clients send their calls to one server, and an answer may be lost. The log of the calls,
with each entry labelled with its sender, then does not say all of what the server has done, but it
leaves little open: an insertion that was seen to be accepted has been carried out, one that failed
may have been or not, and nothing else adds a row (`CarriedOut`).

Whatever is lost, the tables have gained the rows of the insertions that were carried out
(`exists_carriedOut`). A client that stops at the first failure cannot have been in the dark about
more than its last insertion (`CarriedOut.follows_events`).
-/

namespace Sphinx.Db

open Interaction Program

/-! ## Calls that only read -/

/-- The call is some other statement. -/
def IsSelection (c : Call) : Prop :=
  ∃ s : Sql.Statement, s.WellFormed ∧ c.query = s.render ∧
    ∀ t columns ids returning, s ≠ .insert t columns ids returning

section Selection

variable {c : Call}

theorem IsSelection.exists_parse (h : IsSelection c) : ∃ s, Sql.parse c.request.text = some s ∧
    ∀ t columns ids returning, s ≠ .insert t columns ids returning := by
  obtain ⟨s, hs, htext, hinsert⟩ := h
  refine ⟨s, ?_, hinsert⟩
  change Sql.parse c.query = some s
  rw [htext, Sql.parse_render hs]

theorem IsSelection.not_isInsertion (h : IsSelection c) : ¬IsInsertion c := by
  rintro ⟨x, rfl⟩
  obtain ⟨s, hs, hinsert⟩ := h.exists_parse
  rw [x.parse_call] at hs
  exact hinsert _ _ _ _ (Option.some.inj hs).symm

/-- Nothing but an insertion changes the tables. -/
theorem IsSelection.eq (h : IsSelection c) {db db' : Sql.Db} {res : PGresult}
    (hstep : postgres db c db' res) : db' = db := by
  obtain ⟨s, hs, hinsert⟩ := h.exists_parse
  obtain ⟨v, hv⟩ := hstep
  rw [Sql.execute, hs] at hv
  cases s with
  | insert t columns ids returning => exact absurd rfl (hinsert t columns ids returning)
  | _ => exact (Prod.mk.inj hv).1.symm

end Selection

/-! ## Insertions that were carried out -/

/-- The same insertion, with the id it was given. -/
def Insertion.withId (x : Insertion) (i : Int32) : Insertion := { x with id := i }

/-- `added` are the insertions that the server has carried out along the log, in order, each with
its sender: all those that it was seen to accept, and of those whose answer was lost the ones that
had reached it. -/
inductive CarriedOut {ι : Type} (lost : PGresult → Prop) :
    List (ι × Call × PGresult) → List (ι × Insertion) → Prop
  | nil : CarriedOut lost [] []
  | accepted {log : List (ι × Call × PGresult)} {added : List (ι × Insertion)} (i : ι)
      (x : Insertion) : CarriedOut lost log added →
      CarriedOut lost ((i, x.event) :: log) ((i, x) :: added)
  /-- The row is there, but the client is told of a failure. -/
  | unanswered {log : List (ι × Call × PGresult)} {added : List (ι × Insertion)} (i : ι)
      (x : Insertion) {res : PGresult} : lost res → CarriedOut lost log added →
      CarriedOut lost ((i, x.call, res) :: log) ((i, x) :: added)
  | failed {log : List (ι × Call × PGresult)} {added : List (ι × Insertion)} (i : ι) (c : Call)
      {res : PGresult} : refusal res ≠ none → CarriedOut lost log added →
      CarriedOut lost ((i, c, res) :: log) added
  | selected {log : List (ι × Call × PGresult)} {added : List (ι × Insertion)} (i : ι) {c : Call}
      (res : PGresult) : ¬IsInsertion c → CarriedOut lost log added →
      CarriedOut lost ((i, c, res) :: log) added

section CarriedOut

variable {ι : Type} {lost : PGresult → Prop} {log : List (ι × Call × PGresult)}
  {added : List (ι × Insertion)}

/-- Whatever is lost, the tables have gained the rows of what was carried out. -/
theorem exists_carriedOut (hlost : ∀ res, lost res → refusal res ≠ none) {db db' : Sql.Db}
    (h : Chain (Unreliable postgres lost) db (log.map Prod.snd) db')
    (hcalls : ∀ y ∈ log, IsInsertion y.2.1 ∨ IsSelection y.2.1) :
    ∃ added, CarriedOut lost log added ∧ Inserted db (added.map Prod.snd) db' := by
  induction log generalizing db with
  | nil =>
    rw [chain_nil_iff.mp h]
    exact ⟨[], .nil, inserted_nil db⟩
  | cons y log ih =>
    obtain ⟨i, call, res⟩ := y
    obtain ⟨db₁, hstep, hrest⟩ := chain_cons_iff.mp h
    obtain ⟨added, hcarried, hinserted⟩ := ih hrest fun y hy ↦ hcalls y (List.mem_cons_of_mem _ hy)
    rcases hcalls _ List.mem_cons_self with ⟨x, hx⟩ | hselection
    · obtain rfl : call = x.call := hx
      have haccepted {n : Int32} (hn : postgres db x.call db₁ (.returned "id" n)) :
          Inserted db (((i, x.withId n) :: added).map Prod.snd) db' :=
        (inserted_singleton (x := x.withId n) hn).append hinserted
      cases hstep with
      | answered hstep =>
        rcases postgres_insertion_iff.mp hstep with ⟨message, rfl, rfl⟩ | ⟨n, -, -, -, rfl⟩
        · exact ⟨added, .failed i _ (by simp) hcarried, hinserted⟩
        · exact ⟨_, .accepted i (x.withId n) hcarried, haccepted hstep⟩
      | unsent hr => exact ⟨added, .failed i _ (hlost _ hr) hcarried, hinserted⟩
      | unanswered hstep hr =>
        rcases postgres_insertion_iff.mp hstep with ⟨message, rfl, -⟩ | ⟨n, -, -, -, rfl⟩
        · exact ⟨added, .failed i _ (hlost _ hr) hcarried, hinserted⟩
        · exact ⟨_, .unanswered i (x.withId n) hr hcarried, haccepted hstep⟩
    · obtain rfl : db₁ = db := by
        cases hstep with
        | answered hstep => exact hselection.eq hstep
        | unsent => rfl
        | unanswered hstep => exact hselection.eq hstep
      exact ⟨added, .selected i res hselection.not_isInsertion hcarried, hinserted⟩

namespace CarriedOut

/-- What some of the clients have had carried out. -/
theorem filter (h : CarriedOut lost log added) (keep : ι → Prop) [DecidablePred keep] :
    CarriedOut lost (log.filter fun y ↦ keep y.1) (added.filter fun a ↦ keep a.1) := by
  induction h with
  | nil => exact .nil
  | @accepted log added i x _ ih =>
    by_cases hi : keep i
    · simpa [hi] using ih.accepted i x
    · simpa [hi] using ih
  | @unanswered log added i x res hr _ ih =>
    by_cases hi : keep i
    · simpa [hi] using ih.unanswered i x hr
    · simpa [hi] using ih
  | @failed log added i c res hr _ ih =>
    by_cases hi : keep i
    · simpa [hi] using ih.failed i c hr
    · simpa [hi] using ih
  | @selected log added i c res hc _ ih =>
    by_cases hi : keep i
    · simpa [hi] using ih.selected i res hc
    · simpa [hi] using ih

/-- Where nothing has failed, that is all that was to be inserted. -/
theorem eq_events (h : CarriedOut lost log added) (hlost : ∀ res, lost res → refusal res ≠ none)
    (hgood : ∀ y ∈ log, refusal y.2.2 = none) (hinsertion : ∀ y ∈ log, IsInsertion y.2.1) :
    log = added.map fun a ↦ (a.1, a.2.event) := by
  induction h with
  | nil => rfl
  | accepted i x _ ih =>
    rw [List.forall_mem_cons] at hgood hinsertion
    rw [List.map_cons, ← ih hgood.2 hinsertion.2]
  | unanswered i x hr => exact absurd (hgood _ List.mem_cons_self) (hlost _ hr)
  | failed i c hr => exact absurd (hgood _ List.mem_cons_self) hr
  | selected i res hc => exact absurd (hinsertion _ List.mem_cons_self) hc

/-- Who has not asked for an insertion has had none carried out. -/
theorem eq_nil (h : CarriedOut lost log added) (hcalls : ∀ y ∈ log, ¬IsInsertion y.2.1) :
    added = [] := by
  induction h with
  | nil => rfl
  | accepted i x | unanswered i x => exact absurd ⟨x, rfl⟩ (hcalls _ List.mem_cons_self)
  | failed _ _ _ _ ih | selected _ _ _ _ ih =>
    exact ih fun y hy ↦ hcalls y (List.mem_cons_of_mem _ hy)

/-- A program that only inserts, and stops at the first failure. Had it been told of all that was
carried out for it, it would be where it is, unless it has stopped. -/
theorem follows_events {α : Type} {p q : DbProgram α} (h : CarriedOut lost log added)
    (hlost : ∀ res, lost res → refusal res ≠ none) (hf : Follows p (log.map Prod.snd) q)
    (hfast : FailFast refusal p) (hsends : Sends IsInsertion p) :
    ∃ q', Follows p ((added.map Prod.snd).map Insertion.event) q' ∧
      (q' = q ∨ ∃ e, q = .throw e) := by
  -- after a failure there is nothing left of the log
  have hstopped {k : PGresult → DbProgram α} {res : PGresult}
      {log : List (ι × Call × PGresult)} {added : List (ι × Insertion)}
      (hfail : ∀ r e, refusal r = some e → k r = .throw e) (hr : refusal res ≠ none)
      (hcarried : CarriedOut lost log added) (hk : Follows (k res) (log.map Prod.snd) q) :
      added = [] ∧ ∃ e, q = .throw e := by
    obtain ⟨e, he⟩ := Option.ne_none_iff_exists'.mp hr
    rw [hfail res e he, follows_throw_iff, List.map_eq_nil_iff] at hk
    obtain ⟨rfl, rfl⟩ := hk
    cases hcarried
    exact ⟨rfl, e, rfl⟩
  induction h generalizing p with
  | nil => exact ⟨q, hf, .inl rfl⟩
  | accepted i x _ ih =>
    cases hf with
    | cons hf =>
      cases hfast with
      | call _ hgood =>
        cases hsends with
        | call _ hk =>
          obtain ⟨q', hq', hq⟩ := ih hf (hgood _ rfl) (hk _)
          exact ⟨q', .cons hq', hq⟩
  | unanswered i x hr hcarried =>
    cases hf with
    | cons hf =>
      cases hfast with
      | call hfail _ =>
        obtain ⟨rfl, hq⟩ := hstopped hfail (hlost _ hr) hcarried hf
        exact ⟨_, .cons (.nil _), .inr hq⟩
  | failed i c hr hcarried =>
    cases hf with
    | cons hf =>
      cases hfast with
      | call hfail _ =>
        obtain ⟨rfl, hq⟩ := hstopped hfail hr hcarried hf
        exact ⟨_, .nil _, .inr hq⟩
  | selected i res hc =>
    cases hf with
    | cons hf =>
      cases hsends with
      | call hop _ => exact absurd hop hc

end CarriedOut

end CarriedOut

end Sphinx.Db
