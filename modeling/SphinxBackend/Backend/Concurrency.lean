import SphinxBackend.Backend.Persistence
import SphinxBackend.Db.SharedLog
import SphinxBackend.Interaction.Pool

/-!
# Creation by several clients at once

Any number of clients run `createEntities` against one server, each with its own courses, and their
insertions fall into any order. Read for one client, the log of the pool is the history of that
client's program, so it is a beginning of a walk over that client's courses, whatever the others
have done in between. Read whole, it is a trace of the server, which says what the tables hold. The
insertions that were carried out along the log (`CarriedOut`) tie the two readings together.
-/

namespace Sphinx.Backend

open Db Interaction Program Collections

/-! ## A course comes before its modules -/

namespace Model

theorem Course.Relinked.courseId {c c' : Course} (h : c.Relinked c') :
    ∀ m ∈ c'.nested, m.courseId = c'.id := by
  have hlink := h.link
  rw [Course.nested]
  generalize c.modules = ms, c'.modules = ms' at hlink
  cases hlink with
  | none => exact fun m hm ↦ absurd hm List.not_mem_nil
  | some hms =>
    intro m hm
    obtain ⟨m₀, -, hrelinked⟩ := exists_mem_of_forall₂ hms.flip hm
    rw [hrelinked]

theorem courseId_of_relinked {cs cs' : List Course} (h : List.Forall₂ Course.Relinked cs cs') :
    ∀ c ∈ cs', ∀ m ∈ c.nested, m.courseId = c.id := by
  intro c' hc'
  obtain ⟨c, -, hrelinked⟩ := exists_mem_of_forall₂ h.flip hc'
  exact hrelinked.courseId

/-- In a walk, whatever goes into the table of modules is a module of a course that went before. -/
theorem course_before_module {cs : List Course} {before after : List Insertion} {x : Insertion}
    (h : cs.flatMap Course.walk = before ++ x :: after) (hx : x.table = "modules") :
    ∃ c ∈ cs, ∃ m ∈ c.nested, x = inserted m ∧ inserted c ∈ before := by
  induction cs generalizing before with
  | nil => exact absurd h (by simp)
  | cons c cs ih =>
    rw [List.flatMap_cons] at h
    -- the insertion is in the walk of the first course, or after it
    rcases List.append_eq_append_iff.mp h with ⟨pre, rfl, hrest⟩ | ⟨post, hwalk, hrest⟩
    · obtain ⟨c', hc', m, hm, hx', hbefore⟩ := ih hrest
      exact ⟨c', List.mem_cons_of_mem c hc', m, hm, hx', List.mem_append_right _ hbefore⟩
    · cases post with
      | nil =>
        -- its course went before it, so the rest of the walk does not begin with it
        have hfirst : cs.flatMap Course.walk = [] ++ x :: after := hrest.symm
        obtain ⟨c', hc', m, hm, hx', hbefore⟩ := ih hfirst
        exact absurd hbefore List.not_mem_nil
      | cons y post =>
        obtain rfl : x = y := (List.cons.inj hrest).1
        rw [Course.walk] at hwalk
        cases before with
        | nil =>
          -- a walk begins with the course itself
          obtain rfl := (List.cons.inj hwalk).1
          exact absurd hx (show "courses" ≠ "modules" by decide)
        | cons y before =>
          obtain ⟨rfl, hnested⟩ := List.cons.inj hwalk
          have hmem : x ∈ c.nested.map inserted := by
            rw [hnested]
            exact List.mem_append_right _ List.mem_cons_self
          obtain ⟨m, hm, rfl⟩ := List.mem_map.mp hmem
          exact ⟨c, List.mem_cons_self, m, hm, rfl, List.mem_cons_self⟩

end Model

/-! ## What one client has added -/

variable {ι : Type} [DecidableEq ι]

/-- The insertions of one client, in order. -/
def ownOf (added : List (ι × Insertion)) (i : ι) : List Insertion :=
  (added.filter fun a ↦ a.1 = i).map Prod.snd

/-- A client with the courses `cs` to create has so far made the insertions `own`, and `left` is
what it has still to do. `cs'` is what the courses are, or would be, when it is done. -/
structure AddedBy (cs cs' : List Model.Course) (own : List Insertion)
    (left : DbProgram (List Model.Course)) : Prop where
  relinked : List.Forall₂ Model.Course.Relinked cs cs'
  /-- It goes through the courses in order, each before its modules. -/
  walk : own <+: cs'.flatMap Model.Course.walk
  /-- A module's row refers to the row the client added before for the module's own course. -/
  refers : ∀ before x after, own = before ++ x :: after → x.table = "modules" →
    ∃ c ∈ cs', ∃ m ∈ c.nested, x = inserted m ∧ inserted c ∈ before ∧
      x.row "course_id" = (inserted c).row "id"
  /-- When it has finished, it has added one row for each course and each module. -/
  complete : ∀ v, left = .pure v → v = cs' ∧
    rowsInto "courses" own = cs'.map (fun c ↦ (inserted c).row) ∧
    rowsInto "modules" own = (cs'.flatMap Model.Course.nested).map fun m ↦ (inserted m).row

theorem addedBy_of_walk {cs cs' : List Model.Course} {own rest : List Insertion}
    {left : DbProgram (List Model.Course)}
    (hR : List.Forall₂ Model.Course.Relinked cs cs')
    (hwalk : cs'.flatMap Model.Course.walk = own ++ rest)
    (hdone : ∀ v, left = .pure v → v = cs' ∧ rest = []) : AddedBy cs cs' own left where
  relinked := hR
  walk := ⟨rest, hwalk.symm⟩
  refers := by
    rintro before x after rfl hx
    rw [List.append_assoc] at hwalk
    obtain ⟨c, hc, m, hm, rfl, hbefore⟩ := Model.course_before_module hwalk hx
    refine ⟨c, hc, m, hm, rfl, hbefore, ?_⟩
    rw [Model.row_courseId, Model.courseId_of_relinked hR c hc m hm]
    exact (row_id c).symm
  complete := by
    intro v hv
    obtain ⟨rfl, rfl⟩ := hdone v hv
    rw [List.append_nil] at hwalk
    rw [← hwalk]
    exact ⟨rfl, Model.rowsInto_courses _, Model.rowsInto_modules _⟩

/-- What a client has added before it was refused something, if it was. -/
theorem exists_addedBy {cs : List Model.Course} {own : List Insertion}
    {q left : DbProgram (List Model.Course)}
    (hf : Follows (createEntities cs) (own.map Insertion.event) q)
    (hleft : q = left ∨ ∃ e, left = .throw e) : ∃ cs', AddedBy cs cs' own left := by
  obtain ⟨cs', w, w', hR, hwalk, hown, hq⟩ :=
    Model.creates_courses.prefix_of_follows hf isReturned_of_mem_events
  obtain rfl := List.map_injective_iff.mpr Insertion.event_injective hown
  refine ⟨cs', addedBy_of_walk hR hwalk fun v hv ↦ ?_⟩
  rcases hleft with rfl | ⟨e, he⟩
  · rw [hv, follows_pure_iff] at hq
    exact ⟨(Program.pure.inj hq.2).symm, List.map_eq_nil_iff.mp hq.1⟩
  · exact absurd (hv.symm.trans he) (by simp)

/-! ## The pool -/

/-- **Clients do not get into each other's way.** In every state that any interleaving of their
insertions can lead to, the tables hold the rows they held at first and those of the insertions in
the log that were accepted, which each client has made on its own and in the order of its courses;
and no two rows of a table have the same id. -/
theorem createEntities_concurrently {courses : ι → List Model.Course} {db : Sql.Db}
    {c : Pool ι Sql.Db Call PGresult Error (List Model.Course)}
    (h : Pool.Reachable postgres db (fun i ↦ createEntities (courses i)) c) :
    ∃ added : List (ι × Insertion), CarriedOut (fun _ ↦ False) c.log added ∧
      (∀ tbl, (c.shared tbl).rows = (db tbl).rows ++ rowsInto tbl (added.map Prod.snd)) ∧
      (∀ i, ∃ cs', AddedBy (courses i) cs' (ownOf added i) (c.clients i)) ∧
      ∀ tbl, (db tbl).key = "id" → ((c.shared tbl).rows.map (· "id")).Nodup := by
  have hlost : ∀ res : PGresult, False → refusal res ≠ none := fun _ ↦ False.elim
  have hinsertion : ∀ y ∈ c.log, IsInsertion y.2.1 := fun y hy ↦
    (Model.creates_courses.sends (courses y.1)).of_mem (h.follows y.1) _ (Pool.mem_history.mpr hy)
  obtain ⟨added, hcarried, hinserted⟩ :=
    exists_carriedOut hlost h.chain.unreliable fun y hy ↦ .inl (hinsertion y hy)
  refine ⟨added, hcarried, hinserted.rows, fun i ↦ ?_, fun tbl hkey ↦ ?_⟩
  · obtain ⟨q, hq, hleft⟩ := (hcarried.filter (· = i)).follows_events hlost (h.follows i)
      (Model.creates_courses.failFast (courses i)) (Model.creates_courses.sends (courses i))
    exact exists_addedBy hq hleft
  · rw [← hkey, ← hinserted.key]
    exact (c.shared tbl).keys_nodup

/-- A second client's course. -/
def calculus : Model.Course := ⟨0, "Calculus", some "", 1, none⟩

/-- The walks of two clients: the second one inserts its course between the first one's course and
that course's module. -/
def interleaving : List (Bool × Insertion) :=
  [(true, inserted Model.algebraCreated), (false, inserted (Entity.setId calculus 2)),
    (true, inserted (⟨4, 1, "Groups", some "1"⟩ : Model.Module))]

def twoClients : Pool Bool Sql.Db Call PGresult Error (List Model.Course) where
  shared := (interleaving.map Prod.snd).foldl (fun db x ↦ x.apply db) campus
  clients i := .pure (if i then [Model.algebraCreated] else [Entity.setId calculus 2])
  log := interleaving.map fun a ↦ (a.1, a.2.event)

theorem twoClients_reachable : Pool.Reachable postgres campus
    (fun i ↦ createEntities (if i then [Model.algebra] else [calculus])) twoClients := by
  refine Pool.reachable_of_log
    (chain_of_admits (show Admits campus (interleaving.map Prod.snd) by decide)) fun i ↦ ?_
  cases i with
  | true => exact Model.creates_courses.runs Model.algebra_relinked
  | false =>
    have hR : List.Forall₂ Model.Course.Relinked [calculus] [Entity.setId calculus 2] :=
      .cons ⟨rfl, .none⟩ .nil
    exact Model.creates_courses.runs hR

theorem twoClients_added :
    ∃ added : List (Bool × Insertion), CarriedOut (fun _ ↦ False) twoClients.log added ∧
      (∀ tbl, (twoClients.shared tbl).rows
        = (campus tbl).rows ++ rowsInto tbl (added.map Prod.snd)) ∧
      (∀ i, ∃ cs', AddedBy (if i then [Model.algebra] else [calculus]) cs' (ownOf added i)
        (twoClients.clients i)) ∧
      ∀ tbl, (campus tbl).key = "id" → ((twoClients.shared tbl).rows.map (· "id")).Nodup :=
  createEntities_concurrently twoClients_reachable

end Sphinx.Backend
