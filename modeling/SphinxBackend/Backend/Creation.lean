import SphinxBackend.Backend.App
import SphinxBackend.Db.Insertion

/-!
# What creation sends

A run of `createEntities` is a walk over the entities as they are afterwards: each is inserted, and
then what it owns. `Creates one walk R` says this of a program that creates one thing. As long as
its insertions are accepted it goes on; if all are, it has sent the insertions of `walk` for the
entity it returns, which is related by `R` to the one it started with; and it stops at the first
one that is refused. The relation passes from one entity to a list of them (`Creates.list`), and
from modules to a course (`creates_course`), so that the induction over the two-level tree is done
once for all that is said about it.

Nothing here mentions the server but for the form of its answers. What happens to the tables
follows with `inserted_of_chain`, and what several clients do to them with the history of each.
-/

namespace Sphinx.Backend

open Db Interaction Program

/-! ## One insertion -/

section Insert

variable {E α : Type} [Entity E] {e : E}

theorem follows_insert_bind {f : Int32 → DbProgram α} {t : List (Call × PGresult)} {a : α}
    (h : Follows (insert e >>= f) t (.pure a)) (hgood : ∀ x ∈ t, IsReturned x.2) :
    ∃ i u, t = ((inserted e).call, .returned "id" i) :: u ∧ Follows (f i) u (.pure a) := by
  rw [insert_eq, call_bind] at h
  obtain ⟨r, u, rfl, hu⟩ := follows_call_ofExcept (x := .ok a) h
  obtain ⟨i, rfl⟩ := hgood _ List.mem_cons_self
  rw [insertResult_returned, ofExcept_ok, pure_bind] at hu
  exact ⟨i, u, rfl, hu⟩

theorem follows_insert_cons {f : Int32 → DbProgram α} {i : Int32} {u : List (Call × PGresult)}
    {q : DbProgram α} (h : Follows (f i) u q) :
    Follows (insert e >>= f) (((inserted e).call, .returned "id" i) :: u) q := by
  rw [insert_eq, call_bind]
  refine .cons ?_
  rw [insertResult_returned, ofExcept_ok, pure_bind]
  exact h

theorem reliable_insert (e : E) : Reliable IsReturned (insert e) := by
  rw [insert_eq]
  refine .call fun r hr ↦ ?_
  obtain ⟨i, rfl⟩ := hr
  rw [insertResult_returned]
  exact .pure i

theorem failFast_insert (e : E) : FailFast refusal (insert e) := by
  rw [insert_eq]
  refine .call (fun r err hr ↦ ?_) fun r _ ↦ .ofExcept _
  rw [refusal] at hr
  split at hr
  · rename_i hstatus
    obtain rfl := Option.some.inj hr
    unfold insertResult
    rw [hstatus]
    rfl
  · exact absurd hr (by simp)

theorem sends_insert (e : E) : Sends IsInsertion (insert e) := by
  rw [insert_eq]
  exact .call ⟨_, rfl⟩ fun r ↦ .ofExcept _

end Insert

/-! ## Programs that create -/

/-- `one` inserts what `walk` lists, and relates its argument to its result by `R`. -/
structure Creates {α : Type} (one : α → DbProgram α) (walk : α → List Insertion)
    (R : α → α → Prop) : Prop where
  follows : ∀ {a b : α} {t : List (Call × PGresult)}, Follows (one a) t (.pure b) →
    (∀ x ∈ t, IsReturned x.2) → t = (walk b).map Insertion.event ∧ R a b
  runs : ∀ {a b : α}, R a b → Follows (one a) ((walk b).map Insertion.event) (.pure b)
  reliable : ∀ a, Reliable IsReturned (one a)
  failFast : ∀ a, FailFast refusal (one a)
  sends : ∀ a, Sends IsInsertion (one a)

namespace Creates

variable {α : Type} {one : α → DbProgram α} {walk : α → List Insertion} {R : α → α → Prop}

/-- Wherever accepted insertions leave the program, they are the first ones of a complete run. -/
theorem prefix_of_follows (h : Creates one walk R) {a : α} {t : List (Call × PGresult)}
    {q : DbProgram α} (hf : Follows (one a) t q) (hgood : ∀ x ∈ t, IsReturned x.2) :
    ∃ b w w', R a b ∧ walk b = w ++ w' ∧ t = w.map Insertion.event ∧
      Follows q (w'.map Insertion.event) (.pure b) := by
  obtain ⟨u, b, hu, hq⟩ := (h.reliable a).complete ⟨0, rfl⟩ hf hgood
  have hall : ∀ x ∈ t ++ u, IsReturned x.2 := fun x hx ↦ by
    rcases List.mem_append.mp hx with hx | hx
    · exact hgood x hx
    · exact hu x hx
  obtain ⟨hevents, hR⟩ := h.follows (hf.append hq) hall
  obtain ⟨w, w', hwalk, rfl, rfl⟩ := List.map_eq_append_iff.mp hevents.symm
  exact ⟨b, w, w', hR, hwalk, rfl, hq⟩

/-- Against the server, an answer that is not a refusal is the acceptance of an insertion. -/
theorem isReturned_of_chain (h : Creates one walk R) {a : α} {t : List (Call × PGresult)}
    {q : DbProgram α} {db db' : Sql.Db} (hf : Follows (one a) t q) (hc : Chain postgres db t db')
    {x : Call × PGresult} (hx : x ∈ t) (hok : refusal x.2 = none) : IsReturned x.2 := by
  obtain ⟨y, hy⟩ := (h.sends a).of_mem hf x hx
  obtain ⟨s₁, s₂, hstep⟩ := hc.answered x hx
  rw [hy] at hstep
  exact isReturned_of_insertion hstep hok

/-- A complete run against the server. -/
theorem of_runs (h : Creates one walk R) {a b : α} {t : List (Call × PGresult)} {db db' : Sql.Db}
    (hrun : Runs postgres db (one a) t db' (.ok b)) :
    t = (walk b).map Insertion.event ∧ R a b ∧ Inserted db (walk b) db' := by
  obtain ⟨hf, hc⟩ := hrun
  have hgood : ∀ x ∈ t, IsReturned x.2 := by
    rcases (h.failFast a).trace_cases hf with hall | ⟨u, op, r, e, -, -, -, hthrow⟩
    · exact fun x hx ↦ h.isReturned_of_chain hf hc hx (hall x hx)
    · exact absurd hthrow (by simp)
  obtain ⟨rfl, hR⟩ := h.follows hf hgood
  exact ⟨rfl, hR, inserted_of_chain hc⟩

/-- If no answer was a refusal, the run has returned. -/
theorem returns_of_runs (h : Creates one walk R) {a : α} {t : List (Call × PGresult)}
    {db db' : Sql.Db} {x : Except Error α} (hrun : Runs postgres db (one a) t db' x)
    (hok : ∀ y ∈ t, refusal y.2 = none) : ∃ b, x = .ok b := by
  obtain ⟨b, w, w', -, -, -, hq⟩ := h.prefix_of_follows hrun.1 fun y hy ↦
    h.isReturned_of_chain hrun.1 hrun.2 hy (hok y hy)
  exact ⟨b, ofExcept_injective (follows_ofExcept_iff.mp hq).2.symm⟩

/-- A run that meets a refusal: it has done the first insertions of a complete one, the next one
is refused, and it ends there with the server's message. -/
theorem stopped_of_runs (h : Creates one walk R) {a : α} {t : List (Call × PGresult)}
    {db db' : Sql.Db} {x : Except Error α} (hrun : Runs postgres db (one a) t db' x)
    (hrefused : ∃ y ∈ t, refusal y.2 ≠ none) :
    ∃ b done next rest message, R a b ∧ walk b = done ++ next :: rest ∧
      t = done.map Insertion.event ++ [(next.call, .failed message)] ∧
      x = .error (.runtimeError message) ∧ Inserted db done db' := by
  obtain ⟨hf, hc⟩ := hrun
  rcases (h.failFast a).trace_cases hf with hall | ⟨u, op, r, e, rfl, hu, he, hthrow⟩
  · obtain ⟨y, hy, hne⟩ := hrefused
    exact absurd (hall y hy) hne
  obtain ⟨q, hfu, hlast⟩ := hf.split
  have hgood : ∀ y ∈ u, IsReturned y.2 := fun y hy ↦
    h.isReturned_of_chain hf hc (List.mem_append_left _ hy) (hu y hy)
  obtain ⟨b, done, w, hR, hwalk, rfl, hq⟩ := h.prefix_of_follows hfu hgood
  obtain ⟨db₁, hdone, hstep⟩ := chain_append_iff.mp hc
  obtain ⟨db₂, hstep, hend⟩ := chain_cons_iff.mp hstep
  obtain rfl := chain_nil_iff.mp hend
  -- the program is about to send something, so the walk is not over
  cases hlast with
  | cons hlast =>
    cases w with
    | nil => exact absurd (follows_nil_iff.mp hq) (by simp)
    | cons next rest =>
      obtain ⟨hop, -⟩ := follows_call_cons_iff.mp hq
      rw [← hop] at hstep
      obtain ⟨rfl, message, rfl, rfl⟩ := eq_of_refused hstep he
      refine ⟨b, done, next, rest, message, hR, hwalk, by rw [← hop], ?_, inserted_of_chain hdone⟩
      exact ofExcept_injective hthrow

/-- In any run, what was sent are the first insertions of a complete one, and all but the last of
them were accepted. -/
theorem exists_walk_of_runs (h : Creates one walk R) {a : α} {t : List (Call × PGresult)}
    {db db' : Sql.Db} {x : Except Error α} (hrun : Runs postgres db (one a) t db' x) :
    ∃ b, R a b ∧ (∀ b', x = .ok b' → b' = b ∧ t = (walk b).map Insertion.event) ∧
      ∀ y ∈ t, ∃ before z after, walk b = before ++ z :: after ∧ y.1 = z.call ∧
        ∀ w ∈ before, w.event ∈ t := by
  by_cases hrefused : ∃ y ∈ t, refusal y.2 ≠ none
  · obtain ⟨b, done, next, rest, message, hR, hwalk, rfl, rfl, -⟩ := h.stopped_of_runs hrun hrefused
    refine ⟨b, hR, fun b' hb' ↦ absurd hb' (by simp), fun y hy ↦ ?_⟩
    rcases List.mem_append.mp hy with hy | hy
    · obtain ⟨z, hz, rfl⟩ := List.mem_map.mp hy
      obtain ⟨before, after, rfl⟩ := List.append_of_mem hz
      refine ⟨before, z, after ++ next :: rest, by rw [hwalk, List.append_assoc]; rfl, rfl, ?_⟩
      exact fun w hw ↦ List.mem_append_left _
        (List.mem_map_of_mem (List.mem_append_left _ hw))
    · obtain rfl := List.mem_singleton.mp hy
      exact ⟨done, next, rest, hwalk, rfl, fun w hw ↦
        List.mem_append_left _ (List.mem_map_of_mem hw)⟩
  · obtain ⟨b, rfl⟩ := h.returns_of_runs hrun fun y hy ↦ by
      by_contra hne
      exact hrefused ⟨y, hy, hne⟩
    obtain ⟨rfl, hR, -⟩ := h.of_runs hrun
    refine ⟨b, hR, fun b' hb' ↦ ?_, fun y hy ↦ ?_⟩
    · obtain rfl := Except.ok.inj hb'
      exact ⟨rfl, rfl⟩
    · obtain ⟨z, hz, rfl⟩ := List.mem_map.mp hy
      obtain ⟨before, after, hwalk⟩ := List.append_of_mem hz
      refine ⟨before, z, after, hwalk, rfl, fun w hw ↦ List.mem_map_of_mem ?_⟩
      rw [hwalk]
      exact List.mem_append_left _ hw

/-- Such a run, when the server may accept the first insertions. -/
theorem runs_refused (h : Creates one walk R) {a b : α} (hR : R a b) {done rest : List Insertion}
    {next : Insertion} (hwalk : walk b = done ++ next :: rest) {db : Sql.Db}
    (hadmits : Admits db done) (message : String) :
    Runs postgres db (one a) (done.map Insertion.event ++ [(next.call, .failed message)])
      (done.foldl (fun db x ↦ x.apply db) db) (.error (.runtimeError message)) := by
  have hfull := h.runs hR
  rw [hwalk, List.map_append, List.map_cons] at hfull
  refine ⟨(h.failFast a).follows_fail hfull refusal_of_mem_events (refusal_failed message),
    chain_append_iff.mpr ⟨_, chain_of_admits hadmits, .cons ?_ (.nil _)⟩⟩
  exact postgres_insertion_iff.mpr (.inl ⟨message, rfl, rfl⟩)

/-- One after the other. -/
theorem list (h : Creates one walk R) {many : List α → DbProgram (List α)}
    (hnil : many [] = .pure [])
    (hcons : ∀ a as, many (a :: as) = one a >>= fun b ↦ many as >>= fun bs ↦ .pure (b :: bs)) :
    Creates many (List.flatMap walk) (List.Forall₂ R) where
  follows := by
    intro as bs t hf hgood
    induction as generalizing bs t with
    | nil =>
      rw [hnil, follows_pure_iff] at hf
      obtain ⟨rfl, hbs⟩ := hf
      obtain rfl := Program.pure.inj hbs
      exact ⟨rfl, .nil⟩
    | cons a as ih =>
      rw [hcons] at hf
      obtain ⟨b, t₁, t₂, rfl, h₁, h₂⟩ := hf.of_bind
      obtain ⟨bs', h₃, rfl⟩ := h₂.of_bind_pure
      -- both parts were answered well, so each is a walk of its own
      obtain ⟨rfl, hR⟩ := h.follows h₁ fun x hx ↦ hgood x (List.mem_append_left _ hx)
      obtain ⟨rfl, hRs⟩ := ih h₃ fun x hx ↦ hgood x (List.mem_append_right _ hx)
      exact ⟨by rw [List.flatMap_cons, List.map_append], .cons hR hRs⟩
  runs := by
    intro as bs hR
    induction hR with
    | nil => rw [hnil]; exact .nil _
    | @cons a b as bs hab _ ih =>
      rw [hcons, List.flatMap_cons, List.map_append]
      exact (h.runs hab).bind (ih.bind_pure fun bs ↦ b :: bs)
  reliable := (Reliable.bindClosed IsReturned).many hnil hcons h.reliable
  failFast := (FailFast.bindClosed refusal).many hnil hcons h.failFast
  sends := (Sends.bindClosed IsInsertion).many hnil hcons h.sends

end Creates

/-! ## Entities and lists of them -/

section Generic

variable {E : Type} [Creatable E]

/-- What `createEntities` does with one entity. -/
def createOne (entity : E) : DbProgram E :=
  Creatable.createEntity entity >>= fun entityId ↦
    Creatable.createSubentities
      (Creatable.updateSubentities (Entity.setId entity entityId) entityId)

theorem createEntities_nil : createEntities ([] : List E) = .pure [] := rfl

theorem createEntities_cons (e : E) (es : List E) :
    createEntities (e :: es)
      = createOne e >>= fun e' ↦ createEntities es >>= fun es' ↦ .pure (e' :: es') := by
  rw [createEntities, createOne, bind_assoc]
  rfl

/-- From one entity to a list of them. -/
theorem creates_entities {walk : E → List Insertion} {R : E → E → Prop}
    (h : Creates createOne walk R) :
    Creates createEntities (List.flatMap walk) (List.Forall₂ R) :=
  h.list createEntities_nil createEntities_cons

/-- Entities that are created alike are created alike one after the other. -/
theorem createEntities_congr {R : E → E → Prop} (h : ∀ e e', R e e' → createOne e' = createOne e)
    {es es' : List E} (hR : List.Forall₂ R es es') : createEntities es' = createEntities es := by
  induction hR with
  | nil => rfl
  | cons hab _ ih => rw [createEntities_cons, createEntities_cons, h _ _ hab, ih]

/-- What sequencing keeps, likewise. -/
theorem closed_entities {P : ∀ α : Type, DbProgram α → Prop} (hP : BindClosed P)
    (h : ∀ e : E, P E (createOne e)) (es : List E) : P (List E) (createEntities es) :=
  hP.many createEntities_nil createEntities_cons h es

/-- The entity is the same but for its id. -/
def Renumbered (e e' : E) : Prop := e' = Entity.setId e (Entity.id e')

/-- What sequencing keeps passes from the insertion to the creation of an entity without links. -/
theorem closed_leaf {P : ∀ α : Type, DbProgram α → Prop} (hP : BindClosed P)
    (hinsert : ∀ e : E, P Int32 (insert e))
    (h : ∀ e : E, createOne e = insert e >>= fun i ↦ .pure (Entity.setId e i)) (e : E) :
    P E (createOne e) := by
  rw [h]
  exact hP.bind (hinsert e) fun i ↦ hP.pure _

/-- An entity without links. -/
theorem creates_leaf
    (h : ∀ e : E, createOne e = insert e >>= fun i ↦ .pure (Entity.setId e i)) :
    Creates createOne (fun e : E ↦ [inserted e]) Renumbered where
  follows := by
    intro e e' t hf hgood
    rw [h] at hf
    obtain ⟨i, u, rfl, hu⟩ := follows_insert_bind hf hgood
    obtain ⟨rfl, he⟩ := follows_pure_iff.mp hu
    obtain rfl := Program.pure.inj he
    refine ⟨?_, by rw [Renumbered, id_setId]⟩
    rw [List.map_singleton, (sameColumns_setId e i).event_eq, id_setId]
  runs := by
    intro e e' hR
    rw [h, List.map_singleton, hR, (sameColumns_setId e _).event_eq, id_setId]
    exact follows_insert_cons (.nil _)
  reliable := closed_leaf (Reliable.bindClosed IsReturned) reliable_insert h
  failFast := closed_leaf (FailFast.bindClosed refusal) failFast_insert h
  sends := closed_leaf (Sends.bindClosed IsInsertion) sends_insert h

theorem creates_leaves
    (h : ∀ e : E, createOne e = insert e >>= fun i ↦ .pure (Entity.setId e i)) :
    Creates createEntities (List.map (inserted (E := E))) (List.Forall₂ Renumbered) := by
  have hwalk : List.map (inserted (E := E)) = List.flatMap fun e ↦ [inserted e] :=
    funext fun es ↦ List.map_eq_flatMap
  rw [hwalk]
  exact creates_entities (creates_leaf h)

end Generic

/-! ## Users and modules -/

namespace Model

theorem creates_users :
    Creates createEntities (List.map (inserted (E := User))) (List.Forall₂ Renumbered) :=
  creates_leaves fun _ ↦ rfl

theorem creates_modules :
    Creates createEntities (List.map (inserted (E := Module))) (List.Forall₂ Renumbered) :=
  creates_leaves fun _ ↦ rfl

/-- The accessor of the reference to a course. -/
abbrev courseIdAccessor : Accessor Module :=
  ⟨"course_id", Module.courseIdColumn, Module.courseId, fun e v ↦ { e with courseId := v }⟩

theorem courseIdAccessor_mem : courseIdAccessor ∈ getInsertColumns Module := List.mem_cons_self

theorem row_courseId (m : Module) :
    (inserted m).row "course_id" = some (Sql.keyText m.courseId) :=
  (row_name m courseIdAccessor_mem).trans (congrArg some (Text.cString_toString _))

/-! ## Courses -/

/-- The nested modules; none when the link is empty. -/
def Course.nested (c : Course) : List Module := c.modules.getD []

/-- A course, then its modules in order. -/
def Course.walk (c : Course) : List Insertion := inserted c :: c.nested.map inserted

/-- The module is the same but for its id, and refers to the course. -/
def Module.Relinked (courseId : Int32) (m m' : Module) : Prop :=
  m' = { m with id := m'.id, courseId := courseId }

/-- The course is the same but for its id and the ids and references of its modules. -/
structure Course.Relinked (c c' : Course) : Prop where
  columns : c' = { c with id := c'.id, modules := c'.modules }
  link : Option.Rel (List.Forall₂ (Module.Relinked c'.id)) c.modules c'.modules

theorem Course.updateSubentities_eq (c : Course) (id : Int32) :
    Course.modulesLink.updateSubentities c id
      = { c with modules := c.modules.map (List.map fun m ↦ { m with courseId := id }) } := by
  obtain ⟨i, title, description, ownerId, modules⟩ := c
  cases modules <;> rfl

theorem createOne_course (c : Course) :
    createOne c = insert c >>= fun i ↦
      match c.modules with
      | none => .pure { c with id := i }
      | some ms => createEntities (ms.map fun m ↦ { m with courseId := i }) >>= fun ms' ↦
          .pure { c with id := i, modules := some ms' } := by
  have hrest (i : Int32) : Course.modulesLink.createSubentities
      (Course.modulesLink.updateSubentities { c with id := i } i)
      = match c.modules with
        | none => .pure { c with id := i }
        | some ms => createEntities (ms.map fun m ↦ { m with courseId := i }) >>= fun ms' ↦
            .pure { c with id := i, modules := some ms' } := by
    rw [Course.updateSubentities_eq]
    obtain ⟨i', title, description, ownerId, modules⟩ := c
    cases modules <;> rfl
  exact congrArg _ (funext hrest)

theorem Course.sameColumns (c : Course) (id : Int32) (modules : Option (List Module)) :
    SameColumns c { c with id := id, modules := modules } := by
  intro a ha
  rcases List.mem_cons.mp (mem_accessors_of_mem_insertColumns ha) with rfl | ha'
  · exact absurd rfl (name_ne_id ha)
  · simp only [List.mem_cons, List.not_mem_nil, or_false] at ha'
    rcases ha' with rfl | rfl | rfl <;> rfl

/-- What sequencing keeps passes from the insertion of a course and the creation of modules to the
creation of a course. -/
theorem closed_course {P : ∀ α : Type, DbProgram α → Prop} (hP : BindClosed P)
    (hinsert : ∀ c : Course, P Int32 (insert c))
    (hmodules : ∀ ms : List Module, P (List Module) (createEntities ms)) (c : Course) :
    P Course (createOne c) := by
  rw [createOne_course]
  refine hP.bind (hinsert c) fun i ↦ ?_
  cases c.modules with
  | none => exact hP.pure _
  | some ms => exact hP.bind (hmodules _) fun ms' ↦ hP.pure _

theorem creates_course : Creates createOne Course.walk Course.Relinked where
  follows := by
    intro c c' t hf hgood
    rw [createOne_course] at hf
    obtain ⟨i, u, rfl, hu⟩ := follows_insert_bind hf hgood
    -- what follows the course's own insertion depends on whether its link is engaged
    cases hm : c.modules with
    | none =>
      rw [hm] at hu
      obtain ⟨rfl, hc⟩ := follows_pure_iff.mp hu
      obtain rfl := Program.pure.inj hc
      refine ⟨?_, rfl, by rw [hm]; exact .none⟩
      rw [Course.walk, List.map_cons, (c.sameColumns i none).event_eq]
      rfl
    | some ms =>
      rw [hm] at hu
      obtain ⟨ms', hmodules, rfl⟩ := hu.of_bind_pure
      obtain ⟨rfl, hms⟩ := creates_modules.follows hmodules fun x hx ↦
        hgood x (List.mem_cons_of_mem _ hx)
      refine ⟨?_, rfl, ?_⟩
      · rw [Course.walk, List.map_cons, (c.sameColumns i (some ms')).event_eq]
        rfl
      · rw [hm]
        rw [List.forall₂_map_left_iff] at hms
        exact .some hms
  runs := by
    intro c c' hR
    obtain ⟨hcolumns, hlink⟩ := hR
    have hevent : (inserted c').event = ((inserted c).call, .returned "id" c'.id) := by
      rw [hcolumns]
      exact (c.sameColumns c'.id c'.modules).event_eq
    rw [createOne_course, Course.walk, List.map_cons, hevent]
    refine follows_insert_cons ?_
    -- the id is the one the course ends up with, so the modules are linked to it
    obtain ⟨i, title, description, ownerId, modules⟩ := c
    obtain ⟨i', title', description', ownerId', modules'⟩ := c'
    obtain ⟨-, rfl, rfl, rfl, -⟩ := Course.mk.inj hcolumns
    cases hlink with
    | none => exact .nil _
    | @some ms ms' hms =>
      have hms' : List.Forall₂ Renumbered (ms.map fun m ↦ { m with courseId := i' }) ms' :=
        List.forall₂_map_left_iff.mpr hms
      exact (creates_modules.runs hms').bind_pure fun ms' ↦
        Course.mk i' title' description' ownerId' (some ms')
  reliable :=
    closed_course (Reliable.bindClosed IsReturned) reliable_insert creates_modules.reliable
  failFast := closed_course (FailFast.bindClosed refusal) failFast_insert creates_modules.failFast
  sends := closed_course (Sends.bindClosed IsInsertion) sends_insert creates_modules.sends

theorem creates_courses :
    Creates createEntities (List.flatMap Course.walk) (List.Forall₂ Course.Relinked) :=
  creates_entities creates_course

end Model

end Sphinx.Backend
