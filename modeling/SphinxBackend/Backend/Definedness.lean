import SphinxBackend.Backend.Guarantees
import SphinxBackend.Backend.Parameters

/-!
# Requests that leave nothing undefined

Some things that the handlers do have no meaning in the language: to look up a key that a document
does not have, to convert a number that does not fit, and to render a value that is absent. The
first two can only happen while a body is decoded, before anything is sent, and the last only while
an entity without one of its optional columns is inserted.

So it is known from its body alone whether a request stays within the language (`Sane`), unless it
reaches the macro for what is not implemented. For the rendering the condition is exact: the program
of a request never renders an absent value, whatever it is answered, just if no entity of its body
lacks a column, at either level of the tree. A process in which all requests are sane stays within
the language as a whole.
-/

namespace Sphinx.Backend

open Db Nlohmann Interaction Program Collections Model

/-! ## Entities that lack nothing -/

namespace Model

def User.Complete (u : User) : Prop := u.studentId.isSome

def Module.Complete (m : Module) : Prop := m.description.isSome

/-- The modules of the course are inserted as well. -/
def Course.Complete (c : Course) : Prop :=
  c.description.isSome ∧ ∀ m ∈ c.nested, m.Complete

end Model

theorem noStrayRead_user_iff (u : User) : NoStrayRead (insert u) ↔ u.Complete := by
  have hcolumns : getInsertColumns User = User.accessors.tail := rfl
  rw [noStrayRead_insert_iff, hcolumns]
  simp only [User.accessors, List.tail_cons, List.forall_mem_cons]
  exact ⟨fun h ↦ h.2.2.2.1, fun h ↦ ⟨rfl, rfl, rfl, h, rfl, rfl, List.forall_mem_nil _⟩⟩

theorem noStrayRead_module_iff (m : Module) : NoStrayRead (insert m) ↔ m.Complete := by
  have hcolumns : getInsertColumns Module = Module.accessors.tail := rfl
  rw [noStrayRead_insert_iff, hcolumns]
  simp only [Module.accessors, List.tail_cons, List.forall_mem_cons]
  exact ⟨fun h ↦ h.2.2.1, fun h ↦ ⟨rfl, rfl, h, List.forall_mem_nil _⟩⟩

theorem noStrayRead_course_iff (c : Course) :
    NoStrayRead (insert c) ↔ c.description.isSome := by
  have hcolumns : getInsertColumns Course = Course.accessors.tail := rfl
  rw [noStrayRead_insert_iff, hcolumns]
  simp only [Course.accessors, List.tail_cons, List.forall_mem_cons]
  exact ⟨fun h ↦ h.2.1, fun h ↦ ⟨rfl, h, rfl, List.forall_mem_nil _⟩⟩

/-! ## Creation -/

section Creation

variable {E : Type} [Creatable E] {complete : E → Prop}

/-- What is known of one insertion is known of the rest, because insertions can be accepted. -/
theorem noStrayRead_bind_iff {α β : Type} {p : DbProgram α} {f : α → DbProgram β} {C : Prop}
    (hp : Reliable IsReturned p) (hf : ∀ a, NoStrayRead (f a) ↔ C) :
    NoStrayRead (p >>= f) ↔ NoStrayRead p ∧ C :=
  hp.sends_bind_iff ⟨0, rfl⟩ hf

theorem noStrayRead_pure {α : Type} (a : α) : NoStrayRead (.pure a : DbProgram α) := .pure a

theorem noStrayRead_leaf_iff
    (h : ∀ e : E, createOne e = insert e >>= fun i ↦ .pure (Entity.setId e i))
    (hinsert : ∀ e : E, NoStrayRead (insert e) ↔ complete e) (e : E) :
    NoStrayRead (createOne e) ↔ complete e := by
  rw [h, noStrayRead_bind_iff (reliable_insert e) fun i ↦ iff_true_intro (noStrayRead_pure _),
    and_true, hinsert]

theorem noStrayRead_createEntities_iff (hone : ∀ e : E, NoStrayRead (createOne e) ↔ complete e)
    (hreliable : ∀ e : E, Reliable IsReturned (createOne e))
    (hmany : ∀ es : List E, Reliable IsReturned (createEntities es)) (es : List E) :
    NoStrayRead (createEntities es) ↔ ∀ e ∈ es, complete e := by
  induction es with
  | nil => exact iff_of_true (noStrayRead_pure _) (List.forall_mem_nil _)
  | cons e es ih =>
    rw [createEntities_cons, List.forall_mem_cons, ← hone e, ← ih]
    refine noStrayRead_bind_iff (hreliable e) fun e' ↦ ?_
    rw [noStrayRead_bind_iff (hmany es) fun es' ↦ iff_true_intro (noStrayRead_pure _), and_true]

end Creation

theorem noStrayRead_users_iff (us : List User) :
    NoStrayRead (createEntities us) ↔ ∀ u ∈ us, u.Complete :=
  noStrayRead_createEntities_iff (noStrayRead_leaf_iff (fun _ ↦ rfl) noStrayRead_user_iff)
    (creates_leaf fun _ ↦ rfl).reliable creates_users.reliable us

theorem noStrayRead_modules_iff (ms : List Module) :
    NoStrayRead (createEntities ms) ↔ ∀ m ∈ ms, m.Complete :=
  noStrayRead_createEntities_iff (noStrayRead_leaf_iff (fun _ ↦ rfl) noStrayRead_module_iff)
    (creates_leaf fun _ ↦ rfl).reliable creates_modules.reliable ms

theorem noStrayRead_createCourse_iff (c : Course) :
    NoStrayRead (createOne c) ↔ c.Complete := by
  rw [createOne_course, Course.Complete, ← noStrayRead_course_iff]
  refine noStrayRead_bind_iff (reliable_insert c) fun i ↦ ?_
  obtain ⟨id, title, description, ownerId, modules⟩ := c
  cases modules with
  | none => exact iff_of_true (noStrayRead_pure _) (List.forall_mem_nil _)
  -- the references are set before the modules are inserted, which changes no description
  | some ms =>
    refine (noStrayRead_bind_iff (creates_modules.reliable _) fun ms' ↦
      iff_true_intro (noStrayRead_pure _)).trans ?_
    rw [and_true, noStrayRead_modules_iff, List.forall_mem_map]
    rfl

theorem noStrayRead_courses_iff (cs : List Course) :
    NoStrayRead (createEntities cs) ↔ ∀ c ∈ cs, c.Complete :=
  noStrayRead_createEntities_iff noStrayRead_createCourse_iff creates_course.reliable
    creates_courses.reliable cs

/-! ## Requests -/

section Request

variable (notImplementedYet : Error) (parse : String → Except Error Json) (junk : List ℕ → Int32)

/-- No entity of the body lacks a column. -/
def PostHandler.Complete (body : String) : PostHandler → Prop
  | users => ∀ us, deserializeEntitiesFromText User parse junk body true = .ok us →
      ∀ u ∈ us, u.Complete
  | courses => ∀ cs, deserializeEntitiesFromText Course parse junk body true = .ok cs →
      ∀ c ∈ cs, c.Complete
  | modules _ => ∀ ms, deserializeEntitiesFromText Module parse junk body true = .ok ms →
      ∀ m ∈ ms, m.Complete

/-- The request stays within the language. -/
structure Sane (route : Route) (req : Request) : Prop where
  complete : ∀ handler, postHandler route req = some handler →
    handler.Complete parse junk req.body
  defined : Defined notImplementedYet parse junk route req

theorem noStrayRead_createThen_iff {E : Type} [Creatable E] {complete : E → Prop}
    {entities : Except Error (List E)} {respond : List E → Response}
    (hmany : ∀ es : List E, Reliable IsReturned (createEntities es))
    (hcomplete : ∀ es : List E, NoStrayRead (createEntities es) ↔ ∀ e ∈ es, complete e) :
    NoStrayRead (createThen entities respond) ↔
      ∀ es, entities = .ok es → ∀ e ∈ es, complete e := by
  cases entities with
  | error e => exact iff_of_true (.throw e) (by simp)
  | ok es =>
    change NoStrayRead (createEntities es >>= fun es' ↦ .pure (respond es')) ↔ _
    rw [noStrayRead_bind_iff (hmany es) fun es' ↦ iff_true_intro (noStrayRead_pure _), and_true,
      hcomplete]
    simp

variable {notImplementedYet parse junk}

theorem PostHandler.noStrayRead_run_iff (handler : PostHandler) (body : String) :
    NoStrayRead (handler.run parse junk body) ↔ handler.Complete parse junk body := by
  cases handler with
  | users =>
    rw [PostHandler.run, usersRoute_post]
    exact noStrayRead_createThen_iff creates_users.reliable noStrayRead_users_iff
  | courses =>
    rw [run_courses]
    exact noStrayRead_createThen_iff creates_courses.reliable noStrayRead_courses_iff
  | modules courseId =>
    rw [PostHandler.run, modulesRoute_post]
    exact noStrayRead_createThen_iff creates_modules.reliable noStrayRead_modules_iff

/-- A question has no parameters, or one that is there. -/
theorem argsStr_isSome_of_question {c : Call} (hc : IsQuestion c) : c.argsStr.isSome := by
  obtain ⟨q, rfl⟩ := hc
  cases q <;> exact (argsStr_isSome_iff _).mpr (by simp)

theorem noStrayRead_of_not_post {route : Route} {req : Request}
    (hpost : postHandler route req = none) :
    NoStrayRead (serve notImplementedYet parse junk route req) :=
  (sends_serve_of_not_post notImplementedYet parse junk hpost).imp
    fun _ ↦ argsStr_isSome_of_question

/-- **A request never renders an absent value just if its body lacks none.** This is so for all
routes, and whatever the request is answered on its way. -/
theorem noStrayRead_serve_iff (notImplementedYet : Error) (parse : String → Except Error Json)
    (junk : List ℕ → Int32) (route : Route) (req : Request) :
    NoStrayRead (serve notImplementedYet parse junk route req) ↔
      ∀ handler, postHandler route req = some handler →
        handler.Complete parse junk req.body := by
  cases hpost : postHandler route req with
  | some handler =>
    rw [serve_of_postHandler notImplementedYet parse junk hpost, handler.noStrayRead_run_iff]
    simp
  | none => exact iff_of_true (noStrayRead_of_not_post hpost) (by simp)

/-- What one request is known to render is known of it in all runs. -/
theorem Sane.noStrayRead {route : Route} {req : Request}
    (h : Sane notImplementedYet parse junk route req) :
    NoStrayRead (serve notImplementedYet parse junk route req) := by
  cases hpost : postHandler route req with
  | some handler =>
    rw [serve_of_postHandler notImplementedYet parse junk hpost, handler.noStrayRead_run_iff]
    exact h.complete handler hpost
  | none => exact noStrayRead_of_not_post hpost

end Request

/-! ## Runs -/

/-- A creation ends in an exception of its body or in a failure. -/
theorem not_isUndefined_of_posted {E : Type} {calls : List (Call × PGresult)}
    {entities : Except Error (List E)} {e : Error}
    (h : (entities = .error e ∧ ¬e.IsUndefined ∧ calls = []) ∨
      ∃ call res, calls.getLast? = some (call, res) ∧ Lost res ∧ e = .runtimeError res.message) :
    ¬e.IsUndefined := by
  rcases h with ⟨-, he, -⟩ | ⟨-, res, -, -, rfl⟩
  · exact he
  · simp [Error.IsUndefined]

/-- The only reply that is an exception is the one for a user that is not there. -/
theorem Catalogue.reply_eq_error {k : Catalogue} {route : Route} {e : Error}
    (h : k.reply route = .error e) : e = .badOptionalAccess := by
  cases route with
  | user id =>
    rw [Catalogue.reply] at h
    cases hfound : k.users.find id with
    | none =>
      rw [hfound] at h
      exact (Except.error.inj h).symm
    | some u =>
      rw [hfound] at h
      exact absurd h (by simp)
  | _ => exact absurd h (by simp [Catalogue.reply])

section Told

variable {ι : Type} {log : List (ι × Call × PGresult)} {states : ℕ → Catalogue} {i : ι}
  {route : Route} {e : Error}

theorem AnsweredAt.not_isUndefined {n : ℕ} (h : AnsweredAt log states i route (.error e) n) :
    ¬e.IsUndefined := by
  obtain ⟨q, res, -, hreply | ⟨-, hres⟩⟩ := h
  · obtain rfl := Catalogue.reply_eq_error hreply.symm
    simp [Error.IsUndefined]
  · obtain rfl := Except.error.inj hres
    simp [Error.IsUndefined]

/-- No client is told of anything undefined. -/
theorem Told.not_isUndefined [DecidableEq ι] {notImplementedYet : Error}
    {parse : String → Except Error Json} {junk : List ℕ → Int32} {now : Catalogue} {req : Request}
    (hdefined : Defined notImplementedYet parse junk route req)
    (h : Told notImplementedYet parse junk log states now i route req (.error e)) :
    ¬e.IsUndefined := by
  have hread (h : ∃ n, AnsweredAt log states i route (.error e) n) : ¬e.IsUndefined := by
    obtain ⟨n, hn⟩ := h
    exact hn.not_isUndefined
  have hresponse {r : Response} (h : (.error e : Except Error Response) = .ok r) : ¬e.IsUndefined :=
    absurd h (by simp)
  obtain ⟨method, body⟩ := req
  cases route with
  | users | courses | modules courseId =>
    cases method with
    | GET => exact hread h
    | POST => exact not_isUndefined_of_posted h
    | PUT => exact hresponse h
  | user userId =>
    cases method with
    | GET => exact hread h
    | POST => exact hresponse h
    | PUT =>
      obtain rfl := Except.error.inj h
      exact hdefined.unimplemented userId rfl rfl
  | test => cases method <;> exact hresponse h
  | _ =>
    cases method with
    | GET => exact hread h
    | _ => exact hresponse h

end Told

section Served

variable {ι : Type} [DecidableEq ι] {notImplementedYet : Error}
  {parse : String → Except Error Json} {junk : ι → List ℕ → Int32} {route : ι → Route}
  {req : ι → Request} {db : Sql.Db} {c : Pool ι Sql.Db Call PGresult Error Response}

/-- Where all requests are defined, none ends in something that is not. -/
theorem Served.not_isUndefined (hdb : Stored db)
    (hdefined : ∀ i, Defined notImplementedYet parse (junk i) (route i) (req i))
    (h : Served notImplementedYet parse junk db route req c) {i : ι} {e : Error}
    (hi : c.clients i = .throw e) : ¬e.IsUndefined := by
  obtain ⟨states, tables, hc⟩ := h.exists_chronicle hdb
  exact (h.told (x := .error e) hc (hdefined i) hi).not_isUndefined (hdefined i)

/-- **Where all requests are sane, nothing undefined happens.** In any run of them, with any calls
lost, no call renders an absent value, and no request ends in undefined behaviour. -/
theorem defined_of_served (hdb : Stored db)
    (hsane : ∀ i, Sane notImplementedYet parse (junk i) (route i) (req i))
    (h : Served notImplementedYet parse junk db route req c) (i : ι) :
    (∀ y ∈ c.history i, y.1.argsStr.isSome) ∧ ∀ e, c.clients i = .throw e → ¬e.IsUndefined :=
  ⟨(hsane i).noStrayRead.of_mem (Pool.Reachable.follows h i),
    fun _ he ↦ h.not_isUndefined hdb (fun j ↦ (hsane j).defined) he⟩

end Served

theorem sane_registerAndList (i : Bool) :
    Sane notYet parseStudents (fun _ ↦ 0) .users (registerAndList i) where
  complete handler hpost := by
    cases i with
    | true =>
      obtain rfl := Option.some.inj hpost
      intro us hus
      obtain rfl := Except.ok.inj (decode_students.symm.trans hus)
      exact List.forall_mem_cons.mpr ⟨rfl, List.forall_mem_singleton.mpr rfl⟩
    | false => exact absurd hpost (by simp [postHandler, registerAndList])
  defined := defined_registerAndList i

/-- The client that registers is told of a failure, which is an exception. -/
theorem defined_lostAnswer :
    (∀ y ∈ lostAnswer.history true, y.1.argsStr.isSome) ∧
      ∀ e, lostAnswer.clients true = .throw e → ¬e.IsUndefined :=
  defined_of_served stored_campus sane_registerAndList lostAnswer_served true

end Sphinx.Backend
