import SphinxBackend.Backend.Catalogue
import SphinxBackend.Backend.Conditions
import SphinxBackend.Interaction.Interface

/-!
# The handlers, put to the catalogue

The handlers as they are, with their statements and results, against what the routes are for.
Every request to the catalogue is one call of the database, whose result is read in one way
(`driver`), and every handler is the catalogue's, put through that interface (`serve_eq_via`).
Nothing is said here about what the server answers.
-/

namespace Sphinx.Backend

open Db Nlohmann Interaction Program Collections Model

/-! ## The interface -/

namespace Catalogue

/-- The condition of `find_users`. -/
def named (name : String) : Db.Condition User :=
  ⟨User.usernameColumn.n, .eq, User.usernameColumn.type, name⟩

/-- The call that a request becomes. -/
def send : Op → Call
  | .add (.user u) => (inserted u).call
  | .add (.course c) => (inserted c).call
  | .add (.module m) => (inserted m).call
  | .ask .users => callOf ("SELECT * FROM " ++ Entity.entityName User) []
  | .ask (.usersNamed name) => boundCall (named name)
  | .ask (.user id) => callOf (findByIdQuery User id) []
  | .ask (.userExists id) => callOf (existsQuery User id) []
  | .ask .courses => callOf ("SELECT * FROM " ++ Entity.entityName Course) []
  | .ask (.modulesOf courseId) => boundCall (DAO.inCourse courseId)

/-- What the result of that call means. -/
def read : Op → PGresult → Except Error Answer
  | .add (.user _), res => (insertResult User res).map .id
  | .add (.course _), res => (insertResult Course res).map .id
  | .add (.module _), res => (insertResult Module res).map .id
  | .ask .users, res => (getRows User res).map .users
  | .ask (.usersNamed _), res => (getRows User res).map .users
  | .ask (.user _), res => (getRowResult User res).map .user
  | .ask (.userExists _), res => (getScalar res).map .flag
  | .ask .courses, res => (getRows Course res).map .courses
  | .ask (.modulesOf _), res => (getRows Module res).map .modules

def driver : Interface Op (Except Error Answer) Call PGresult := ⟨send, read⟩

/-! ## The handlers -/

/-- A request through the interface is the query that it becomes. -/
theorem via_request {α : Type} {op : Op} {get : Answer → α} {tag : α → Answer} {c : Call}
    {reads : PGresult → Except Error α} (hsend : send op = c)
    (hread : ∀ res, read op res = (reads res).map tag) (hget : ∀ a, get (tag a) = a) :
    (request op get).via driver = .call c fun res ↦ .ofExcept (reads res) := by
  have hcontinue (res : PGresult) : (ofExcept ((driver.read op res).map get) :
      CatalogueProgram α).via driver = ofExcept (reads res) := by
    rw [via_ofExcept, show driver.read op res = (reads res).map tag from hread res]
    cases reads res with
    | error e => rfl
    | ok a => exact congrArg Program.pure (hget a)
  rw [request, via_call]
  exact congrArg₂ Program.call hsend (funext hcontinue)

theorem via_add_user (u : User) : (add (.user u)).via driver = insert u :=
  via_request (call_inserted u) (fun _ ↦ rfl) fun _ ↦ rfl

theorem via_add_course (c : Course) : (add (.course c)).via driver = insert c :=
  via_request (call_inserted c) (fun _ ↦ rfl) fun _ ↦ rfl

theorem via_add_module (m : Module) : (add (.module m)).via driver = insert m :=
  via_request (call_inserted m) (fun _ ↦ rfl) fun _ ↦ rfl

/-- Creation, entity by entity. -/
theorem via_mapM {E : Type} [Creatable E] {one : E → CatalogueProgram E}
    (h : ∀ e, (one e).via driver = createOne e) (es : List E) :
    (es.mapM one).via driver = createEntities es := by
  induction es with
  | nil => rfl
  | cons e es ih =>
    rw [List.mapM_cons, createEntities_cons, via_bind, h]
    simp only [via_bind, ih]
    rfl

theorem via_addUser (u : User) : (addUser u).via driver = createOne u := by
  rw [addUser, via_bind, via_add_user]
  rfl

theorem via_addModule (m : Module) : (addModule m).via driver = createOne m := by
  rw [addModule, via_bind, via_add_module]
  rfl

theorem via_addCourse (c : Course) : (addCourse c).via driver = createOne c := by
  rw [addCourse, createOne_course, via_bind, via_add_course]
  refine congrArg (insert c >>= ·) (funext fun i ↦ ?_)
  cases c.modules with
  | none => rfl
  | some ms =>
    have hmodules : (ms.mapM fun m ↦ addModule { m with courseId := i })
        = (ms.map fun m ↦ { m with courseId := i }).mapM addModule := by
      rw [List.mapM_map]
      rfl
    dsimp only
    rw [hmodules, via_bind, via_mapM via_addModule]
    rfl

theorem via_addAll {E : Type} [Creatable E] {one : E → CatalogueProgram E}
    (h : ∀ e, (one e).via driver = createOne e) (entities : Except Error (List E))
    (respond : List E → Response) :
    (addAll entities one respond).via driver
      = createAndRespond entities fun es ↦ .ok (respond es) := by
  rw [addAll, via_bind, via_ofExcept, createAndRespond]
  refine congrArg (ofExcept entities >>= ·) (funext fun es ↦ ?_)
  rw [via_bind, via_mapM h]
  rfl

/-- The body of a list is the page of it. -/
theorem jsonResponse_toJsonVector {E : Type} [Entity E] (code : ℕ) (es : List E) :
    jsonResponse code (Json.toJsonVector es) = .pure ⟨code, some (page es)⟩ := by
  rw [jsonResponse_eq, Json.toJsonVector_eq]
  rfl

/-- A question, and a response that follows from the answer. -/
theorem via_ask_bind {α : Type} {p : CatalogueProgram α} {q : DbProgram α}
    (h : p.via driver = q) {f : α → CatalogueProgram Response} {g : α → DbProgram Response}
    (hf : ∀ a, (f a).via driver = g a) : (p >>= f).via driver = q >>= g := by
  rw [via_bind, h]
  exact congrArg (q >>= ·) (funext hf)

section Serve

variable (notImplementedYet : Error) (parse : String → Except Error Json) (junk : List ℕ → Int32)

/-- **Every handler is what the route is for, put to the database.** -/
theorem serve_eq_via (route : Route) (req : Request) :
    Backend.serve notImplementedYet parse junk route req
      = (serve notImplementedYet parse junk route req).via driver := by
  obtain ⟨method, body⟩ := req
  cases route with
  | usersSearch name =>
    cases method with
    | GET =>
      refine (via_ask_bind (q := findUsers name) ?_ fun us ↦ ?_).symm
      · exact (via_request rfl (fun _ ↦ rfl) fun _ ↦ rfl).trans (getAllWhere_eq _).symm
      · rw [jsonResponse_toJsonVector]
        by_cases hus : us = []
        · rw [if_pos hus, if_neg (not_not.mpr hus)]
          rfl
        · rw [if_neg hus, if_pos hus]
          rfl
    | _ => rfl
  | users =>
    cases method with
    | GET =>
      refine (via_ask_bind (q := DAO.getUsers) ?_ fun us ↦ ?_).symm
      · exact via_request rfl (fun _ ↦ rfl) fun _ ↦ rfl
      · rw [jsonResponse_toJsonVector]
        rfl
    | POST => exact (usersRoute_post parse junk body).trans (via_addAll via_addUser _ _).symm
    | PUT => rfl
  | userExists userId =>
    cases method with
    | GET =>
      have hexists : (askExists userId).via driver = exists_ User userId :=
        via_request rfl (fun _ ↦ rfl) fun _ ↦ rfl
      let respond (b : Bool) : DbProgram Response :=
        .pure ⟨200, some (.object [("value", .boolean b)])⟩
      exact (via_ask_bind (g := respond) hexists fun b ↦ rfl).symm
    | _ => rfl
  | user userId =>
    cases method with
    | GET =>
      have hfind : (askUser userId).via driver = findById User userId :=
        via_request rfl (fun _ ↦ rfl) fun _ ↦ rfl
      change getById User userId >>= (fun u ↦ jsonResponse 200 (Json.toJson u)) = _
      rw [getById_eq, bind_assoc]
      refine (via_ask_bind hfind fun found ↦ ?_).symm
      rw [via_ofExcept]
      cases found with
      | none => rfl
      | some u =>
        change _ = jsonResponse 200 (Json.toJson u)
        rw [jsonResponse_eq, Json.toJson_eq]
        rfl
    | _ => rfl
  | courses =>
    cases method with
    | GET =>
      refine (via_ask_bind (q := DAO.getCourses) ?_ fun cs ↦ ?_).symm
      · exact via_request rfl (fun _ ↦ rfl) fun _ ↦ rfl
      · rw [jsonResponse_toJsonVector]
        rfl
    | POST =>
      refine (coursesRoute_post parse junk body).trans ?_
      refine Eq.trans ?_ (via_addAll via_addCourse _ _).symm
      refine congrArg (createAndRespond _) (funext fun cs ↦ ?_)
      rw [Json.toJsonVector_eq]
      rfl
    | PUT => rfl
  | modules courseId =>
    cases method with
    | GET =>
      refine (via_ask_bind (q := DAO.getModules courseId) ?_ fun ms ↦ ?_).symm
      · exact (via_request rfl (fun _ ↦ rfl) fun _ ↦ rfl).trans (getAllWhere_eq _).symm
      · rw [jsonResponse_toJsonVector]
        rfl
    | POST =>
      exact (modulesRoute_post parse junk body courseId).trans (via_addAll via_addModule _ _).symm
    | PUT => rfl
  | test => cases method <;> rfl

end Serve

end Catalogue

end Sphinx.Backend
