import SphinxBackend.Backend.Persistence
import SphinxBackend.Db.Selection
import SphinxBackend.Interaction.Faults

/-!
# The service

All routes of the application together. A process serves one request after the other, and any
number of processes may use the same database; so what the database sees is some interleaving of
programs `serve route req`, one for each request. An exception ends its request and nothing else.
Where it is not known what happens, that can be anything, also to the other requests of the process;
the requests that do not come to such a point while they are decoded are `Defined`.

The connection to the database can break at any call. The result of a call is then a null pointer,
which counts as a failed one, and every operation throws when it gets such a result
(`failFast_serve`).
-/

namespace Sphinx.Backend

open Db Nlohmann Interaction Program

/-- The routes with what their paths carry. -/
inductive Route where
  | usersSearch (name : String)
  | users
  | userExists (userId : Int32)
  | user (userId : Int32)
  | courses
  | modules (courseId : Int32)
  | test
  deriving DecidableEq, Repr

/-- `/test`, which only writes to the log. -/
def testRoute (req : Request) : DbProgram Response :=
  match req.method with
  | .GET | .POST => return response 501
  | _ => return response 404

section Serve

variable (notImplementedYet : Error) (parse : String → Except Error Json) (junk : List ℕ → Int32)

/-- The handler of a route. -/
def serve (route : Route) (req : Request) : DbProgram Response :=
  match route with
  | .usersSearch name => usersSearchRoute req name
  | .users => usersRoute parse junk req
  | .userExists userId => userExistsRoute req userId
  | .user userId => userRoute notImplementedYet req userId
  | .courses => coursesRoute parse junk req
  | .modules courseId => modulesRoute parse junk req courseId
  | .test => testRoute req

end Serve

/-! ## Requests that create -/

/-- The handler that creates, if the request is one for it. -/
def postHandler (route : Route) (req : Request) : Option PostHandler :=
  match route, req.method with
  | .users, .POST => some .users
  | .courses, .POST => some .courses
  | .modules courseId, .POST => some (.modules courseId)
  | _, _ => none

section Post

variable (notImplementedYet : Error) (parse : String → Except Error Json) (junk : List ℕ → Int32)

theorem serve_of_postHandler {route : Route} {req : Request} {h : PostHandler}
    (hpost : postHandler route req = some h) :
    serve notImplementedYet parse junk route req = h.run parse junk req.body := by
  obtain ⟨method, body⟩ := req
  cases route with
  | users | courses | modules courseId =>
    cases method with
    | POST =>
      obtain rfl := Option.some.inj hpost
      rfl
    | _ => exact absurd hpost (by simp [postHandler])
  | _ => exact absurd hpost (by cases method <;> simp [postHandler])

/-- Decoding the body throws an exception, if anything. -/
def PostHandler.DecodesDefined (body : String) : PostHandler → Prop
  | users => ∀ e, deserializeEntitiesFromText Model.User parse junk body true = .error e →
      ¬e.IsUndefined
  | courses => ∀ e, deserializeEntitiesFromText Model.Course parse junk body true = .error e →
      ¬e.IsUndefined
  | modules _ => ∀ e, deserializeEntitiesFromText Model.Module parse junk body true = .error e →
      ¬e.IsUndefined

/-- Nothing undefined happens when the body is decoded, and nothing in the macro where it is
reached. -/
structure Defined (route : Route) (req : Request) : Prop where
  decodes : ∀ handler, postHandler route req = some handler →
    handler.DecodesDefined parse junk req.body
  unimplemented : ∀ userId, route = .user userId → req.method = .PUT →
    ¬notImplementedYet.IsUndefined

end Post

/-! ## Failed calls -/

/-- What a call gives when the connection is broken. -/
def Lost (res : PGresult) : Prop := res.status = .fatalError

theorem exists_refusal {res : PGresult} (h : Lost res) : ∃ e, refusal res = some e :=
  ⟨_, if_pos h⟩

theorem lost_of_refusal {res : PGresult} {e : Error} (h : refusal res = some e) : Lost res := by
  rw [refusal] at h
  split at h
  · assumption
  · exact absurd h (by simp)

/-- A failure that the program is told of is an exception with the server's message. -/
theorem eq_runtimeError_of_refusal {res : PGresult} {e : Error} (h : refusal res = some e) :
    e = .runtimeError res.message := by
  rw [refusal] at h
  split at h
  · exact (Option.some.inj h).symm
  · exact absurd h (by simp)

/-- Some order of the calls of the requests, any of which may be lost, leads from `db` to `c`. -/
def Served {ι : Type} [DecidableEq ι] (notImplementedYet : Error)
    (parse : String → Except Error Json) (junk : ι → List ℕ → Int32) (db : Sql.Db)
    (route : ι → Route) (req : ι → Request)
    (c : Pool ι Sql.Db Call PGresult Error Response) : Prop :=
  Pool.Reachable (Unreliable postgres Lost) db
    (fun i ↦ serve notImplementedYet parse (junk i) (route i) (req i)) c

theorem failFast_query {α : Type} {text : String} {args : ValueList}
    {read : PGresult → Except Error α}
    (h : ∀ res e, refusal res = some e → read res = .error e) :
    FailFast refusal (query text args read) := by
  rw [query_eq]
  refine .call (fun res e he ↦ ?_) fun res _ ↦ .ofExcept _
  rw [h res e he, ofExcept_error]

/-- Every way of reading a result throws if the result is a failed one. -/
theorem reads_refusal {α : Type} {read : PGresult → Except Error α}
    (h : ∀ res, res.status = .fatalError → read res = .error (.runtimeError res.message))
    {res : PGresult} {e : Error} (he : refusal res = some e) : read res = .error e := by
  rw [refusal] at he
  split at he
  · rename_i hstatus
    rw [h res hstatus, Option.some.inj he]
  · exact absurd he (by simp)

section Reads

variable (E : Type) [Entity E]

theorem getRows_refusal (res : PGresult) (e : Error) (he : refusal res = some e) :
    getRows E res = .error e := by
  refine reads_refusal (fun res hstatus ↦ ?_) he
  unfold getRows
  rw [hstatus]

theorem getRowResult_refusal (res : PGresult) (e : Error) (he : refusal res = some e) :
    getRowResult E res = .error e := by
  refine reads_refusal (fun res hstatus ↦ ?_) he
  unfold getRowResult
  rw [hstatus]

theorem getScalar_refusal (res : PGresult) (e : Error) (he : refusal res = some e) :
    getScalar res = .error e := by
  refine reads_refusal (fun res hstatus ↦ ?_) he
  unfold getScalar
  rw [hstatus]

theorem insertResult_refusal (res : PGresult) (e : Error) (he : refusal res = some e) :
    insertResult E res = .error e := by
  refine reads_refusal (fun res hstatus ↦ ?_) he
  unfold insertResult
  rw [hstatus]

end Reads

theorem failFast_jsonResponse (code : ℕ) (data : Except Error Json) :
    FailFast refusal (jsonResponse code data) := by
  rw [jsonResponse_eq]
  exact .ofExcept _

/-- Decode, create, respond. -/
theorem failFast_createAndRespond {E : Type} [Creatable E] {walk : List E → List Insertion}
    {R : List E → List E → Prop} (hcreates : Creates createEntities walk R)
    (entities : Except Error (List E)) (respond : List E → Except Error Response) :
    FailFast refusal (createAndRespond entities respond) :=
  (FailFast.ofExcept entities).bind fun es ↦ (hcreates.failFast es).bind fun _ ↦ .ofExcept _

/-- **A request ends at the first failed call.** -/
theorem failFast_serve (notImplementedYet : Error) (parse : String → Except Error Json)
    (junk : List ℕ → Int32) (route : Route) (req : Request) :
    FailFast refusal (serve notImplementedYet parse junk route req) := by
  obtain ⟨method, body⟩ := req
  cases route with
  | usersSearch name =>
    cases method with
    | GET =>
      refine (failFast_query (getRows_refusal Model.User)).bind fun us ↦ ?_
      split
      · exact failFast_jsonResponse _ _
      · exact .pure _
    | _ => exact .pure _
  | users =>
    cases method with
    | GET => exact (failFast_query (getRows_refusal _)).bind fun _ ↦ failFast_jsonResponse _ _
    | POST =>
      rw [serve, usersRoute_post]
      exact failFast_createAndRespond Model.creates_users _ _
    | PUT => exact .pure _
  | userExists userId =>
    cases method with
    | GET => exact (failFast_query getScalar_refusal).bind fun _ ↦ .pure _
    | _ => exact .pure _
  | user userId =>
    cases method with
    | GET =>
      rw [serve, userRoute, getById_eq]
      exact ((failFast_query (getRowResult_refusal _)).bind fun _ ↦ .ofExcept _).bind
        fun _ ↦ failFast_jsonResponse _ _
    | POST => exact .pure _
    | PUT => exact .throw _
  | courses =>
    cases method with
    | GET => exact (failFast_query (getRows_refusal _)).bind fun _ ↦ failFast_jsonResponse _ _
    | POST =>
      rw [serve, coursesRoute_post]
      exact failFast_createAndRespond Model.creates_courses _ _
    | PUT => exact .pure _
  | modules courseId =>
    cases method with
    | GET => exact (failFast_query (getRows_refusal _)).bind fun _ ↦ failFast_jsonResponse _ _
    | POST =>
      rw [serve, modulesRoute_post]
      exact failFast_createAndRespond Model.creates_modules _ _
    | PUT => exact .pure _
  | test => cases method <;> exact .pure _

end Sphinx.Backend
