import SphinxBackend.Backend.App

/-!
# The handlers

The routes of `backend_app.cpp`. A handler is a program over the database, from a request to a
response; an exception in it ends the request without one. The parser of request bodies belongs to
the JSON library and is a parameter, as is what the macro `NOT_IMPLEMENTED_YET` of the shared
library ends in. A response carries its JSON value undumped.
-/

namespace Sphinx.Backend

open Db Nlohmann Interaction Program

inductive Method where
  | GET | POST | PUT
  deriving DecidableEq, Repr

structure Request where
  method : Method
  body : String

structure Response where
  code : ℕ
  body : Option Json

/-- `response(int)`. -/
def response (code : ℕ) : Response := ⟨code, none⟩

/-- `response(int, const T &)`. -/
def jsonResponse (code : ℕ) (data : Except Error Json) : DbProgram Response := do
  let body ← .ofExcept data
  return ⟨code, some body⟩

theorem jsonResponse_eq (code : ℕ) (data : Except Error Json) :
    jsonResponse code data = .ofExcept (data.map fun json ↦ ⟨code, some json⟩) := by
  cases data <;> rfl

section Routes

variable (parse : String → Except Error Json) (junk : List ℕ → Int32)

/-- `/users_search/<string>`. -/
def usersSearchRoute (req : Request) (name : String) : DbProgram Response :=
  match req.method with
  | .GET => do
    let users ← findUsers name
    if users ≠ [] then jsonResponse 201 (Json.toJsonVector users) else return response 204
  | _ => return response 404

/-- `/users`. -/
def usersRoute (req : Request) : DbProgram Response :=
  match req.method with
  | .GET => do
    let users ← DAO.getUsers
    jsonResponse 200 (Json.toJsonVector users)
  | .POST => do
    createEntitiesFromText Model.User parse junk req.body
    return response 201
  | _ => return response 404

/-- `/users/<int>/exists`. -/
def userExistsRoute (req : Request) (userId : Int32) : DbProgram Response :=
  match req.method with
  | .GET => do
    let found ← exists_ Model.User userId
    return ⟨200, some (.object [("value", .boolean found)])⟩
  | _ => return response 404

/-- `update_entity`, which is `NOT_IMPLEMENTED_YET()` and nothing else. The function has no value to
return, so it ends in an exception or in something undefined, whatever the macro does. -/
def updateEntity (E : Type) (notImplementedYet : Error) (_entityId : Int32) (_entityJson : Json) :
    DbProgram E :=
  .throw notImplementedYet

/-- `/users/<int>`. The body of a `PUT` becomes a JSON value without being parsed, a text. -/
def userRoute (notImplementedYet : Error) (req : Request) (userId : Int32) : DbProgram Response :=
  match req.method with
  | .GET => do
    let entity ← getById Model.User userId
    jsonResponse 200 (Json.toJson entity)
  | .PUT => do
    let entity ← updateEntity Model.User notImplementedYet userId (.string req.body)
    jsonResponse 200 (Json.toJson entity)
  | _ => return response 404

/-- `/courses`. -/
def coursesRoute (req : Request) : DbProgram Response :=
  match req.method with
  | .GET => do
    let courses ← DAO.getCourses
    jsonResponse 200 (Json.toJsonVector courses)
  | .POST => do
    let entities ← .ofExcept (deserializeEntitiesFromText Model.Course parse junk req.body true)
    let entities ← createEntities entities
    jsonResponse 201 (Json.toJsonVector entities)
  | _ => return response 404

/-- `/courses/<int>`. -/
def modulesRoute (req : Request) (courseId : Int32) : DbProgram Response :=
  match req.method with
  | .GET => do
    let modules ← DAO.getModules courseId
    jsonResponse 200 (Json.toJsonVector modules)
  | .POST => do
    createEntitiesFromText Model.Module parse junk req.body
    return response 201
  | _ => return response 404

end Routes

/-! ## The handlers that create

The three of them decode a list of entities, create it, and respond. They differ in what they
respond. -/

/-- Create decoded entities and respond with what has become of them. -/
def createAndRespond {E : Type} [Creatable E] (entities : Except Error (List E))
    (respond : List E → Except Error Response) : DbProgram Response :=
  .ofExcept entities >>= fun entities ↦
    createEntities entities >>= fun entities ↦ .ofExcept (respond entities)

section Post

variable (parse : String → Except Error Json) (junk : List ℕ → Int32) (body : String)

private theorem createEntitiesFromText_bind (E : Type) [Creatable E] (r : Response) :
    (createEntitiesFromText E parse junk body >>= fun _ ↦ .pure r)
      = createAndRespond (deserializeEntitiesFromText E parse junk body true)
          fun _ ↦ .ok r := by
  rw [createEntitiesFromText, deserializeEntitiesFromText]
  cases parse body with
  | error e => rfl
  | ok data =>
    change (createEntitiesFromJson E junk data >>= fun _ ↦ .pure r)
      = createAndRespond (deserializeEntities E junk data true) _
    rw [createEntitiesFromJson]
    cases deserializeEntities E junk data true with
    | error e => rfl
    | ok entities =>
      change ((createEntities entities >>= fun _ ↦ .pure PUnit.unit) >>= fun _ ↦ .pure r)
        = createEntities entities >>= fun _ ↦ .pure r
      rw [bind_assoc]
      rfl

theorem usersRoute_post : usersRoute parse junk ⟨.POST, body⟩
    = createAndRespond (deserializeEntitiesFromText Model.User parse junk body true)
        fun _ ↦ .ok (response 201) :=
  createEntitiesFromText_bind parse junk body _ _

theorem modulesRoute_post (courseId : Int32) : modulesRoute parse junk ⟨.POST, body⟩ courseId
    = createAndRespond (deserializeEntitiesFromText Model.Module parse junk body true)
        fun _ ↦ .ok (response 201) :=
  createEntitiesFromText_bind parse junk body _ _

theorem coursesRoute_post : coursesRoute parse junk ⟨.POST, body⟩
    = createAndRespond (deserializeEntitiesFromText Model.Course parse junk body true)
        fun entities ↦ (Json.toJsonVector entities).map fun json ↦ ⟨201, some json⟩ := by
  simp only [coursesRoute, jsonResponse_eq]
  rfl

end Post

theorem runs_createAndRespond_iff {E : Type} [Creatable E] {entities : Except Error (List E)}
    {respond : List E → Except Error Response} {db db' : Sql.Db} {t : List (Call × PGresult)}
    {x : Except Error Response} :
    Runs postgres db (createAndRespond entities respond) t db' x ↔
      (∃ e, entities = .error e ∧ t = [] ∧ db' = db ∧ x = .error e) ∨
        ∃ es y, entities = .ok es ∧ Runs postgres db (createEntities es) t db' y ∧
          x = y.bind respond := by
  rw [createAndRespond, runs_ofExcept_bind_iff]
  simp only [runs_bind_ofExcept_iff]
  constructor
  · rintro (h | ⟨es, h, y, hrun, hx⟩)
    · exact .inl h
    · exact .inr ⟨es, y, h, hrun, hx⟩
  · rintro (h | ⟨es, y, h, hrun, hx⟩)
    · exact .inl h
    · exact .inr ⟨es, h, y, hrun, hx⟩

theorem runs_createAndRespond_of_error {E : Type} [Creatable E] {es : List E} {db db' : Sql.Db}
    {t : List (Call × PGresult)} {e : Error}
    (h : Runs postgres db (createEntities es) t db' (.error e))
    (respond : List E → Except Error Response) :
    Runs postgres db (createAndRespond (.ok es) respond) t db' (.error e) :=
  runs_createAndRespond_iff.mpr (.inr ⟨es, .error e, rfl, h, rfl⟩)

theorem runs_createAndRespond_of_ok {E : Type} [Creatable E] {es es' : List E} {db db' : Sql.Db}
    {t : List (Call × PGresult)} (h : Runs postgres db (createEntities es) t db' (.ok es'))
    (respond : List E → Except Error Response) :
    Runs postgres db (createAndRespond (.ok es) respond) t db' (respond es') :=
  runs_createAndRespond_iff.mpr (.inr ⟨es, .ok es', rfl, h, rfl⟩)

end Sphinx.Backend
