import SphinxBackend.Backend.Service
import SphinxBackend.Collections.Registry
import SphinxBackend.Interaction.Timeline

/-!
# What the service is for

The service without its database: a catalogue of users, courses and modules, each under an id of
its own. Entries are added and looked up, and that is all; none is ever changed or taken away, so
the states of a catalogue are ordered by what is in them. Who adds an entry is given its id, or an
error, and then nothing has been added.

An entry is recorded with its id and with its texts up to their first NUL. The modules of a course
are entries of their own that refer to it.

`Catalogue.serve` says what each route is meant to do, in terms of the catalogue. There are no
statements, tables or results in it. A question is one request, and what the client is told follows
from the state in which it was answered (`reply`, `asks_serve`).
-/

namespace Sphinx.Backend

open Db Nlohmann Interaction Program Collections Model

/-- The registered entities. -/
structure Catalogue where
  users : Registry User.id
  courses : Registry Course.id
  modules : Registry Module.id

/-! ## Entries -/

/-- What can be added. -/
inductive Item where
  | user (u : User)
  | course (c : Course)
  | module (m : Module)

/-- What is recorded of a user under an id. -/
def Model.User.recorded (u : User) (id : Int32) : User where
  id := id
  firstname := Text.cString u.firstname
  lastname := Text.cString u.lastname
  username := Text.cString u.username
  studentId := u.studentId.map Text.cString
  email := Text.cString u.email
  role := Text.cString u.role

def Model.Course.recorded (c : Course) (id : Int32) : Course where
  id := id
  title := Text.cString c.title
  description := c.description.map Text.cString
  ownerId := c.ownerId
  modules := none

def Model.Module.recorded (m : Module) (id : Int32) : Module where
  id := id
  courseId := m.courseId
  title := Text.cString m.title
  description := m.description.map Text.cString

def Item.recorded : Item → Int32 → Item
  | user u, id => user (u.recorded id)
  | course c, id => course (c.recorded id)
  | module m, id => module (m.recorded id)

namespace Catalogue

/-- Later states have more in them. -/
instance : Preorder Catalogue := Preorder.lift fun k ↦ (k.users, k.courses, k.modules)

variable {k k' : Catalogue} {x : Item}

/-- The item is an entry. -/
def Has (k : Catalogue) : Item → Prop
  | .user u => u ∈ k.users.entries
  | .course c => c ∈ k.courses.entries
  | .module m => m ∈ k.modules.entries

theorem Has.of_le (h : k.Has x) (hle : k ≤ k') : k'.Has x := by
  cases x with
  | user u => exact Registry.mem_of_le hle.1 h
  | course c => exact Registry.mem_of_le hle.2.1 h
  | module m => exact Registry.mem_of_le hle.2.2 h

/-- `k'` is `k` with one more entry, whose id was not in use. -/
inductive Adds : Catalogue → Item → Catalogue → Prop
  | user {k : Catalogue} {u : User} (h : k.users.Fresh u.id) :
      Adds k (.user u) { k with users := k.users.add u h }
  | course {k : Catalogue} {c : Course} (h : k.courses.Fresh c.id) :
      Adds k (.course c) { k with courses := k.courses.add c h }
  | module {k : Catalogue} {m : Module} (h : k.modules.Fresh m.id) :
      Adds k (.module m) { k with modules := k.modules.add m h }

theorem Adds.le (h : Adds k x k') : k ≤ k' := by
  cases h with
  | user h => exact ⟨Registry.le_add h, le_rfl, le_rfl⟩
  | course h => exact ⟨le_rfl, Registry.le_add h, le_rfl⟩
  | module h => exact ⟨le_rfl, le_rfl, Registry.le_add h⟩

/-! ## Questions -/

inductive Query where
  | users
  | usersNamed (name : String)
  | user (id : Int32)
  | userExists (id : Int32)
  | courses
  | modulesOf (courseId : Int32)

inductive Answer where
  | id (i : Int32)
  | users (us : List User)
  | user (found : Option User)
  | flag (b : Bool)
  | courses (cs : List Course)
  | modules (ms : List Module)

def answer (k : Catalogue) : Query → Answer
  | .users => .users k.users.entries
  | .usersNamed name => .users (k.users.entries.filter fun u ↦ u.username = Text.cString name)
  | .user id => .user (k.users.find id)
  | .userExists id => .flag (k.users.find id).isSome
  | .courses => .courses k.courses.entries
  | .modulesOf courseId => .modules (k.modules.entries.filter fun m ↦ m.courseId = courseId)

/-! ## Requests -/

inductive Op where
  | add (x : Item)
  | ask (q : Query)

/-- What the catalogue can do with a request. -/
inductive Step : Catalogue → Op → Catalogue → Except Error Answer → Prop
  | added {k k' : Catalogue} {x : Item} {i : Int32} :
      Adds k (x.recorded i) k' → Step k (.add x) k' (.ok (.id i))
  | refused {k : Catalogue} {x : Item} (message : String) :
      Step k (.add x) k (.error (.runtimeError message))
  | answered {k : Catalogue} (q : Query) : Step k (.ask q) k (.ok (k.answer q))

theorem growing_step : Growing Step := by
  intro k k' op r h
  cases h with
  | added h => exact h.le
  | refused => exact le_rfl
  | answered => exact le_rfl

/-- A program over a catalogue. -/
abbrev CatalogueProgram (α : Type) : Type := Program Op (Except Error Answer) Error α

/-- Make a request and look at the answer. -/
def request {α : Type} (op : Op) (get : Answer → α) : CatalogueProgram α :=
  .call op fun r ↦ .ofExcept (r.map get)

def add (x : Item) : CatalogueProgram Int32 :=
  request (.add x) fun | .id i => i | _ => 0

def askUsers (q : Query) : CatalogueProgram (List User) :=
  request (.ask q) fun | .users us => us | _ => []

def askUser (id : Int32) : CatalogueProgram (Option User) :=
  request (.ask (.user id)) fun | .user found => found | _ => none

def askExists (id : Int32) : CatalogueProgram Bool :=
  request (.ask (.userExists id)) fun | .flag b => b | _ => false

def askCourses : CatalogueProgram (List Course) :=
  request (.ask .courses) fun | .courses cs => cs | _ => []

def askModules (courseId : Int32) : CatalogueProgram (List Module) :=
  request (.ask (.modulesOf courseId)) fun | .modules ms => ms | _ => []

/-! ## The routes -/

/-- Add a user and tell its id. -/
def addUser (u : User) : CatalogueProgram User :=
  add (.user u) >>= fun i ↦ .pure { u with id := i }

def addModule (m : Module) : CatalogueProgram Module :=
  add (.module m) >>= fun i ↦ .pure { m with id := i }

/-- Add a course, then its modules with a reference to it. -/
def addCourse (c : Course) : CatalogueProgram Course :=
  add (.course c) >>= fun i ↦
    match c.modules with
    | none => .pure { c with id := i }
    | some ms => (ms.mapM fun m ↦ addModule { m with courseId := i }) >>= fun ms ↦
        .pure { c with id := i, modules := some ms }

/-- A list as the body of a response. The empty list is null. -/
def page {E : Type} [Entity E] (es : List E) : Json :=
  if es = [] then .null else .array (es.map Json.document)

/-- Add what a body holds, and respond. -/
def addAll {E : Type} (entities : Except Error (List E)) (one : E → CatalogueProgram E)
    (respond : List E → Response) : CatalogueProgram Response :=
  .ofExcept entities >>= fun es ↦ es.mapM one >>= fun es ↦ .pure (respond es)

section Serve

variable (notImplementedYet : Error) (parse : String → Except Error Json) (junk : List ℕ → Int32)

/-- What each route does. -/
def serve (route : Route) (req : Request) : CatalogueProgram Response :=
  match route, req.method with
  | .usersSearch name, .GET => askUsers (.usersNamed name) >>= fun us ↦
      .pure (if us = [] then response 204 else ⟨201, some (page us)⟩)
  | .users, .GET => askUsers .users >>= fun us ↦ .pure ⟨200, some (page us)⟩
  | .users, .POST => addAll (deserializeEntitiesFromText User parse junk req.body true) addUser
      fun _ ↦ response 201
  | .userExists id, .GET => askExists id >>= fun b ↦
      .pure ⟨200, some (.object [("value", .boolean b)])⟩
  | .user id, .GET => askUser id >>= fun found ↦
      .ofExcept (found.elim (.error .badOptionalAccess) fun u ↦ .ok ⟨200, some (Json.document u)⟩)
  | .user _, .PUT => .throw notImplementedYet
  | .courses, .GET => askCourses >>= fun cs ↦ .pure ⟨200, some (page cs)⟩
  | .courses, .POST =>
    addAll (deserializeEntitiesFromText Course parse junk req.body true) addCourse
      fun cs ↦ ⟨201, some (page cs)⟩
  | .modules courseId, .GET => askModules courseId >>= fun ms ↦ .pure ⟨200, some (page ms)⟩
  | .modules _, .POST =>
    addAll (deserializeEntitiesFromText Module parse junk req.body true) addModule
      fun _ ↦ response 201
  | .test, .GET | .test, .POST => .pure (response 501)
  | _, _ => .pure (response 404)

end Serve

/-! ## Replies -/

/-- The reply to a question, in one state. -/
def reply (k : Catalogue) : Route → Except Error Response
  | .usersSearch name =>
    let us := k.users.entries.filter fun u ↦ u.username = Text.cString name
    .ok (if us = [] then response 204 else ⟨201, some (page us)⟩)
  | .users => .ok ⟨200, some (page k.users.entries)⟩
  | .userExists id => .ok ⟨200, some (.object [("value", .boolean (k.users.find id).isSome)])⟩
  | .user id => (k.users.find id).elim (.error .badOptionalAccess) fun u ↦
      .ok ⟨200, some (Json.document u)⟩
  | .courses => .ok ⟨200, some (page k.courses.entries)⟩
  | .modules courseId =>
    .ok ⟨200, some (page (k.modules.entries.filter fun m ↦ m.courseId = courseId))⟩
  | .test => .ok (response 501)

/-- The program asks one thing, and what it ends with follows from the answer. -/
def Asks (p : CatalogueProgram Response) (reply : Catalogue → Except Error Response) : Prop :=
  ∃ (q : Query) (f : Except Error Answer → Except Error Response),
    p = .call (.ask q) (fun r ↦ ofExcept (f r)) ∧
    (∀ k : Catalogue, f (.ok (k.answer q)) = reply k) ∧ ∀ e, f (.error e) = .error e

theorem asks_request {α : Type} (q : Query) (get : Answer → α) (g : α → Except Error Response) :
    Asks (request (.ask q) get >>= fun a ↦ ofExcept (g a)) fun k ↦ g (get (k.answer q)) := by
  refine ⟨q, fun r ↦ (r.map get).bind g, ?_, fun _ ↦ rfl, fun _ ↦ rfl⟩
  refine congrArg (Program.call (Op.ask q)) (funext fun r ↦ ?_)
  cases r <;> rfl

/-- Every question is one request. -/
theorem asks_serve (notImplementedYet : Error) (parse : String → Except Error Json)
    (junk : List ℕ → Int32) {route : Route} (hroute : route ≠ .test) (body : String) :
    Asks (serve notImplementedYet parse junk route ⟨.GET, body⟩) fun k ↦ k.reply route := by
  cases route with
  | usersSearch name =>
    exact asks_request (.usersNamed name) _ fun us : List User ↦
      .ok (if us = [] then response 204 else ⟨201, some (page us)⟩)
  | users => exact asks_request .users _ fun us : List User ↦ .ok ⟨200, some (page us)⟩
  | userExists id =>
    exact asks_request (.userExists id) _ fun b : Bool ↦
      .ok ⟨200, some (.object [("value", .boolean b)])⟩
  | user id =>
    exact asks_request (.user id) _ fun found : Option User ↦
      found.elim (.error .badOptionalAccess) fun u ↦ .ok ⟨200, some (Json.document u)⟩
  | courses => exact asks_request .courses _ fun cs : List Course ↦ .ok ⟨200, some (page cs)⟩
  | modules courseId =>
    exact asks_request (.modulesOf courseId) _ fun ms : List Module ↦ .ok ⟨200, some (page ms)⟩
  | test => exact absurd rfl hroute

/-! ## Lost answers -/

/-- The answer is that of a failure at the server, or on the way there. -/
def Lost (r : Except Error Answer) : Prop := ∃ message, r = .error (.runtimeError message)

/-- The catalogue behind a connection that can break. -/
abbrev Remote : Catalogue → Op → Catalogue → Except Error Answer → Prop := Unreliable Step Lost

theorem growing_remote : Growing Remote := growing_step.unreliable

end Catalogue

end Sphinx.Backend
