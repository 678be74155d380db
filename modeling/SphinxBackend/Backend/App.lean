import SphinxBackend.Backend.Model
import SphinxBackend.Db.Connection
import SphinxBackend.Json.Serializer

/-!
# Creating and decoding entities with their subentities

The data access object and the templates of `backend_app.h`. An entity may own lists of other
entities through links. A link is not a column: it is reached through `get_many_links`, and both
creation and decoding visit the links after the columns.

What a template does for a type is a class here, with one instance for each entity type. The
entities without links do nothing where a course goes through its modules.

Decoding constructs an entity before it reads it, and the integers of a new entity are not set.
`junk` is what the memory held: the entity at position `i` of a list gets `junk [i]`, and the
subentity at position `j` of that one `junk [i, j]`.
-/

namespace Sphinx.Backend

open Db Nlohmann Interaction Program

/-! ## The data access object -/

namespace DAO

/-- `find_by_column`, for a column of `E`. -/
def findByColumn (E : Type) [Entity E] (column : Column) (value : column.type.Denote) :
    DbProgram (List E) :=
  getAllWhere ⟨column.n, .eq, column.type, value⟩

def getUsers : DbProgram (List Model.User) := getAll Model.User

def getCourses : DbProgram (List Model.Course) := getAll Model.Course

/-- The modules that refer to a course. -/
def inCourse (courseId : Int32) : Condition Model.Module :=
  ⟨Model.Module.courseIdColumn.n, .eq, .int32, courseId⟩

def getModules (courseId : Int32) : DbProgram (List Model.Module) := getAllWhere (inCourse courseId)

def createUser (user : Model.User) : DbProgram Int32 := insert user

def createCourse (course : Model.Course) : DbProgram Int32 := insert course

def createModule (module : Model.Module) : DbProgram Int32 := insert module

end DAO

def findUsers (name : String) : DbProgram (List Model.User) :=
  DAO.findByColumn Model.User Model.User.usernameColumn name

/-! ## Links -/

/-- A link of `E` to many `R`, with `LinkManyInfo`. -/
structure LinkMany (E R : Type) where
  name : String
  /-- The number of the column of `R` that refers to `E`. -/
  remoteKey : ℕ
  get : E → Option (List R)
  set : E → Option (List R) → E

/-- The templates of the application that depend on the entity type. -/
class Creatable (E : Type) extends Entity E where
  createEntity : E → DbProgram Int32
  updateSubentities : E → Int32 → E
  createSubentities : E → DbProgram E
  deserializeSubentities : (List ℕ → Int32) → Json → E → Except Error E

/-! ## Lists of entities -/

section Lists

variable {E : Type} [Creatable E]

/-- `create_entities`: each entity in turn, with what it owns. The result is the vector as it is
afterwards. -/
def createEntities : List E → DbProgram (List E)
  | [] => .pure []
  | entity :: entities => do
    let entityId ← Creatable.createEntity entity
    let entity := Entity.setId entity entityId
    let entity := Creatable.updateSubentities entity entityId
    let entity ← Creatable.createSubentities entity
    let entities ← createEntities entities
    return entity :: entities

variable (E) in
/-- One document of `deserialize_entities`, at position `i`. -/
def deserializeEntity (junk : List ℕ → Int32) (includeSubentities : Bool) (i : ℕ)
    (entityData : Json) : Except Error E :=
  if includeSubentities then
    Json.fromJson (junk [i]) entityData >>= fun entity ↦
      Creatable.deserializeSubentities (fun path ↦ junk (i :: path)) entityData entity
  else Json.fromJson (junk [i]) entityData

variable (E) in
/-- An array is a list of entities, and anything else is one. -/
def deserializeEntities (junk : List ℕ → Int32) (data : Json) (includeSubentities : Bool := false) :
    Except Error (List E) :=
  match data with
  | .array elements =>
    elements.zipIdx.mapM fun d ↦ deserializeEntity E junk includeSubentities d.2 d.1
  | data => (deserializeEntity E junk includeSubentities 0 data).map fun entity ↦ [entity]

end Lists

/-! ## Through a link -/

namespace LinkMany

variable {E R : Type}

/-- `get_remote_key_member_ptr`. -/
def getRemoteKeyMember [Struct R] (link : LinkMany E R) : Option (Accessor R) :=
  getNthColumnHanaPair R link.remoteKey

/-- The subentities of an engaged link refer to `id`. -/
def updateSubentities [Struct R] (link : LinkMany E R) (entity : E) (id : Int32) : E :=
  match link.get entity, link.getRemoteKeyMember with
  | some subentities, some member => link.set entity (some (subentities.map (member.assign id)))
  | _, _ => entity

variable [Creatable R]

def createSubentities (link : LinkMany E R) (entity : E) : DbProgram E :=
  match link.get entity with
  | some subentities => do
    let subentities ← createEntities subentities
    return link.set entity (some subentities)
  | none => .pure entity

/-- The subentities are decoded without looking for subentities of their own. -/
def deserializeSubentities (link : LinkMany E R) (junk : List ℕ → Int32) (data : Json)
    (entity : E) : Except Error E :=
  if data.count link.name = 0 then .ok (link.set entity none)
  else (data.at_ link.name >>= fun subdata ↦ deserializeEntities R junk subdata).map
    fun subentities ↦ link.set entity (some subentities)

end LinkMany

/-! ## The entity types -/

namespace Model

instance : Creatable User where
  createEntity := DAO.createUser
  updateSubentities entity _ := entity
  createSubentities := .pure
  deserializeSubentities _ _ entity := .ok entity

instance : Creatable Module where
  createEntity := DAO.createModule
  updateSubentities entity _ := entity
  createSubentities := .pure
  deserializeSubentities _ _ entity := .ok entity

/-- `LinkManyType<decltype(Course::modules)>`. -/
def Course.modulesLink : LinkMany Course Module where
  name := "modules"
  remoteKey := Module.courseIdColumn.n
  get := Course.modules
  set := fun e v ↦ { e with modules := v }

instance : Creatable Course where
  createEntity := DAO.createCourse
  updateSubentities := Course.modulesLink.updateSubentities
  createSubentities := Course.modulesLink.createSubentities
  deserializeSubentities := Course.modulesLink.deserializeSubentities

end Model

/-! ## Creation from a request body -/

section Body

variable (E : Type) [Creatable E] (parse : String → Except Error Json) (junk : List ℕ → Int32)

/-- `create_entities<T>(const nlohmann::json &)`. -/
def createEntitiesFromJson (data : Json) : DbProgram Unit := do
  let entities ← .ofExcept (deserializeEntities E junk data true)
  let _ ← createEntities entities

/-- `create_entities<T>(const std::string &)`. -/
def createEntitiesFromText (data : String) : DbProgram Unit := do
  let data ← .ofExcept (parse data)
  createEntitiesFromJson E junk data

/-- `deserialize_entities<T>(const std::string &, bool)`. -/
def deserializeEntitiesFromText (data : String) (includeSubentities : Bool := false) :
    Except Error (List E) :=
  parse data >>= fun data ↦ deserializeEntities E junk data includeSubentities

end Body

end Sphinx.Backend
