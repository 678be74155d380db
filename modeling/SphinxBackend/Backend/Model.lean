import SphinxBackend.Db.Column

/-!
# Users, courses and modules

The entity types of `backend/model/model.h` with their table names and reflection. A course has a
link to its modules beside its columns: the link is a member of the struct but no column, so the
traversals over the columns do not see it.
-/

namespace Sphinx.Backend.Model

open Sphinx.Db

structure User where
  id : Int32
  firstname : String
  lastname : String
  username : String
  studentId : Option String
  email : String
  role : String
  deriving DecidableEq, Repr

structure Module where
  id : Int32
  courseId : Int32
  title : String
  description : Option String
  deriving DecidableEq, Repr

structure Course where
  id : Int32
  title : String
  description : Option String
  ownerId : Int32
  /-- `LinkManyFieldType<Modules>`: the nested modules, if the link is engaged. -/
  modules : Option (List Module)
  deriving DecidableEq, Repr

/-! ## Accessors -/

namespace User

def idColumn : Column := ⟨0, .int32, [.primarykey]⟩

def usernameColumn : Column := ⟨3, .string, []⟩

def accessors : List (Accessor User) :=
  [idAccessor User.id fun e v ↦ { e with id := v },
    ⟨"firstname", ⟨1, .string, []⟩, User.firstname, fun e v ↦ { e with firstname := v }⟩,
    ⟨"lastname", ⟨2, .string, []⟩, User.lastname, fun e v ↦ { e with lastname := v }⟩,
    ⟨"username", usernameColumn, User.username, fun e v ↦ { e with username := v }⟩,
    ⟨"student_id", ⟨4, .string, [.optional]⟩, User.studentId, fun e v ↦ { e with studentId := v }⟩,
    ⟨"email", ⟨5, .string, []⟩, User.email, fun e v ↦ { e with email := v }⟩,
    ⟨"role", ⟨6, .string, []⟩, User.role, fun e v ↦ { e with role := v }⟩]

end User

namespace Course

def idColumn : Column := ⟨0, .int32, [.primarykey]⟩

def accessors : List (Accessor Course) :=
  [idAccessor Course.id fun e v ↦ { e with id := v },
    ⟨"title", ⟨1, .string, []⟩, Course.title, fun e v ↦ { e with title := v }⟩,
    ⟨"description", ⟨2, .string, [.optional]⟩, Course.description,
      fun e v ↦ { e with description := v }⟩,
    ⟨"owner_id", foreignKey 3 User.idColumn [], Course.ownerId, fun e v ↦ { e with ownerId := v }⟩]

end Course

namespace Module

def courseIdColumn : Column := foreignKey 1 Course.idColumn []

def accessors : List (Accessor Module) :=
  [idAccessor Module.id fun e v ↦ { e with id := v },
    ⟨"course_id", courseIdColumn, Module.courseId,
      fun e v ↦ { e with courseId := v }⟩,
    ⟨"title", ⟨2, .string, []⟩, Module.title, fun e v ↦ { e with title := v }⟩,
    ⟨"description", ⟨3, .string, [.optional]⟩, Module.description,
      fun e v ↦ { e with description := v }⟩]

end Module

/-! ## The entities -/

instance : Struct User where
  entityName := "users"
  accessors := User.accessors
  names_nodup := by decide
  get_set := by simp [User.accessors, idAccessor]
  get_set_of_ne := by
    intro a ha b hb hne e v
    simp only [User.accessors, List.mem_cons, List.not_mem_nil, or_false] at ha hb
    rcases ha with rfl | rfl | rfl | rfl | rfl | rfl | rfl <;>
      rcases hb with rfl | rfl | rfl | rfl | rfl | rfl | rfl <;>
        first | rfl | exact absurd rfl hne
  init := ⟨0, "", "", "", none, "", ""⟩
  get_init := by
    simp only [User.accessors, List.forall_mem_cons]
    exact ⟨rfl, rfl, rfl, rfl, rfl, rfl, rfl, List.forall_mem_nil _⟩

instance : Struct Course where
  entityName := "courses"
  accessors := Course.accessors
  names_nodup := by decide
  get_set := by simp [Course.accessors, idAccessor]
  get_set_of_ne := by
    intro a ha b hb hne e v
    simp only [Course.accessors, List.mem_cons, List.not_mem_nil, or_false] at ha hb
    rcases ha with rfl | rfl | rfl | rfl <;> rcases hb with rfl | rfl | rfl | rfl <;>
      first | rfl | exact absurd rfl hne
  init := ⟨0, "", none, 0, none⟩
  get_init := by
    simp only [Course.accessors, List.forall_mem_cons]
    exact ⟨rfl, rfl, rfl, rfl, List.forall_mem_nil _⟩

instance : Struct Module where
  entityName := "modules"
  accessors := Module.accessors
  names_nodup := by decide
  get_set := by simp [Module.accessors, idAccessor]
  get_set_of_ne := by
    intro a ha b hb hne e v
    simp only [Module.accessors, List.mem_cons, List.not_mem_nil, or_false] at ha hb
    rcases ha with rfl | rfl | rfl | rfl <;> rcases hb with rfl | rfl | rfl | rfl <;>
      first | rfl | exact absurd rfl hne
  init := ⟨0, 0, "", none⟩
  get_init := by
    simp only [Module.accessors, List.forall_mem_cons]
    exact ⟨rfl, rfl, rfl, rfl, List.forall_mem_nil _⟩

instance : Entity User where
  id := User.id
  setId := fun e v ↦ { e with id := v }
  primary := rfl
  insertColumns_ne_nil := by simp [Struct.accessors, User.accessors, Column.isPrimarykey]
  numbered := by decide
  entityName_identifier := by decide
  identifiers := by decide
  lowercase := by decide

instance : Entity Course where
  id := Course.id
  setId := fun e v ↦ { e with id := v }
  primary := rfl
  insertColumns_ne_nil := by simp [Struct.accessors, Course.accessors, Column.isPrimarykey]
  numbered := by decide
  entityName_identifier := by decide
  identifiers := by decide
  lowercase := by decide

instance : Entity Module where
  id := Module.id
  setId := fun e v ↦ { e with id := v }
  primary := rfl
  insertColumns_ne_nil := by simp [Struct.accessors, Module.accessors, Column.isPrimarykey]
  numbered := by decide
  entityName_identifier := by decide
  identifiers := by decide
  lowercase := by decide

end Sphinx.Backend.Model
