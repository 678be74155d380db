import SphinxBackend.Sql.Definition

/-!
# The tables of the database

The tables that `docs/db.pgsql` defines for the entities, as they are when just created: the
columns in the order of their definitions, `id` as the primary key, and no rows. The table of
modules has a column that the entity type does not model.

The definitions themselves say which rows can be in the tables. A user without a role passes the
check of the student id whatever the student id is: the comparison with the role is unknown, so the
check is never false.

`campus` is a state that the definitions allow, with rows in all tables, which runs can start from.
-/

namespace Sphinx.Backend

open Sql

/-- A table without rows. -/
def emptyTable (columns : List String) (key : String) (hnd : columns.Nodup) (hkey : key ∈ columns) :
    Table where
  columns := columns
  key := key
  rows := []
  columns_nodup := hnd
  key_mem := hkey
  keys := fun _ hr ↦ absurd hr List.not_mem_nil
  keys_nodup := .nil

def usersTable : Table :=
  emptyTable ["id", "firstname", "lastname", "username", "student_id", "email", "role"] "id"
    (by decide) (by decide)

def coursesTable : Table :=
  emptyTable ["id", "title", "description", "owner_id"] "id" (by decide) (by decide)

def modulesTable : Table :=
  emptyTable ["id", "course_id", "title", "description", "order"] "id" (by decide) (by decide)

/-! ## Definitions -/

/-- `CONSTRAINT student_id_not_null`. -/
def studentIdNotNull (r : Row) : Truth :=
  Truth.or (Truth.and (isIn (r "role") ["student"]) (some (r "student_id").isSome))
    (Truth.and (isNotIn (r "role") ["student"]) (some (r "student_id").isNone))

def usersDefinition : Definition where
  columns := [⟨"id", .integer, false⟩, ⟨"firstname", .text, false⟩, ⟨"lastname", .text, false⟩,
    ⟨"username", .text, false⟩, ⟨"student_id", .text, true⟩, ⟨"email", .text, false⟩,
    ⟨"role", .enum ["student", "teacher", "admin"], true⟩]
  check := studentIdNotNull

def coursesDefinition : Definition where
  columns := [⟨"id", .integer, false⟩, ⟨"title", .text, false⟩, ⟨"description", .text, true⟩,
    ⟨"owner_id", .integer, false⟩]
  check _ := some true

def modulesDefinition : Definition where
  columns := [⟨"id", .integer, false⟩, ⟨"course_id", .integer, false⟩, ⟨"title", .text, false⟩,
    ⟨"description", .text, true⟩, ⟨"order", .integer, true⟩]
  check _ := some true

/-- A table with the columns of a definition, in any order, and rows that it admits. -/
structure Conforms (d : Definition) (t : Table) : Prop where
  columns : ∀ c ∈ d.columns, c.name ∈ t.columns
  key : t.key = "id"
  admits : ∀ r ∈ t.rows, d.Admits r

/-- A state of the database that the definitions allow. -/
structure Stored (db : Db) : Prop where
  users : Conforms usersDefinition (db "users")
  courses : Conforms coursesDefinition (db "courses")
  modules : Conforms modulesDefinition (db "modules")

/-! ## A state of the database -/

/-- A table with the rows under their ids. -/
def tableOf (columns : List String) (rows : List (Int32 × List (String × Option String)))
    (hnd : columns.Nodup) (hkey : "id" ∈ columns) (hids : (rows.map Prod.fst).Nodup) : Table where
  columns := columns
  key := "id"
  rows := rows.map fun r ↦ newRow "id" r.1 r.2
  columns_nodup := hnd
  key_mem := hkey
  keys := by
    intro r hr
    obtain ⟨x, -, rfl⟩ := List.mem_map.mp hr
    exact ⟨x.1, newRow_key _ _ _⟩
  keys_nodup := by
    have hkeys : (rows.map fun r ↦ newRow "id" r.1 r.2).map (· "id")
        = (rows.map Prod.fst).map fun i ↦ some (keyText i) := by
      rw [List.map_map, List.map_map]
      exact List.map_congr_left fun r _ ↦ newRow_key _ _ _
    rw [hkeys]
    exact hids.map fun i j h ↦ keyText_injective (Option.some.inj h)

/-- A teacher with two courses, one of which has modules, and two students. -/
def campus : Db := fun t ↦
  if t = "courses" then
    tableOf coursesTable.columns
      [(3, [("title", some "Logic"), ("description", some ""), ("owner_id", some "1")]),
        (7, [("title", some "Geometry"), ("description", none), ("owner_id", some "1")])]
      (by decide) (by decide) (by decide)
  else if t = "modules" then
    tableOf modulesTable.columns
      [(1, [("course_id", some "3"), ("title", some "Sets"), ("description", some "1"),
          ("order", some "2")]),
        (2, [("course_id", some "3"), ("title", some "Proofs"), ("description", none)])]
      (by decide) (by decide) (by decide)
  else
    tableOf usersTable.columns
      [(1, [("firstname", some "Emmy"), ("lastname", some "Noether"), ("username", some "emmy"),
          ("student_id", none), ("email", some "emmy@example"), ("role", some "teacher")]),
        (2, [("firstname", some "Grace"), ("lastname", some "Hopper"), ("username", some "grace"),
          ("student_id", some "s1"), ("email", some "grace@example"), ("role", some "student")]),
        (3, [("firstname", some "Alan"), ("lastname", some ""), ("username", some "alan"),
          ("student_id", some "s2"), ("email", some "alan@example"), ("role", some "student")])]
      (by decide) (by decide) (by decide)

theorem admits_text {s name : String} {nullable : Bool} (h : '\x00' ∉ s.toList) :
    (⟨name, .text, nullable⟩ : ColumnDefinition).Admits (some s) := h

theorem stored_campus : Stored campus := by
  refine ⟨⟨by decide, rfl, ?_⟩, ⟨by decide, rfl, ?_⟩, ⟨by decide, rfl, ?_⟩⟩
  · refine List.forall_mem_cons.mpr ⟨⟨?_, by decide⟩, List.forall_mem_cons.mpr ⟨⟨?_, by decide⟩,
      List.forall_mem_singleton.mpr ⟨?_, by decide⟩⟩⟩ <;>
      simp only [usersDefinition, List.forall_mem_cons]
    · exact ⟨⟨1, rfl⟩, admits_text (by decide), admits_text (by decide), admits_text (by decide),
        rfl, admits_text (by decide), List.mem_cons_of_mem _ List.mem_cons_self,
        List.forall_mem_nil _⟩
    · exact ⟨⟨2, rfl⟩, admits_text (by decide), admits_text (by decide), admits_text (by decide),
        admits_text (by decide), admits_text (by decide), List.mem_cons_self, List.forall_mem_nil _⟩
    · exact ⟨⟨3, rfl⟩, admits_text (by decide), admits_text (by decide), admits_text (by decide),
        admits_text (by decide), admits_text (by decide), List.mem_cons_self, List.forall_mem_nil _⟩
  · refine List.forall_mem_cons.mpr ⟨⟨?_, by decide⟩, List.forall_mem_singleton.mpr ⟨?_, by decide⟩⟩
      <;> simp only [coursesDefinition, List.forall_mem_cons]
    · exact ⟨⟨3, rfl⟩, admits_text (by decide), admits_text (by decide), ⟨1, rfl⟩,
        List.forall_mem_nil _⟩
    · exact ⟨⟨7, rfl⟩, admits_text (by decide), rfl, ⟨1, rfl⟩, List.forall_mem_nil _⟩
  · refine List.forall_mem_cons.mpr ⟨⟨?_, by decide⟩, List.forall_mem_singleton.mpr ⟨?_, by decide⟩⟩
      <;> simp only [modulesDefinition, List.forall_mem_cons]
    · exact ⟨⟨1, rfl⟩, ⟨3, rfl⟩, admits_text (by decide), admits_text (by decide), ⟨2, rfl⟩,
        List.forall_mem_nil _⟩
    · exact ⟨⟨2, rfl⟩, ⟨3, rfl⟩, admits_text (by decide), rfl, rfl, List.forall_mem_nil _⟩

end Sphinx.Backend
