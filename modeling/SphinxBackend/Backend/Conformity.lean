import SphinxBackend.Backend.Accounting
import SphinxBackend.Backend.Rows

/-!
# Rows that the definitions allow

The program checks nothing of what it inserts: what a column may hold is left to the definitions of
the tables. For courses and modules they never have a reason to refuse a row, because the types of
the columns leave no room for one. For users they do, and the reason is the role, or the student id
that does not go with it.

So a run that starts from tables that conform to their definitions leaves courses and modules that
conform to theirs, and users as well if only such users were asked for. Then all that is known of a
run holds of a second one that starts where the first one has ended.
-/

namespace Sphinx.Backend

open Db Nlohmann Interaction Program Collections Model

/-! ## One row -/

theorem notMem_cString (s : String) : '\x00' ∉ (Text.cString s).toList := by
  rw [Text.cString, String.toList_ofList]
  intro h
  exact absurd (List.mem_takeWhile_imp h) (by simp)

/-- A text that has reached the server. -/
theorem admits_cString (name : String) (nullable : Bool) (s : String) :
    (⟨name, .text, nullable⟩ : Sql.ColumnDefinition).Admits (some (Text.cString s)) :=
  notMem_cString s

theorem admits_map_cString (name : String) (s : Option String) :
    (⟨name, .text, true⟩ : Sql.ColumnDefinition).Admits (s.map Text.cString) := by
  cases s with
  | none => rfl
  | some s => exact notMem_cString s

theorem admits_keyText (name : String) (nullable : Bool) (i : Int32) :
    (⟨name, .integer, nullable⟩ : Sql.ColumnDefinition).Admits (some (Sql.keyText i)) :=
  ⟨i, rfl⟩

/-- A user for whom the definition has room. -/
structure Registrable (u : User) : Prop where
  role : Text.cString u.role ∈ ["student", "teacher", "admin"]
  student : Text.cString u.role = "student" ↔ u.studentId.isSome

/-- With a role the check is never unknown. -/
theorem studentIdNotNull_iff {r : Sql.Row} {role : String} (hrole : r "role" = some role) :
    studentIdNotNull r ≠ some false ↔ (role = "student" ↔ (r "student_id").isSome) := by
  rw [studentIdNotNull, hrole]
  by_cases hstudent : role = "student" <;> cases r "student_id" <;>
    simp [Sql.isIn, Sql.isNotIn, Sql.Truth.and, Sql.Truth.or, hstudent]

/-- What a new row has in a column that is an optional text. -/
theorem row_optionalText {E : Type} [Entity E] {k n : ℕ} {name : String} {get : E → Option String}
    {set : E → Option String → E}
    (h : (getInsertColumns E)[k]? = some ⟨name, ⟨n, .string, [.optional]⟩, get, set⟩) (e : E) :
    (inserted e).row name = (get e).map Text.cString :=
  (row_name e (List.mem_of_getElem? h)).trans
    (congrArg _ (ValueOf.toOptionalString_optional (get e)))

theorem admits_user_iff (u : User) : usersDefinition.Admits (inserted u).row ↔ Registrable u := by
  have hstudentId : (inserted u).row "student_id" = u.studentId.map Text.cString :=
    row_optionalText (k := 3) rfl u
  have hcheck : usersDefinition.check (inserted u).row ≠ some false ↔
      (Text.cString u.role = "student" ↔ u.studentId.isSome) := by
    have hstudent : ((inserted u).row "student_id").isSome = u.studentId.isSome := by
      rw [hstudentId, Option.isSome_map]
    rw [← hstudent]
    exact studentIdNotNull_iff rfl
  constructor
  · rintro ⟨hcolumns, hadmits⟩
    simp only [usersDefinition, List.forall_mem_cons] at hcolumns
    exact ⟨hcolumns.2.2.2.2.2.2.1, hcheck.mp hadmits⟩
  · rintro ⟨hrole, hstudent⟩
    refine ⟨?_, hcheck.mpr hstudent⟩
    simp only [usersDefinition, List.forall_mem_cons]
    refine ⟨admits_keyText _ _ u.id, admits_cString _ _ u.firstname, admits_cString _ _ u.lastname,
      admits_cString _ _ u.username, ?_, admits_cString _ _ u.email, hrole, List.forall_mem_nil _⟩
    rw [hstudentId]
    exact admits_map_cString _ _

/-- Every course can be stored. -/
theorem admits_course (c : Course) : coursesDefinition.Admits (inserted c).row := by
  have howner : (inserted c).row "owner_id" = some (Sql.keyText c.ownerId) :=
    congrArg some (Text.cString_toString _)
  have hdescription : (inserted c).row "description" = c.description.map Text.cString :=
    row_optionalText (k := 1) rfl c
  refine ⟨?_, by simp [coursesDefinition]⟩
  simp only [coursesDefinition, List.forall_mem_cons]
  refine ⟨admits_keyText _ _ c.id, admits_cString _ _ c.title, ?_, ?_, List.forall_mem_nil _⟩
  · rw [hdescription]
    exact admits_map_cString _ _
  · rw [howner]
    exact admits_keyText _ _ c.ownerId

/-- Every module can, and has no place in the order. -/
theorem admits_module (m : Module) : modulesDefinition.Admits (inserted m).row := by
  have hdescription : (inserted m).row "description" = m.description.map Text.cString :=
    row_optionalText (k := 2) rfl m
  refine ⟨?_, by simp [modulesDefinition]⟩
  simp only [modulesDefinition, List.forall_mem_cons]
  refine ⟨admits_keyText _ _ m.id, ?_, admits_cString _ _ m.title, ?_, rfl, List.forall_mem_nil _⟩
  · rw [row_courseId]
    exact admits_keyText _ _ m.courseId
  · rw [hdescription]
    exact admits_map_cString _ _

/-- The body asks for the user, under some id. -/
def AsksForUser (parse : String → Except Error Json) (junk : List ℕ → Int32) (body : String)
    (u' : User) : Prop :=
  ∃ es, deserializeEntitiesFromText User parse junk body true = .ok es ∧
    ∃ u ∈ es, Renumbered u u'

/-! ## The tables of a run -/

/-- Rows that were added to a table of the definition. -/
theorem conforms_append_iff {d : Sql.Definition} {t t' : Sql.Table} {rows : List Sql.Row}
    (ht : Conforms d t) (hcolumns : t'.columns = t.columns) (hkey : t'.key = t.key)
    (hrows : t'.rows = t.rows ++ rows) : Conforms d t' ↔ ∀ r ∈ rows, d.Admits r := by
  constructor
  · intro h r hr
    exact h.admits r (hrows ▸ List.mem_append_right _ hr)
  · intro h
    refine ⟨fun c hc ↦ hcolumns ▸ ht.columns c hc, hkey.trans ht.key, fun r hr ↦ ?_⟩
    rw [hrows] at hr
    rcases List.mem_append.mp hr with hr | hr
    · exact ht.admits r hr
    · exact h r hr

section Served

variable {ι : Type} [DecidableEq ι] {notImplementedYet : Error}
  {parse : String → Except Error Json} {junk : ι → List ℕ → Int32} {route : ι → Route}
  {req : ι → Request} {db : Sql.Db} {c : Pool ι Sql.Db Call PGresult Error Response}

/-- **Courses and modules always conform to their definitions, and users do exactly if only users
with a role, and with the student id that goes with it, were added.** Each of these is one that the
body of a request asks for. -/
theorem conforms_of_served (hdb : Stored db)
    (h : Served notImplementedYet parse junk db route req c) :
    Conforms coursesDefinition (c.shared "courses") ∧
      Conforms modulesDefinition (c.shared "modules") ∧
      ∃ users : List (ι × User),
        (c.shared "users").rows = (db "users").rows ++ users.map (fun a ↦ (inserted a.2).row) ∧
        (∀ a ∈ users, postHandler (route a.1) (req a.1) = some .users ∧
          AsksForUser parse (junk a.1) (req a.1).body a.2) ∧
        (Conforms usersDefinition (c.shared "users") ↔ ∀ a ∈ users, Registrable a.2) := by
  obtain ⟨added, hadditions⟩ := h.exists_additions
  have hinserted := hadditions.inserted
  have hconforms {t : String} {d : Sql.Definition} (ht : Conforms d (db t)) :
      Conforms d (c.shared t) ↔ ∀ a ∈ added, a.2.table = t → d.Admits a.2.row := by
    rw [conforms_append_iff ht (hinserted.columns t) (hinserted.key t) (hinserted.rows t), rowsInto,
      List.forall_mem_map]
    simp only [List.mem_filter, List.mem_map, decide_eq_true_eq, and_imp,
      forall_exists_index, forall_apply_eq_imp_iff₂]
  refine ⟨(hconforms hdb.courses).mpr fun a ha htable ↦ ?_,
    (hconforms hdb.modules).mpr fun a ha htable ↦ ?_, ?_⟩
  · obtain ⟨handler, -, hplanned⟩ := h.plannedAs hadditions ha
    obtain ⟨-, c, -, hc⟩ := hplanned.exists_course htable
    rw [hc]
    exact admits_course c
  · obtain ⟨handler, -, hplanned⟩ := h.plannedAs hadditions ha
    obtain ⟨m, hm, -⟩ := hplanned.exists_module htable
    rw [hm]
    exact admits_module m
  -- the users, in the order of their rows
  · have huser : ∀ a ∈ added.filter (fun a ↦ a.2.table = "users"), ∃ u : User,
        a.2 = inserted u ∧ postHandler (route a.1) (req a.1) = some .users ∧
          AsksForUser parse (junk a.1) (req a.1).body u := by
      intro a ha
      obtain ⟨ha, htable⟩ := List.mem_filter.mp ha
      obtain ⟨handler, hpost, hplanned⟩ := h.plannedAs hadditions ha
      obtain ⟨rfl, u, hasks, hu⟩ := hplanned.exists_user (of_decide_eq_true htable)
      exact ⟨u, hu, hpost, hasks⟩
    have : Nonempty User := ⟨byron⟩
    choose! user hinserts hasks using huser
    have hrows : rowsInto "users" (added.map Prod.snd)
        = ((added.filter fun a ↦ a.2.table = "users").map fun a ↦ (a.1, user a)).map
          fun a ↦ (inserted a.2).row := by
      rw [rowsInto, List.filter_map, List.map_map, List.map_map]
      exact List.map_congr_left fun a ha ↦ congrArg Insertion.row (hinserts a ha)
    refine ⟨_, hrows ▸ hinserted.rows "users", fun b hb ↦ ?_, ?_⟩
    · obtain ⟨a, ha, rfl⟩ := List.mem_map.mp hb
      exact hasks a ha
    · rw [conforms_append_iff hdb.users (hinserted.columns _) (hinserted.key _)
        (hrows ▸ hinserted.rows "users"), List.forall_mem_map]
      exact forall₂_congr fun a _ ↦ admits_user_iff a.2

end Served

theorem conforms_lostAnswer :
    Conforms coursesDefinition (lostAnswer.shared "courses") ∧
      Conforms modulesDefinition (lostAnswer.shared "modules") ∧
      ∃ users : List (Bool × User),
        (lostAnswer.shared "users").rows
          = (campus "users").rows ++ users.map (fun a ↦ (inserted a.2).row) ∧
        (∀ a ∈ users, postHandler .users (registerAndList a.1) = some .users ∧
          AsksForUser parseStudents (fun _ ↦ 0) (registerAndList a.1).body a.2) ∧
        (Conforms usersDefinition (lostAnswer.shared "users") ↔ ∀ a ∈ users, Registrable a.2) :=
  conforms_of_served stored_campus lostAnswer_served

end Sphinx.Backend
