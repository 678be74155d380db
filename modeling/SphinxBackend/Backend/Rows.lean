import SphinxBackend.Backend.Model
import SphinxBackend.Backend.Schema
import SphinxBackend.Db.Utils

/-!
# Rows and entities

Whether a column may be NULL is decided three times: by the definition of its table, by the traits
of the entity's column, and by the branch of `get_field_c` that reads the cell. A column that is not
optional reads NULL as the empty text. For a text column this is a value like any other, so nothing
is noticed, and what is encoded again is not what was read.
-/

namespace Sphinx.Backend

open Db Sql

/-- A column of the entity has the values of a column of the table. -/
def stores : CellType → ColumnType → Bool
  | .integer, .int32 | .text, .string | .enum _, .string => true
  | _, _ => false

theorem exists_format {type : CellType} {t : ColumnType} {s : String} (h : stores type t)
    (hs : type.HasText s) : ∃ v, s = t.format v := by
  cases type with
  | integer =>
    cases t with
    | int32 => exact hs
    | string => exact absurd h (by decide)
  | _ =>
    cases t with
    | int32 => exact absurd h (by simp [stores])
    | string => exact ⟨s, rfl⟩

/-- A cell is decoded and encoded back if it is NULL in an optional column, or not NULL. -/
theorem exists_decodeCell_iff {c : ColumnDefinition} {t : ColumnType} {opt : Bool}
    {data : Option String} (hc : stores c.type t) (hdata : c.Admits data) :
    (∃ v : ValueOf t opt, decodeCell t opt data = .ok v ∧ v.toOptionalString = data) ↔
      opt ∨ data.isSome := by
  cases data with
  | some s =>
    refine iff_of_true ?_ (.inr rfl)
    obtain ⟨v, rfl⟩ := exists_format hc hdata
    have hv : (ValueOf.ofPlain v : ValueOf t opt).toOptionalString = some (t.format v) := by
      rw [ValueOf.toOptionalString_eq, ValueOf.toPlain_ofPlain, Option.map_some]
    exact ⟨.ofPlain v, hv ▸ decodeCell_toOptionalString _, hv⟩
  | none =>
    cases opt with
    | true => exact iff_of_true ⟨none, rfl, rfl⟩ (.inl rfl)
    | false =>
      refine iff_of_false ?_ (by simp)
      rintro ⟨v, -, hv⟩
      exact absurd hv (by simp [ValueOf.toOptionalString])

/-- A cell is decoded, NULL being an empty text. -/
theorem exists_decodeCell {c : ColumnDefinition} {t : ColumnType} {opt : Bool}
    {data : Option String} (hc : stores c.type t) (hdata : c.Admits data)
    (hnull : c.nullable → opt ∨ t = .string) :
    ∃ v : ValueOf t opt, decodeCell t opt data = .ok v := by
  have hcell (h : opt ∨ data.isSome) : ∃ v : ValueOf t opt, decodeCell t opt data = .ok v := by
    obtain ⟨v, hv, -⟩ := (exists_decodeCell_iff hc hdata).mpr h
    exact ⟨v, hv⟩
  cases data with
  | some s => exact hcell (.inr rfl)
  | none =>
    rcases hnull hdata with hopt | rfl
    · exact hcell (.inl hopt)
    · cases opt with
      | true => exact hcell (.inl rfl)
      | false => exact ⟨"", rfl⟩

section Entity

variable (E : Type) [Entity E]

/-- A row is decoded without an exception, wherever it stands in a result, and the values to insert
for the entity are the row's own cells. -/
def Reencodes (columns : List String) (r : Row) : Prop :=
  ∀ (rows : List Row) (k : ℕ), rows[k]? = some r → ∃ e : E,
    getRow E (.ofRows columns rows) (getColumnsId E (.ofRows columns rows)) k = .ok e ∧
      makeValueList (getValuesToInsert e) = (getInsertColumns E).map fun a ↦ r a.name

/-- Every column of the entity is defined with a type of the same texts, and the key is never
NULL. -/
structure Models (d : Definition) : Prop where
  column : ∀ a ∈ Struct.accessors (E := E), ∃ c ∈ d.columns,
    c.name = a.name ∧ stores c.type a.column.type
  key : ∃ c ∈ d.columns, c.name = "id" ∧ c.nullable = false

variable {E}

theorem Models.id_isSome {d : Definition} (hd : Models E d) {r : Row} (hr : d.Admits r) :
    (r "id").isSome := by
  obtain ⟨c, hc, hname, hnull⟩ := hd.key
  exact hname ▸ hr.isSome hc hnull

theorem reencodes_iff_of_models {d : Definition} (hd : Models E d) {r : Row} (hr : d.Admits r)
    {columns : List String} (hcolumns : ∀ a ∈ Struct.accessors (E := E), a.name ∈ columns) :
    Reencodes E columns r ↔
      ∀ a ∈ getInsertColumns E, a.column.isOptional ∨ (r a.name).isSome := by
  have hcell {a : Accessor E} (ha : a ∈ Struct.accessors (E := E)) :
      (∃ v : a.column.Value, decodeCell a.column.type a.column.isOptional (r a.name) = .ok v ∧
        v.toOptionalString = r a.name) ↔ a.column.isOptional ∨ (r a.name).isSome := by
    obtain ⟨c, hc, hname, hstores⟩ := hd.column a ha
    have hadmits := hr.column c hc
    rw [hname] at hadmits
    exact exists_decodeCell_iff hstores hadmits
  constructor
  · intro h a ha
    have hmem := mem_accessors_of_mem_insertColumns ha
    obtain ⟨e, he, hvalues⟩ := h [r] 0 rfl
    rw [getRow_ofRows rfl hcolumns, decodeRow] at he
    rw [makeValueList_getValuesToInsert, List.map_inj_left] at hvalues
    obtain ⟨v, hv, hget⟩ := exists_of_load he hmem
    obtain ⟨w, hdecode, rfl⟩ := Collections.map_eq_ok_iff.mp hv
    rw [Option.getD_some] at hget
    exact (hcell hmem).mp ⟨w, hdecode, hget ▸ hvalues a ha⟩
  · intro h rows k hk
    -- the key is decoded as well, though nothing is inserted for it
    have hall : ∀ a ∈ Struct.accessors (E := E), ∃ v : a.column.Value,
        decodeCell a.column.type a.column.isOptional (r a.name) = .ok v ∧
          v.toOptionalString = r a.name := by
      intro a ha
      refine (hcell ha).mpr ?_
      rcases mem_accessors_iff.mp ha with rfl | hins
      · exact .inr (hd.id_isSome hr)
      · exact h a hins
    have hload : ∀ a ∈ Struct.accessors (E := E), ∃ v,
        (decodeCell a.column.type a.column.isOptional (r a.name)).map some = .ok v := by
      intro a ha
      obtain ⟨v, hv, -⟩ := hall a ha
      exact ⟨some v, by rw [hv]; rfl⟩
    obtain ⟨e, he⟩ := load_exists_ok hload Struct.init
    refine ⟨e, (getRow_ofRows hk hcolumns).trans he, ?_⟩
    rw [makeValueList_getValuesToInsert]
    refine List.map_congr_left fun a ha ↦ ?_
    have hmem := mem_accessors_of_mem_insertColumns ha
    obtain ⟨v, hv, htext⟩ := hall a hmem
    obtain ⟨w, hw, hget⟩ := exists_of_load he hmem
    rw [hv] at hw
    obtain rfl := Except.ok.inj hw
    rw [hget, Option.getD_some, htext]

end Entity

section Read

variable {E : Type} [Entity E]

variable (E) in
/-- No column that is read as an integer may be NULL. -/
def Readable (d : Definition) : Prop := ∀ a ∈ Struct.accessors (E := E), ∃ c ∈ d.columns,
  c.name = a.name ∧ stores c.type a.column.type ∧
    (c.nullable → a.column.isOptional ∨ a.column.type = .string)

instance (d : Definition) : Decidable (Readable E d) :=
  inferInstanceAs (Decidable (∀ a ∈ Struct.accessors (E := E), ∃ c ∈ d.columns, _))

theorem exists_decodeRow {d : Definition} (hd : Readable E d) {r : Row} (hr : d.Admits r) :
    ∃ e, decodeRow E r = .ok e := by
  refine load_exists_ok (fun a ha ↦ ?_) _
  obtain ⟨c, hc, hname, hstores, hnull⟩ := hd a ha
  obtain ⟨v, hv⟩ := exists_decodeCell hstores (hname ▸ hr.column c hc) hnull
  exact ⟨some v, by rw [hv]; rfl⟩

end Read

/-! ## The three tables -/

theorem models_users : Models Model.User usersDefinition := ⟨by decide, by decide⟩

theorem models_courses : Models Model.Course coursesDefinition := ⟨by decide, by decide⟩

theorem models_modules : Models Model.Module modulesDefinition := ⟨by decide, by decide⟩

/-- The role is the one column that may be NULL in the table and not in the entity. -/
theorem reencodes_user_iff {r : Row} (hr : usersDefinition.Admits r) :
    Reencodes Model.User usersTable.columns r ↔ (r "role").isSome := by
  have hcolumns : getInsertColumns Model.User = Model.User.accessors.tail := rfl
  have hfirstname : (r "firstname").isSome :=
    hr.isSome (c := ⟨"firstname", .text, false⟩) (by decide) rfl
  have hlastname : (r "lastname").isSome :=
    hr.isSome (c := ⟨"lastname", .text, false⟩) (by decide) rfl
  have husername : (r "username").isSome :=
    hr.isSome (c := ⟨"username", .text, false⟩) (by decide) rfl
  have hemail : (r "email").isSome := hr.isSome (c := ⟨"email", .text, false⟩) (by decide) rfl
  rw [reencodes_iff_of_models models_users hr (by decide), hcolumns]
  simp only [Model.User.accessors, List.tail_cons, List.forall_mem_cons]
  constructor
  · intro h
    exact h.2.2.2.2.2.1.resolve_left (by decide)
  · intro hrole
    exact ⟨.inr hfirstname, .inr hlastname, .inr husername, .inl rfl, .inr hemail, .inr hrole,
      List.forall_mem_nil _⟩

theorem reencodes_course {r : Row} (hr : coursesDefinition.Admits r) :
    Reencodes Model.Course coursesTable.columns r := by
  have hcolumns : getInsertColumns Model.Course = Model.Course.accessors.tail := rfl
  have htitle : (r "title").isSome := hr.isSome (c := ⟨"title", .text, false⟩) (by decide) rfl
  have howner : (r "owner_id").isSome :=
    hr.isSome (c := ⟨"owner_id", .integer, false⟩) (by decide) rfl
  rw [reencodes_iff_of_models models_courses hr (by decide), hcolumns]
  simp only [Model.Course.accessors, List.tail_cons, List.forall_mem_cons]
  exact ⟨.inr htitle, .inl rfl, .inr howner, List.forall_mem_nil _⟩

theorem reencodes_module {r : Row} (hr : modulesDefinition.Admits r) :
    Reencodes Model.Module modulesTable.columns r := by
  have hcolumns : getInsertColumns Model.Module = Model.Module.accessors.tail := rfl
  have hcourse : (r "course_id").isSome :=
    hr.isSome (c := ⟨"course_id", .integer, false⟩) (by decide) rfl
  have htitle : (r "title").isSome := hr.isSome (c := ⟨"title", .text, false⟩) (by decide) rfl
  rw [reencodes_iff_of_models models_modules hr (by decide), hcolumns]
  simp only [Model.Module.accessors, List.tail_cons, List.forall_mem_cons]
  exact ⟨.inr hcourse, .inr htitle, .inl rfl, List.forall_mem_nil _⟩

/-- **Reading a row and encoding it again gives the row back**, except for a user without a role. -/
theorem reencodes_iff (r : Row) :
    (usersDefinition.Admits r →
        (Reencodes Model.User usersTable.columns r ↔ (r "role").isSome)) ∧
      (coursesDefinition.Admits r → Reencodes Model.Course coursesTable.columns r) ∧
      (modulesDefinition.Admits r → Reencodes Model.Module modulesTable.columns r) :=
  ⟨reencodes_user_iff, reencodes_course, reencodes_module⟩

/-- A user with some role, or none, and some student id, or none. -/
def adaRow (role studentId : Option String) : Row :=
  newRow "id" 1 [("firstname", some "Ada"), ("lastname", some "Byron"), ("username", some "ada"),
    ("student_id", studentId), ("email", some "ada@example"), ("role", role)]

theorem admits_adaRow {role studentId : Option String}
    (hrole : ∀ s, role = some s → s ∈ ["student", "teacher", "admin"])
    (hstudent : ∀ s, studentId = some s → '\x00' ∉ s.toList)
    (hcheck : studentIdNotNull (adaRow role studentId) ≠ some false) :
    usersDefinition.Admits (adaRow role studentId) := by
  refine ⟨?_, hcheck⟩
  simp only [usersDefinition, List.forall_mem_cons]
  refine ⟨⟨1, rfl⟩, admits_text (by decide), admits_text (by decide), admits_text (by decide), ?_,
    admits_text (by decide), ?_, List.forall_mem_nil _⟩
  · cases studentId with
    | none => rfl
    | some s => exact hstudent s rfl
  · cases role with
    | none => rfl
    | some s => exact hrole s rfl

/-- Without a role the check does not refuse a student id. -/
theorem not_reencodes_without_role :
    ¬∀ r, usersDefinition.Admits r → Reencodes Model.User usersTable.columns r := by
  intro h
  have hadmits : usersDefinition.Admits (adaRow none (some "s1")) :=
    admits_adaRow (by simp) (by decide) (by decide)
  exact absurd ((reencodes_user_iff hadmits).mp (h _ hadmits)) (by decide)

theorem reencodes_each :
    Reencodes Model.User usersTable.columns (adaRow (some "student") (some "s1")) ∧
      Reencodes Model.Course coursesTable.columns
        (newRow "id" 1 [("title", some "Algebra"), ("owner_id", some "1")]) ∧
      Reencodes Model.Module modulesTable.columns (newRow "id" 4
        [("course_id", some "1"), ("title", some "Groups"), ("order", some "2")]) := by
  refine ⟨((reencodes_iff _).1 (admits_adaRow (by decide) (by decide) (by decide))).mpr (by decide),
    (reencodes_iff _).2.1 ⟨?_, by decide⟩, (reencodes_iff _).2.2 ⟨?_, by decide⟩⟩
  · simp only [coursesDefinition, List.forall_mem_cons]
    exact ⟨⟨1, rfl⟩, admits_text (by decide), rfl, ⟨1, rfl⟩, List.forall_mem_nil _⟩
  · simp only [modulesDefinition, List.forall_mem_cons]
    exact ⟨⟨4, rfl⟩, ⟨1, rfl⟩, admits_text (by decide), rfl, ⟨2, rfl⟩, List.forall_mem_nil _⟩

end Sphinx.Backend
