import SphinxBackend.Backend.Creation
import SphinxBackend.Backend.Decoding
import SphinxBackend.Backend.Routes
import SphinxBackend.Backend.Schema
import SphinxBackend.Db.Selection

/-!
# The modules of a course

The handler of a course's modules is given the course with the path. To list modules it selects
those that refer to that course. To create them it does not look at it: a module refers to the
course its document names, and to course `0` if it names none. What is created under a path is
listed under it exactly when the documents agree with the path.
-/

namespace Sphinx.Backend

open Db Nlohmann Interaction Program Collections Model

/-! ## What a document refers to -/

/-- The document names the course; a missing or null name stands for `0`. -/
def RefersTo (courseId : Int32) (document : Json) : Prop :=
  match document.member "course_id" with
  | none | some .null => courseId = 0
  | some value => value.getInt32 = .ok courseId

/-- The branch of the decoder for foreign keys. -/
theorem columnFromJson_courseId (document : Json) :
    Json.columnFromJson document courseIdAccessor = match document.member "course_id" with
      | none | some .null => .ok (some (0 : Int32))
      | some value => value.getInt32.map some := by
  cases hmember : document.member "course_id" with
  | none =>
    rw [Json.columnFromJson, Json.isAbsent_of_not_member hmember]
    rfl
  | some value =>
    rw [Json.columnFromJson, Json.isAbsent_of_member hmember, Json.getValue,
      Json.at_of_member hmember]
    cases value <;> rfl

theorem refersTo_iff_of_fromJson {junk : Int32} {document : Json} {m : Module}
    (h : Json.fromJson junk document = .ok m) (courseId : Int32) :
    RefersTo courseId document ↔ m.courseId = courseId := by
  obtain ⟨v, hv, hget⟩ := exists_of_load h
    (mem_accessors_of_mem_insertColumns courseIdAccessor_mem)
  have hzero : (Except.ok (some (0 : Int32)) : Except Error _) = .ok v →
      (courseId = 0 ↔ m.courseId = courseId) := by
    intro h0
    obtain rfl := Except.ok.inj h0
    exact ⟨fun hc ↦ hget.trans hc.symm, fun hc ↦ hc.symm.trans hget⟩
  rw [columnFromJson_courseId] at hv
  rw [RefersTo]
  split at hv
  · exact hzero hv
  · exact hzero hv
  · rename_i value hnull hmember
    obtain ⟨n, hvalue, rfl⟩ := map_eq_ok_iff.mp hv
    have hm : m.courseId = n := hget
    rw [hvalue, hm]
    exact ⟨Except.ok.inj, congrArg _⟩

/-- The modules of a body refer to what its documents refer to. -/
theorem refersTo_iff_of_deserialize {junk : List ℕ → Int32} {data : Json} {ms : List Module}
    (h : deserializeEntities Module junk data true = .ok ms) (courseId : Int32) :
    (∀ d ∈ documents data, RefersTo courseId d) ↔ ∀ m ∈ ms, m.courseId = courseId := by
  refine forall_mem_iff_of_forall₂ (fun d m ⟨i, hd⟩ ↦ ?_) (forall₂_of_deserializeEntities h)
  have hjson : Json.fromJson (junk [i]) d = .ok m := by
    rw [← hd, deserializeEntity, if_pos rfl]
    exact (bind_pure (Json.fromJson (junk [i]) d)).symm
  exact refersTo_iff_of_fromJson hjson courseId

/-! ## The rows of a course -/

/-- A row with a key and a reference is a module's, whatever its other columns hold. -/
theorem decodeRow_module {r : Sql.Row} {i courseId : Int32} (hid : r "id" = some (Sql.keyText i))
    (hcourse : r "course_id" = some (Sql.keyText courseId)) :
    decodeRow Module r = .ok ⟨i, courseId, (r "title").getD "", r "description"⟩ := by
  have hcell (a : Accessor Module) (ha : a ∈ Struct.accessors) :
      (decodeCell a.column.type a.column.isOptional (r a.name)).map some
        = .ok (some (a.get ⟨i, courseId, (r "title").getD "", r "description"⟩)) := by
    simp only [Struct.accessors, Module.accessors, List.mem_cons, List.not_mem_nil, or_false] at ha
    rcases ha with rfl | rfl | rfl | rfl
    · change (decodeCell .int32 false (r "id")).map some = _
      rw [hid]
      exact congrArg (Except.map some) (stoi_toString i)
    · change (decodeCell .int32 false (r "course_id")).map some = _
      rw [hcourse]
      exact congrArg (Except.map some) (stoi_toString courseId)
    · rfl
    · change (decodeCell .string true (r "description")).map some = .ok (some (r "description"))
      cases r "description" <;> rfl
  exact load_eq_ok hcell _

/-- The modules that refer to a course. -/
def rowsOfCourse (db : Sql.Db) (courseId : Int32) : List Sql.Row :=
  rowsWhere (db "modules") "course_id" (toString courseId.toInt)

theorem mem_rowsOfCourse_iff {db : Sql.Db} {courseId : Int32} {r : Sql.Row} :
    r ∈ rowsOfCourse db courseId ↔
      r ∈ (db "modules").rows ∧ r "course_id" = some (Sql.keyText courseId) := by
  rw [rowsOfCourse, rowsWhere, List.mem_filter, Text.cString_toString, Sql.equals_some_iff]
  rfl

theorem identifier_courseId :
    Sql.IsIdentifier (getNthColumnName Module Module.courseIdColumn.n) := by
  decide

/-- The column is looked up in the table only if the statement is executed. -/
theorem courseId_mem_of_runs {db db' : Sql.Db} {courseId : Int32} {t : List (Call × PGresult)}
    {ms : List Module} (h : Runs postgres db (DAO.getModules courseId) t db' (.ok ms)) :
    "course_id" ∈ (db "modules").columns :=
  column_mem_of_runs (DAO.inCourse courseId) rfl identifier_courseId h

theorem getModules_yields {db : Sql.Db} (courseId : Int32)
    (h : "course_id" ∈ (db "modules").columns) :
    Yields postgres db (DAO.getModules courseId) db
      (getRows Module (.ofRows (db "modules").columns (rowsOfCourse db courseId))) :=
  getAllWhere_yields (DAO.inCourse courseId) rfl identifier_courseId h

/-- Selecting the modules of a course decodes every one of its rows. -/
theorem exists_getModules_yields {db : Sql.Db} (courseId : Int32)
    (hcolumns : HasColumns Module (db "modules")) (hkey : (db "modules").key = "id") :
    ∃ ms, Yields postgres db (DAO.getModules courseId) db (.ok ms) ∧
      List.Forall₂ (fun r m ↦ decodeRow Module r = .ok m) (rowsOfCourse db courseId) ms := by
  have hdecode : ∀ r ∈ rowsOfCourse db courseId, ∃ m, decodeRow Module r = .ok m := by
    intro r hr
    obtain ⟨hmem, hcourse⟩ := mem_rowsOfCourse_iff.mp hr
    obtain ⟨i, hid⟩ := (db "modules").keys r hmem
    rw [hkey] at hid
    exact ⟨_, decodeRow_module hid hcourse⟩
  obtain ⟨ms, hms⟩ := mapM_exists_ok hdecode
  have hyields := getModules_yields courseId
    (hcolumns _ (mem_accessors_of_mem_insertColumns courseIdAccessor_mem))
  rw [getRows_ofRows hcolumns, hms] at hyields
  exact ⟨ms, hyields, mapM_eq_ok_iff.mp hms⟩

/-! ## Created under a path -/

section Route

variable (parse : String → Except Error Json) (junk : List ℕ → Int32)

/-- `db₁` is `db` with modules added that refer to the course, and the course's handler lists each
of them. -/
def CreatedIn (courseId : Int32) (db db₁ : Sql.Db) : Prop :=
  ∃ rows, (db₁ "modules").rows = (db "modules").rows ++ rows ∧
    (∀ r ∈ rows, r "course_id" = some (Sql.keyText courseId)) ∧
    ∀ r ∈ rows, ∀ body, ∃ ms json, Json.toJsonVector ms = .ok json ∧
      Yields postgres db₁ (modulesRoute parse junk ⟨.GET, body⟩ courseId) db₁
        (.ok ⟨200, some json⟩) ∧
      ∃ m ∈ ms, decodeRow Module r = .ok m

theorem createdIn_iff_of_inserted {courseId : Int32} {db db₁ : Sql.Db} {ms : List Module}
    (h : Inserted db (ms.map inserted) db₁) :
    CreatedIn parse junk courseId db db₁ ↔ ∀ m ∈ ms, m.courseId = courseId := by
  have hrows := h.rows "modules"
  rw [rowsInto_map_inserted, if_pos (show Entity.entityName Module = "modules" from rfl)] at hrows
  have hiff : (∀ r ∈ ms.map fun m ↦ (inserted m).row, r "course_id" = some (Sql.keyText courseId)) ↔
      ∀ m ∈ ms, m.courseId = courseId := by
    rw [List.forall_mem_map]
    refine forall₂_congr fun m _ ↦ ?_
    rw [row_courseId]
    exact ⟨fun hm ↦ Sql.keyText_injective (Option.some.inj hm), fun hm ↦ by rw [hm]⟩
  rw [← hiff]
  constructor
  · rintro ⟨rows, hadded, hrefer, -⟩
    rwa [List.append_cancel_left (hrows.symm.trans hadded)]
  · intro hrefer
    refine ⟨_, hrows, hrefer, fun r hr body ↦ ?_⟩
    obtain ⟨m, hm, rfl⟩ := List.mem_map.mp hr
    have hfits := h.fits _ (List.mem_map_of_mem hm)
    have hcolumns : HasColumns Module (db₁ "modules") := by
      rw [HasColumns, h.columns]
      exact hasColumns_of_fits hfits
    have hkey : (db₁ "modules").key = "id" := (h.key _).trans hfits.returns_key.symm
    obtain ⟨listed, hyields, hdecode⟩ := exists_getModules_yields courseId hcolumns hkey
    refine ⟨listed, _, Json.toJsonVector_eq listed, ?_, ?_⟩
    -- the handler adds nothing to the selection but the encoding
    · have hget := hyields.bind_ofExcept fun v : List Module ↦
        (Json.toJsonVector v).map fun json ↦ Response.mk 200 (some json)
      rw [Except.bind, Json.toJsonVector_eq] at hget
      simp only [modulesRoute, jsonResponse_eq]
      exact hget
    · refine exists_mem_of_forall₂ hdecode (mem_rowsOfCourse_iff.mpr ⟨?_, hrefer _ hr⟩)
      rw [hrows]
      exact List.mem_append_right _ hr

/-- **What is created under a course's path is listed under it exactly when every document names
that course.** -/
theorem modulesRoute_post_createdIn_iff {courseId : Int32} {body : String} {data : Json}
    {db db' : Sql.Db} {t : List (Call × PGresult)} {b : Option Json}
    (hparse : parse body = .ok data)
    (hrun : Runs postgres db (modulesRoute parse junk ⟨.POST, body⟩ courseId) t db'
      (.ok ⟨201, b⟩)) :
    CreatedIn parse junk courseId db db' ↔ ∀ d ∈ documents data, RefersTo courseId d := by
  rw [modulesRoute_post, deserializeEntitiesFromText, hparse] at hrun
  rcases runs_createAndRespond_iff.mp hrun with ⟨e, -, -, -, he⟩ | ⟨ms, y, hms, hcreate, hy⟩
  · exact absurd he (by simp)
  cases y with
  | error e => exact absurd hy (by simp [Except.bind])
  | ok ms' =>
    obtain ⟨-, hR, hinserted⟩ := creates_modules.of_runs hcreate
    rw [createdIn_iff_of_inserted parse junk hinserted, refersTo_iff_of_deserialize hms]
    refine (forall_mem_iff_of_forall₂ (fun m m' hm ↦ ?_) hR).symm
    rw [hm]
    rfl

end Route

/-- A module that names course `3`. -/
def parseModule (_ : String) : Except Error Json :=
  .ok (.array [.object [("title", .string "Groups"), ("course_id", .numberUnsigned 3),
    ("description", .string "")]])

/-- Posting it to a course. -/
theorem runs_parseModule (courseId : Int32) :
    ∃ t db', Runs postgres campus (modulesRoute parseModule (fun _ ↦ 0) ⟨.POST, ""⟩ courseId) t db'
        (.ok (response 201)) ∧
      Inserted campus ([⟨5, 3, "Groups", some ""⟩].map (inserted (E := Module))) db' := by
  have hdecode : deserializeEntitiesFromText Module parseModule (fun _ ↦ 0) "" true
      = .ok [⟨0, 3, "Groups", some ""⟩] := by decide
  have hR : List.Forall₂ Renumbered [(⟨0, 3, "Groups", some ""⟩ : Module)]
      [⟨5, 3, "Groups", some ""⟩] := .cons rfl .nil
  have hchain := chain_of_admits (show Admits campus
    ([⟨5, 3, "Groups", some ""⟩].map (inserted (E := Module))) by decide)
  have hrun := runs_createAndRespond_of_ok ⟨creates_modules.runs hR, hchain⟩
    fun _ ↦ .ok (response 201)
  rw [← hdecode, ← modulesRoute_post _ _ _ courseId] at hrun
  exact ⟨_, _, hrun, inserted_of_chain hchain⟩

theorem modulesRoute_post_createdIn_three :
    ∃ db', CreatedIn parseModule (fun _ ↦ 0) 3 campus db' := by
  obtain ⟨t, db', hrun, -⟩ := runs_parseModule 3
  refine ⟨db', (modulesRoute_post_createdIn_iff parseModule (fun _ ↦ 0) rfl hrun).mpr ?_⟩
  rw [documents, List.forall_mem_singleton]
  exact rfl

/-- Posted to course `7`, it is answered with success and ends up in course `3`. -/
theorem modulesRoute_post_elsewhere :
    ∃ t db', Runs postgres campus (modulesRoute parseModule (fun _ ↦ 0) ⟨.POST, ""⟩ 7) t db'
        (.ok (response 201)) ∧ ¬CreatedIn parseModule (fun _ ↦ 0) 7 campus db' := by
  obtain ⟨t, db', hrun, hinserted⟩ := runs_parseModule 7
  refine ⟨t, db', hrun, fun hcreated ↦ ?_⟩
  have hrefer := (createdIn_iff_of_inserted parseModule (fun _ ↦ 0) hinserted).mp hcreated
  exact absurd (hrefer _ List.mem_cons_self) (by decide)

end Sphinx.Backend
