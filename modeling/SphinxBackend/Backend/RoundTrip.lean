import SphinxBackend.Backend.CourseModules

/-!
# What is encoded and what is decoded

The two directions of the JSON format, one after the other. A document of one entity decodes to the
entity but for the primary key. Two things are lost on the way.

The encoder of a vector starts from null, and a vector without elements leaves it at that. So an
empty list is not encoded as an array, and the decoder, which takes anything but an array for one
entity, cannot read it back. And the encoder visits the columns while the decoder visits the links
as well, so that the modules of a course are decoded but never encoded.
-/

namespace Sphinx.Backend

open Db Nlohmann Interaction Program Collections

/-! ## One document -/

section Document

variable {E : Type} [Creatable E]

/-- Documents of entities are decoded with every column but the primary key. -/
def DecodesDocuments (E : Type) [Creatable E] : Prop :=
  ∀ (junk : List ℕ → Int32) (sub : Bool) (i : ℕ) (e : E),
    ∃ e', deserializeEntity E junk sub i (Json.document e) = .ok e' ∧ SameColumns e e'

theorem exists_fromJson_document (junk : Int32) (e : E) :
    ∃ e', Json.fromJson junk (Json.document e) = .ok e' ∧ SameColumns e e' :=
  ⟨_, Json.fromJson_document junk e, Json.sameColumns_of_fromJson (Json.fromJson_document junk e)⟩

theorem decodesDocuments_leaf
    (h : ∀ junk data (e : E), Creatable.deserializeSubentities junk data e = .ok e) :
    DecodesDocuments E := by
  intro junk sub i e
  obtain ⟨e', hdecode, hsame⟩ := exists_fromJson_document (junk [i]) e
  refine ⟨e', ?_, hsame⟩
  rw [deserializeEntity, hdecode]
  cases sub with
  | false => rfl
  | true => exact h _ _ e'

/-- An encoded course has no modules, so none are decoded. -/
theorem deserializeEntity_course (junk : List ℕ → Int32) (i : ℕ) (c : Model.Course) :
    ∃ c', deserializeEntity Model.Course junk true i (Json.document c) = .ok c' ∧
      SameColumns c c' ∧ c'.modules = none := by
  obtain ⟨c', hdecode, hsame⟩ := exists_fromJson_document (junk [i]) c
  have hmodules : (Json.document c).member "modules" = none :=
    Json.member_document_of_ne c (by decide)
  refine ⟨{ c' with modules := none }, ?_, hsame.trans (c'.sameColumns c'.id none), rfl⟩
  rw [deserializeEntity, if_pos rfl, hdecode]
  change Model.Course.modulesLink.deserializeSubentities (fun path ↦ junk (i :: path))
    (Json.document c) c' = _
  rw [deserializeSubentities_course, hmodules]

theorem decodesDocuments_course : DecodesDocuments Model.Course := by
  intro junk sub i c
  cases sub with
  | false => exact exists_fromJson_document (junk [i]) c
  | true =>
    obtain ⟨c', hdecode, hsame, -⟩ := deserializeEntity_course junk i c
    exact ⟨c', hdecode, hsame⟩

end Document

/-! ## Lists -/

section Lists

variable {E : Type} [Creatable E]

/-- A vector is encoded as the array of its elements, and decoded from it in the same order with
every column but the primary key. -/
structure ListFormat (v : List E) : Prop where
  encoded : ∃ elements, Json.toJsonVector v = .ok (.array elements) ∧
    List.Forall₂ (fun e d ↦ Json.toJson e = .ok d) v elements
  decoded : ∀ junk sub json, Json.toJsonVector v = .ok json →
    ∃ v', deserializeEntities E junk json sub = .ok v' ∧ List.Forall₂ SameColumns v v'

theorem not_array_nil (elements : List Json) :
    Json.toJsonVector ([] : List E) ≠ .ok (.array elements) := by
  rw [Json.toJsonVector_eq, if_pos rfl]
  simp

theorem exists_deserializeEntities (h : DecodesDocuments E) (junk : List ℕ → Int32) (sub : Bool)
    (v : List E) : ∃ v', deserializeEntities E junk (.array (v.map Json.document)) sub = .ok v' ∧
      List.Forall₂ SameColumns v v' := by
  have hone (d : Json × ℕ) (hd : d ∈ (v.map Json.document).zipIdx) :
      ∃ e', deserializeEntity E junk sub d.2 d.1 = .ok e' := by
    obtain ⟨e, -, he⟩ := List.mem_map.mp (List.fst_mem_of_mem_zipIdx hd)
    obtain ⟨e', hdecode, -⟩ := h junk sub d.2 e
    exact ⟨e', by rw [← he]; exact hdecode⟩
  obtain ⟨v', hv'⟩ := mapM_exists_ok hone
  have hlist : deserializeEntities E junk (.array (v.map Json.document)) sub = .ok v' := hv'
  refine ⟨v', hlist, ?_⟩
  have hdocuments := forall₂_of_deserializeEntities hlist
  rw [documents, List.forall₂_map_left_iff] at hdocuments
  refine hdocuments.imp fun e e' hdocument ↦ ?_
  obtain ⟨i, he'⟩ := hdocument
  obtain ⟨e'', hdecode, hsame⟩ := h junk sub i e
  rw [hdecode] at he'
  rwa [← Except.ok.inj he']

theorem listFormat_iff (h : DecodesDocuments E) (v : List E) : ListFormat v ↔ v ≠ [] := by
  constructor
  · rintro ⟨⟨elements, hencoded, -⟩, -⟩ rfl
    exact not_array_nil elements hencoded
  · intro hne
    have hencode : Json.toJsonVector v = .ok (.array (v.map Json.document)) := by
      rw [Json.toJsonVector_eq, if_neg hne]
    refine ⟨⟨_, hencode, ?_⟩, fun junk sub json hjson ↦ ?_⟩
    · rw [List.forall₂_map_right_iff, List.forall₂_same]
      exact fun e _ ↦ Json.toJson_eq e
    · rw [hencode] at hjson
      rw [← Except.ok.inj hjson]
      exact exists_deserializeEntities h junk sub v

end Lists

/-! ## The handlers that list -/

inductive ListHandler where
  | users
  | courses
  | modules (courseId : Int32)

section Get

variable (parse : String → Except Error Json) (junk : List ℕ → Int32)

def ListHandler.run (body : String) : ListHandler → DbProgram Response
  | users => usersRoute parse junk ⟨.GET, body⟩
  | courses => coursesRoute parse junk ⟨.GET, body⟩
  | modules courseId => modulesRoute parse junk ⟨.GET, body⟩ courseId

/-- The rows of the entities it lists. -/
def ListHandler.rows (db : Sql.Db) : ListHandler → List Sql.Row
  | users => (db "users").rows
  | courses => (db "courses").rows
  | modules courseId => rowsOfCourse db courseId

/-- The body lists what was read, as an array if that is anything. -/
theorem body_isArray_iff {E : Type} [Entity E] {p : DbProgram (List E)} {code : ℕ}
    {db db' : Sql.Db} {t : List (Call × PGresult)} {r : Response}
    (h : Runs postgres db (p >>= fun v ↦ jsonResponse code (Json.toJsonVector v)) t db' (.ok r)) :
    ∃ v, Runs postgres db p t db' (.ok v) ∧
      ((∃ elements, r.body = some (.array elements)) ↔ v ≠ []) := by
  simp only [jsonResponse_eq] at h
  obtain ⟨y, hrun, hy⟩ := runs_bind_ofExcept_iff.mp h
  cases y with
  | error e => exact absurd hy (by simp [Except.bind])
  | ok v =>
    refine ⟨v, hrun, ?_⟩
    rw [Except.bind, Json.toJsonVector_eq] at hy
    rw [Except.ok.inj hy]
    by_cases hv : v = []
    · simp [hv]
    · simp [hv]

theorem length_of_getAll {E : Type} [Entity E] {db db' : Sql.Db} {t : List (Call × PGresult)}
    {v : List E} (h : Runs postgres db (getAll E) t db' (.ok v)) :
    v.length = (db (Entity.entityName E)).rows.length := by
  obtain ⟨-, hv⟩ := (getAll_yields db).2 _ _ _ h
  exact length_of_getRows hv.symm

theorem length_of_getModules {courseId : Int32} {db db' : Sql.Db} {t : List (Call × PGresult)}
    {v : List Model.Module} (h : Runs postgres db (DAO.getModules courseId) t db' (.ok v)) :
    v.length = (rowsOfCourse db courseId).length := by
  obtain ⟨-, hv⟩ := (getModules_yields courseId (courseId_mem_of_runs h)).2 _ _ _ h
  exact length_of_getRows hv.symm

theorem ne_nil_iff_of_length_eq {α β : Type} {v : List α} {w : List β} (h : v.length = w.length) :
    v ≠ [] ↔ w ≠ [] := by
  rw [← List.length_pos_iff, h, List.length_pos_iff]

/-- A list is served as an array exactly when the table has something to list. -/
theorem listHandler_isArray_iff {h : ListHandler} {body : String} {db db' : Sql.Db}
    {t : List (Call × PGresult)} {r : Response}
    (hrun : Runs postgres db (h.run parse junk body) t db' (.ok r)) :
    (∃ elements, r.body = some (.array elements)) ↔ h.rows db ≠ [] := by
  cases h with
  | users =>
    obtain ⟨v, hv, hiff⟩ := body_isArray_iff hrun
    exact hiff.trans (ne_nil_iff_of_length_eq (length_of_getAll hv))
  | courses =>
    obtain ⟨v, hv, hiff⟩ := body_isArray_iff hrun
    exact hiff.trans (ne_nil_iff_of_length_eq (length_of_getAll hv))
  | modules courseId =>
    obtain ⟨v, hv, hiff⟩ := body_isArray_iff hrun
    exact hiff.trans (ne_nil_iff_of_length_eq (length_of_getModules hv))

/-- **Lists are encoded as arrays and read back, unless they are empty.** -/
theorem toJsonVector_listFormat_iff :
    (∀ v : List Model.User, ListFormat v ↔ v ≠ []) ∧
      (∀ v : List Model.Course, ListFormat v ↔ v ≠ []) ∧
      (∀ v : List Model.Module, ListFormat v ↔ v ≠ []) ∧
      ∀ (h : ListHandler) (body : String) (db db' : Sql.Db) (t : List (Call × PGresult))
        (r : Response), Runs postgres db (h.run parse junk body) t db' (.ok r) →
        ((∃ elements, r.body = some (.array elements)) ↔ h.rows db ≠ []) :=
  ⟨listFormat_iff (decodesDocuments_leaf fun _ _ _ ↦ rfl), listFormat_iff decodesDocuments_course,
    listFormat_iff (decodesDocuments_leaf fun _ _ _ ↦ rfl), fun _ _ _ _ _ _ hrun ↦
      listHandler_isArray_iff parse junk hrun⟩

/-- No users are encoded as null. -/
theorem toJsonVector_nil_not_array :
    ¬∀ v : List Model.User, ∃ elements, Json.toJsonVector v = .ok (.array elements) := fun h ↦ by
  obtain ⟨elements, helements⟩ := h []
  exact not_array_nil elements helements

end Get

/-! ## Courses and their modules -/

/-- The course is read back from its document, with its modules. -/
def RoundTrips (c : Model.Course) : Prop :=
  ∀ junk data, Json.toJson c = .ok data → ∃ c',
    deserializeEntities Model.Course junk data true = .ok [c'] ∧ SameColumns c c' ∧
      Option.Rel (List.Forall₂ SameColumns) c.modules c'.modules

theorem deserializeEntities_course (junk : List ℕ → Int32) (c : Model.Course) :
    ∃ c', deserializeEntities Model.Course junk (Json.document c) true = .ok [c'] ∧
      SameColumns c c' ∧ c'.modules = none := by
  obtain ⟨c', hdecode, hsame, hmodules⟩ := deserializeEntity_course junk 0 c
  refine ⟨c', ?_, hsame, hmodules⟩
  change (deserializeEntity Model.Course junk true 0 (Json.document c)).map _ = _
  rw [hdecode]
  rfl

theorem modules_of_roundTrips {c : Model.Course} (h : RoundTrips c) : c.modules = none := by
  obtain ⟨c', hdecode, -, hmodules⟩ := h (fun _ ↦ 0) _ (Json.toJson_eq c)
  obtain ⟨c'', hdecode', -, hnone⟩ := deserializeEntities_course (fun _ ↦ 0) c
  rw [hdecode] at hdecode'
  obtain rfl : c' = c'' := by simpa using hdecode'
  rw [hnone] at hmodules
  cases hlink : c.modules with
  | none => rfl
  | some ms => rw [hlink] at hmodules; cases hmodules

/-- **A course is read back with its modules exactly when it has no link to any.** -/
theorem roundTrips_iff (c : Model.Course) : RoundTrips c ↔ c.modules = none := by
  refine ⟨modules_of_roundTrips, fun hnone junk data hdata ↦ ?_⟩
  obtain ⟨c', hdecode, hsame, hmodules⟩ := deserializeEntities_course junk c
  rw [Json.toJson_eq] at hdata
  rw [← Except.ok.inj hdata]
  refine ⟨c', hdecode, hsame, ?_⟩
  rw [hnone, hmodules]
  exact .none

/-- A course with a module. -/
theorem not_roundTrips : ¬RoundTrips ⟨1, "Algebra", none, 1, some [⟨4, 1, "Groups", none⟩]⟩ :=
  fun h ↦ absurd (modules_of_roundTrips h) (by simp)

end Sphinx.Backend
