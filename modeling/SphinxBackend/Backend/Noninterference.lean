import SphinxBackend.Backend.Concurrency
import SphinxBackend.Backend.Outcomes

/-!
# The ids of new entities do not matter

A decoded entity has an id that nobody has set. Between decoding and the answer to its insertion
the entity carries that id along, and its modules carry theirs. Creation never looks at them: the
values to insert leave the id out, and the returned one is stored before anything else is done. So
the program that creates is the same program whatever the ids were, and has the same runs. In each
of them the ids that are sent and those in the response are ids that the server has returned.
-/

namespace Sphinx.Backend

open Db Nlohmann Interaction Program Collections

/-! ## The same program -/

theorem insert_congr {E : Type} [Entity E] {e e' : E} (h : SameColumns e e') :
    insert e' = insert e := by
  rw [insert_eq, insert_eq, h.call_eq]

namespace Model

theorem Module.eq_of_sameColumns {m m' : Module} (h : SameColumns m m') :
    m' = { m with id := m'.id } := by
  have hcolumns : getInsertColumns Module = Module.accessors.tail := rfl
  rw [SameColumns, hcolumns, Module.accessors, List.tail_cons] at h
  simp only [List.forall_mem_cons] at h
  obtain ⟨hcourse, htitle, hdescription, -⟩ := h
  obtain ⟨i, courseId, title, description⟩ := m
  obtain ⟨i', courseId', title', description'⟩ := m'
  obtain rfl : courseId' = courseId := hcourse
  obtain rfl : title' = title := htitle
  obtain rfl : description' = description := hdescription
  rfl

theorem Course.eq_of_sameColumns {c c' : Course} (h : SameColumns c c') :
    c' = { c with id := c'.id, modules := c'.modules } := by
  have hcolumns : getInsertColumns Course = Course.accessors.tail := rfl
  rw [SameColumns, hcolumns, Course.accessors, List.tail_cons] at h
  simp only [List.forall_mem_cons] at h
  obtain ⟨htitle, hdescription, howner, -⟩ := h
  obtain ⟨i, title, description, ownerId, modules⟩ := c
  obtain ⟨i', title', description', ownerId', modules'⟩ := c'
  obtain rfl : title' = title := htitle
  obtain rfl : description' = description := hdescription
  obtain rfl : ownerId' = ownerId := howner
  rfl

/-- The id of a module is replaced before anything is done with it. -/
theorem createOne_module_congr {m m' : Module} (h : SameColumns m m') :
    createOne m' = createOne m := by
  have hone (m : Module) : createOne m = insert m >>= fun i ↦ .pure { m with id := i } := rfl
  rw [hone, hone, insert_congr h, Module.eq_of_sameColumns h]

/-- The modules of a course are linked to it first, which leaves them the same but for their ids. -/
theorem sameColumns_link {ms ms' : List Module} (h : List.Forall₂ SameColumns ms ms') (i : Int32) :
    List.Forall₂ SameColumns (ms.map fun m ↦ { m with courseId := i })
      (ms'.map fun m ↦ { m with courseId := i }) := by
  rw [List.forall₂_map_left_iff, List.forall₂_map_right_iff]
  refine h.imp fun m m' hm ↦ ?_
  rw [Module.eq_of_sameColumns hm]
  exact sameColumns_setId { m with courseId := i } m'.id

theorem createOne_course_congr {c c' : Course} (h : c.SameButIds c') :
    createOne c' = createOne c := by
  have hmodules := h.modules
  have hcolumns := Course.eq_of_sameColumns h.columns
  rw [createOne_course, createOne_course, insert_congr h.columns]
  refine congrArg _ (funext fun i ↦ ?_)
  obtain ⟨id, title, description, ownerId, modules⟩ := c
  obtain ⟨id', title', description', ownerId', modules'⟩ := c'
  obtain ⟨-, rfl, rfl, rfl, -⟩ := Course.mk.inj hcolumns
  cases hmodules with
  | none => rfl
  | @some ms ms' hms =>
    change (createEntities (ms'.map fun m ↦ { m with courseId := i }) >>= _)
      = createEntities (ms.map fun m ↦ { m with courseId := i }) >>= _
    rw [createEntities_congr (fun _ _ ↦ createOne_module_congr) (sameColumns_link hms i)]

theorem createEntities_courses_congr {cs cs' : List Course}
    (h : List.Forall₂ Course.SameButIds cs cs') : createEntities cs' = createEntities cs :=
  createEntities_congr (fun _ _ ↦ createOne_course_congr) h

end Model

/-! ## The ids of a run -/

/-- An insertion of the run was accepted with this id. -/
def Returned (t : List (Call × PGresult)) (i : Int32) : Prop :=
  ∃ x : Insertion, x.event ∈ t ∧ x.id = i

/-- The parameter of a module's insertion that is bound to `course_id`. -/
def courseIdParam (c : Call) : Option (Option CharPtr) :=
  (((getInsertColumns Model.Module).map (·.name)).zip c.paramValues).lookup "course_id"

/-- Every id that is sent as a reference, and every id in the response, is one that was returned. -/
structure IdsReturned (t : List (Call × PGresult)) (x : Except Error Response) : Prop where
  references : ∀ y ∈ t, y.1.query = prepareInsertQuery Model.Module →
    ∃ i, courseIdParam y.1 = some (some ⟨Sql.keyText i⟩) ∧ Returned t i
  response : ∀ r json, x = .ok r → r.body = some json → ∀ d ∈ documents json,
    ∀ id, d.member "id" = some id → ∃ i : Int32, id = .numberInteger i.toInt64 ∧ Returned t i

theorem courseIdParam_inserted (m : Model.Module) :
    courseIdParam (inserted m).call = some (some ⟨Sql.keyText m.courseId⟩) := by
  rw [call_inserted]
  rfl

/-- What the handler does with the courses it has decoded. -/
def respondCreated (courses : List Model.Course) : DbProgram Response :=
  createEntities courses >>= fun courses ↦ jsonResponse 201 (Json.toJsonVector courses)

theorem coursesRoute_post_of_ok {parse : String → Except Error Json} {junk : List ℕ → Int32}
    {body : String} {cs : List Model.Course}
    (h : deserializeEntitiesFromText Model.Course parse junk body true = .ok cs) :
    coursesRoute parse junk ⟨.POST, body⟩ = respondCreated cs := by
  rw [coursesRoute, h]
  rfl

/-- Of the two insertions in a walk, only a module's has its query. -/
theorem table_of_query {cs : List Model.Course} {x : Insertion}
    (hx : x ∈ cs.flatMap Model.Course.walk)
    (hquery : x.call.query = prepareInsertQuery Model.Module) : x.table = "modules" := by
  obtain ⟨c, -, hwalk⟩ := List.mem_flatMap.mp hx
  rcases List.mem_cons.mp hwalk with rfl | hmodule
  · rw [call_inserted] at hquery
    exact absurd hquery (show prepareInsertQuery Model.Course ≠ prepareInsertQuery Model.Module by
      decide)
  · obtain ⟨m, -, rfl⟩ := List.mem_map.mp hmodule
    rfl

/-- The documents of a list of entities have the ids of the entities. -/
theorem exists_id_of_mem_documents {cs : List Model.Course} {json : Json}
    (hjson : Json.toJsonVector cs = .ok json) {d : Json} (hd : d ∈ documents json) {id : Json}
    (hid : d.member "id" = some id) : ∃ c ∈ cs, id = .numberInteger c.id.toInt64 := by
  rw [Json.toJsonVector_eq] at hjson
  obtain rfl := Except.ok.inj hjson
  by_cases hnil : cs = []
  · rw [if_pos hnil] at hd
    obtain rfl := List.mem_singleton.mp hd
    exact absurd hid (by simp [Json.member])
  · rw [if_neg hnil] at hd
    obtain ⟨c, hc, rfl⟩ := List.mem_map.mp hd
    have hmember := Json.member_document c idAccessor_mem
    exact ⟨c, hc, Option.some.inj (hid.symm.trans hmember)⟩

/-- In every run, whether it succeeds or not. -/
theorem idsReturned_of_runs {cs : List Model.Course} {db db' : Sql.Db}
    {t : List (Call × PGresult)} {x : Except Error Response}
    (h : Runs postgres db (respondCreated cs) t db' x) : IdsReturned t x := by
  simp only [respondCreated, jsonResponse_eq] at h
  obtain ⟨y, hrun, rfl⟩ := runs_bind_ofExcept_iff.mp h
  obtain ⟨cs', hR, hcomplete, hwalk⟩ := Model.creates_courses.exists_walk_of_runs hrun
  constructor
  · intro z hz hquery
    obtain ⟨before, x, after, hx, hcall, hbefore⟩ := hwalk z hz
    rw [hcall] at hquery
    have hmem : x ∈ cs'.flatMap Model.Course.walk := by
      rw [hx]
      exact List.mem_append_right _ List.mem_cons_self
    -- the course was inserted before, and the module refers to it
    obtain ⟨c, hc, m, hm, rfl, hcourse⟩ :=
      Model.course_before_module hx (table_of_query hmem hquery)
    refine ⟨c.id, ?_, inserted c, hbefore _ hcourse, rfl⟩
    rw [hcall, courseIdParam_inserted, Model.courseId_of_relinked hR c hc m hm]
  · intro r json hr hbody d hd id hid
    cases y with
    | error e => exact absurd hr (by simp [Except.bind])
    | ok v =>
      obtain ⟨rfl, rfl⟩ := hcomplete v rfl
      rw [Except.bind] at hr
      obtain ⟨json', hjson, rfl⟩ := map_eq_ok_iff.mp hr
      obtain rfl := Option.some.inj hbody
      obtain ⟨c, hc, rfl⟩ := exists_id_of_mem_documents hjson hd hid
      refine ⟨c.id, rfl, inserted c, List.mem_map_of_mem ?_, rfl⟩
      exact List.mem_flatMap.mpr ⟨c, hc, List.mem_cons_self⟩

/-! ## The handler -/

/-- Documents are read alike by two decodings, whatever was in memory. -/
theorem sameButIds_of_deserialize {junk junk' : List ℕ → Int32} {data : Json}
    {cs cs' : List Model.Course} (h : deserializeEntities Model.Course junk data true = .ok cs)
    (h' : deserializeEntities Model.Course junk' data true = .ok cs') :
    List.Forall₂ Model.Course.SameButIds cs cs' := by
  have hread (d : Json) : Model.Course.ReadAlike d d := by
    refine ⟨fun a _ ↦ rfl, ?_⟩
    cases d.member "modules" with
    | none => exact .none
    | some v => exact .some (List.forall₂_same.mpr fun m _ a _ ↦ rfl)
  refine forall₂_of_two_deserializeEntities ?_
    (List.forall₂_same.mpr fun d _ ↦ hread d) h h'
  exact fun i d d' hd c c' ↦ Model.sameButIds_of_readAlike hd

theorem respondCreated_congr {cs cs' : List Model.Course}
    (h : List.Forall₂ Model.Course.SameButIds cs cs') : respondCreated cs' = respondCreated cs := by
  rw [respondCreated, respondCreated, Model.createEntities_courses_congr h]

/-- The handler does the same, whatever was in the memory of the new entities. -/
theorem coursesRoute_post_congr {parse : String → Except Error Json} {junk : List ℕ → Int32}
    {body : String} {cs : List Model.Course}
    (h : deserializeEntitiesFromText Model.Course parse junk body true = .ok cs)
    (junk' : List ℕ → Int32) :
    coursesRoute parse junk' ⟨.POST, body⟩ = coursesRoute parse junk ⟨.POST, body⟩ := by
  cases hparse : parse body with
  | error e =>
    rw [deserializeEntitiesFromText, hparse] at h
    cases h
  | ok data =>
    have htext (junk : List ℕ → Int32) :
        deserializeEntitiesFromText Model.Course parse junk body true
          = deserializeEntities Model.Course junk data true := by
      rw [deserializeEntitiesFromText, hparse]
      rfl
    rw [htext] at h
    -- what is in the memory does not decide whether the body is decoded
    have herror : errorOf (deserializeEntities Model.Course junk' data true) = none := by
      rw [errorOf_deserializeEntities (errorOf_course junk'),
        ← errorOf_deserializeEntities (errorOf_course junk), h]
      rfl
    obtain ⟨cs', h'⟩ := errorOf_eq_none_iff.mp herror
    rw [coursesRoute_post_of_ok ((htext junk').trans h'),
      coursesRoute_post_of_ok ((htext junk).trans h),
      respondCreated_congr (sameButIds_of_deserialize h h')]

/-- **What is in the ids of decoded courses and modules has no influence**: for any two assignments
of ids the same statements are sent, with the same parameters, to the same effect, and the response
is the same; and the ids in all of this are returned ones. -/
theorem coursesRoute_post_noninterference {parse : String → Except Error Json}
    {junk : List ℕ → Int32} {body : String} {cs cs₁ cs₂ : List Model.Course}
    (h : deserializeEntitiesFromText Model.Course parse junk body true = .ok cs)
    (h₁ : List.Forall₂ Model.Course.SameButIds cs cs₁)
    (h₂ : List.Forall₂ Model.Course.SameButIds cs cs₂) :
    coursesRoute parse junk ⟨.POST, body⟩ = respondCreated cs ∧
      (∀ junk', coursesRoute parse junk' ⟨.POST, body⟩ = coursesRoute parse junk ⟨.POST, body⟩) ∧
      (∀ db t db' x, Runs postgres db (respondCreated cs₁) t db' x ↔
        Runs postgres db (respondCreated cs₂) t db' x) ∧
      ∀ db t db' x, Runs postgres db (respondCreated cs₁) t db' x → IdsReturned t x := by
  refine ⟨coursesRoute_post_of_ok h, coursesRoute_post_congr h, fun db t db' x ↦ ?_,
    fun db t db' x ↦ idsReturned_of_runs⟩
  rw [respondCreated_congr h₁, respondCreated_congr h₂]

/-! ## One course -/

/-- A body with a course and a module in it. -/
def parseAlgebra (_ : String) : Except Error Json :=
  .ok (.array [.object [("title", .string "Algebra"), ("description", .string ""),
    ("owner_id", .numberUnsigned 1), ("modules", .array [.object [("course_id", .numberUnsigned 9),
      ("title", .string "Groups"), ("description", .string "1")]])]])

/-- The course with any ids. -/
def algebraWith (i j : Int32) : Model.Course :=
  ⟨i, "Algebra", some "", 1, some [⟨j, 9, "Groups", some "1"⟩]⟩

theorem algebraWith_sameButIds (i j : Int32) :
    List.Forall₂ Model.Course.SameButIds [Model.algebra] [algebraWith i j] := by
  refine .cons ⟨?_, .some (.cons ?_ .nil)⟩ .nil
  · exact Model.algebra.sameColumns i (some [⟨j, 9, "Groups", some "1"⟩])
  · exact sameColumns_setId (⟨0, 9, "Groups", some "1"⟩ : Model.Module) j

theorem runs_algebraWith (i j : Int32) : ∃ t db' r,
    Runs postgres campus (respondCreated [algebraWith i j]) t db' (.ok r) := by
  rw [respondCreated_congr (algebraWith_sameButIds i j)]
  have hrun := Model.runs_of_admits Model.algebra_relinked (show Admits campus _ by decide)
  simp only [respondCreated, jsonResponse_eq]
  exact ⟨_, _, _, runs_bind_ofExcept_iff.mpr ⟨_, hrun, rfl⟩⟩

theorem coursesRoute_post_noninterference_algebra : ∃ t db' r,
    Runs postgres campus (respondCreated [algebraWith (-7) 3]) t db' (.ok r) ∧
      Runs postgres campus (respondCreated [algebraWith 2147483647 3]) t db' (.ok r) ∧
      IdsReturned t (.ok r) := by
  have hdecode : deserializeEntitiesFromText Model.Course parseAlgebra (fun _ ↦ 0) "" true
      = .ok [Model.algebra] := by decide
  obtain ⟨t, db', r, hrun⟩ := runs_algebraWith (-7) 3
  obtain ⟨-, -, hsame, hids⟩ := coursesRoute_post_noninterference hdecode
    (algebraWith_sameButIds (-7) 3) (algebraWith_sameButIds 2147483647 3)
  exact ⟨t, db', r, hrun, (hsame _ _ _ _).mp hrun, hids _ _ _ _ hrun⟩

end Sphinx.Backend
