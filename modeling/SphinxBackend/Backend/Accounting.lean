import SphinxBackend.Backend.Concurrency
import SphinxBackend.Backend.Refinement

/-!
# Who has added what

The rows of the tables, one by one. A request either asks, and then all it ever sends leaves the
tables alone, or it creates, and then all it sends are insertions. So what the tables have gained in
a run are the rows of the insertions that were carried out along its log, and every row that was not
there at first belongs to one request (`Additions`).

The answers may be lost. A request that is not told of its row has added it all the same, and has
stopped there.
-/

namespace Sphinx.Backend

open Db Nlohmann Interaction Program Collections Model

/-! ## Questions leave the tables alone -/

/-- The call is that of a question. -/
def IsQuestion (c : Call) : Prop := ∃ q, c = Catalogue.send (.ask q)

theorem isSelection_of_question {c : Call} (hc : IsQuestion c) : IsSelection c := by
  have hid : Sql.IsIdentifier "id" := by decide
  obtain ⟨q, rfl⟩ := hc
  cases q with
  | users =>
    exact ⟨.selectAll (Entity.entityName User), Entity.entityName_identifier, rfl, by simp⟩
  | courses =>
    exact ⟨.selectAll (Entity.entityName Course), Entity.entityName_identifier, rfl, by simp⟩
  | usersNamed name =>
    have hname : Sql.IsIdentifier "username" := by decide
    exact ⟨_, Sql.Statement.wellFormed_selectWhere_iff.mpr ⟨Entity.entityName_identifier, hname⟩,
      getAllWhereText_eq (Catalogue.named name), by simp⟩
  | modulesOf courseId =>
    have hname : Sql.IsIdentifier "course_id" := by decide
    exact ⟨_, Sql.Statement.wellFormed_selectWhere_iff.mpr ⟨Entity.entityName_identifier, hname⟩,
      getAllWhereText_eq (DAO.inCourse courseId), by simp⟩
  | user id =>
    exact ⟨_, Sql.Statement.wellFormed_selectWhere_iff.mpr ⟨Entity.entityName_identifier, hid⟩,
      findByIdQuery_eq id, by simp⟩
  | userExists id =>
    refine ⟨_, ?_, existsQuery_eq id, by simp⟩
    exact ⟨Entity.entityName_identifier, hid⟩

/-! ## Requests that ask -/

section Serve

variable (notImplementedYet : Error) (parse : String → Except Error Json) (junk : List ℕ → Int32)

/-- A question is one call, and the reply follows from what the catalogue answers. -/
theorem exists_question (body : String) {route : Route} (hroute : route ≠ .test) :
    ∃ (q : Catalogue.Query) (f : Except Error Catalogue.Answer → Except Error Response),
      serve notImplementedYet parse junk route ⟨.GET, body⟩
        = .call (Catalogue.send (.ask q)) (fun res ↦ ofExcept (f (Catalogue.read (.ask q) res))) ∧
      (∀ k : Catalogue, f (.ok (k.answer q)) = k.reply route) ∧ ∀ e, f (.error e) = .error e := by
  obtain ⟨q, f, hasks, hreply⟩ := Catalogue.asks_serve notImplementedYet parse junk hroute body
  refine ⟨q, f, ?_, hreply⟩
  rw [Catalogue.serve_eq_via, hasks, via_call]
  exact congrArg (Program.call _) (funext fun res ↦ via_ofExcept _ _)

/-- A request that does not create is a question, or ends without a call. -/
theorem serve_of_not_post {route : Route} {req : Request} (hpost : postHandler route req = none) :
    (∃ (q : Catalogue.Query) (f : PGresult → Except Error Response),
        (req.method = .GET ∧ route ≠ .test) ∧ serve notImplementedYet parse junk route req
          = .call (Catalogue.send (.ask q)) fun res ↦ ofExcept (f res)) ∨
      ∃ x, ¬(req.method = .GET ∧ route ≠ .test) ∧
        serve notImplementedYet parse junk route req = ofExcept x := by
  obtain ⟨method, body⟩ := req
  by_cases hask : method = .GET ∧ route ≠ .test
  · obtain ⟨rfl, hroute⟩ := hask
    obtain ⟨q, f, hserve, -, -⟩ := exists_question notImplementedYet parse junk body hroute
    exact .inl ⟨q, _, ⟨rfl, hroute⟩, hserve⟩
  · have hended : ∃ x, serve notImplementedYet parse junk route ⟨method, body⟩ = ofExcept x := by
      cases route with
      | test => cases method <;> exact ⟨.ok _, rfl⟩
      | users | courses | modules courseId =>
        cases method with
        | GET => exact absurd ⟨rfl, by simp⟩ hask
        | POST => exact absurd hpost (by simp [postHandler])
        | PUT => exact ⟨.ok _, rfl⟩
      | user userId =>
        cases method with
        | GET => exact absurd ⟨rfl, by simp⟩ hask
        | POST => exact ⟨.ok _, rfl⟩
        | PUT => exact ⟨.error notImplementedYet, rfl⟩
      | _ =>
        cases method with
        | GET => exact absurd ⟨rfl, by simp⟩ hask
        | _ => exact ⟨.ok _, rfl⟩
    exact .inr (hended.imp fun _ h ↦ ⟨hask, h⟩)

/-- A request that does not create only asks. -/
theorem sends_serve_of_not_post {route : Route} {req : Request}
    (hpost : postHandler route req = none) :
    Sends IsQuestion (serve notImplementedYet parse junk route req) := by
  rcases serve_of_not_post notImplementedYet parse junk hpost with
    ⟨q, f, -, hserve⟩ | ⟨x, -, hserve⟩
  · rw [hserve]
    exact .call ⟨q, rfl⟩ fun res ↦ .ofExcept _
  · rw [hserve]
    exact .ofExcept x

/-! ## Requests that create -/

/-- Creation and a response to it. -/
abbrev createThen {E : Type} [Creatable E] (entities : Except Error (List E))
    (respond : List E → Response) : DbProgram Response :=
  createAndRespond entities fun es ↦ .ok (respond es)

theorem sends_createThen {E : Type} [Creatable E] {walk : List E → List Insertion}
    {R : List E → List E → Prop} (hcreates : Creates createEntities walk R)
    (entities : Except Error (List E)) (respond : List E → Response) :
    Sends IsInsertion (createThen entities respond) :=
  (Sends.ofExcept entities).bind fun es ↦ (hcreates.sends es).bind fun _ ↦ .pure _

/-- What was sent, all of it accepted, is the beginning of a complete creation. -/
theorem exists_walk_of_follows {E : Type} [Creatable E] {walk : List E → List Insertion}
    {R : List E → List E → Prop} (hcreates : Creates createEntities walk R)
    {entities : Except Error (List E)} {respond : List E → Response}
    {own : List Insertion} {q : DbProgram Response}
    (hf : Follows (createThen entities respond) (own.map Insertion.event) q) :
    (∃ e, entities = .error e ∧ own = [] ∧ q = .throw e) ∨
      ∃ es es' rest, entities = .ok es ∧ R es es' ∧ walk es' = own ++ rest ∧
        (∀ e, q ≠ .throw e) ∧ ∀ r, q = .pure r → rest = [] ∧ r = respond es' := by
  cases entities with
  | error e =>
    obtain ⟨hown, hq⟩ := follows_throw_iff.mp hf
    exact .inl ⟨e, rfl, List.map_eq_nil_iff.mp hown, hq⟩
  | ok es =>
    change Follows (createEntities es >>= fun es ↦ .pure (respond es)) _ q at hf
    have hreliable : Reliable IsReturned
        (createEntities es >>= fun es ↦ (.pure (respond es) : DbProgram Response)) :=
      (hcreates.reliable es).bind fun _ ↦ .pure _
    -- with more answers of that kind it would return
    obtain ⟨u, r, hu, hq⟩ := hreliable.complete ⟨0, rfl⟩ hf isReturned_of_mem_events
    obtain ⟨es', hcreate, rfl⟩ := (hf.append hq).of_bind_pure
    obtain ⟨hwalk, hR⟩ := hcreates.follows hcreate fun y hy ↦ by
      rcases List.mem_append.mp hy with hy | hy
      · exact isReturned_of_mem_events y hy
      · exact hu y hy
    obtain ⟨own', rest, hsplit, hown, hrest⟩ := List.map_eq_append_iff.mp hwalk.symm
    obtain rfl := List.map_injective_iff.mpr Insertion.event_injective hown
    refine .inr ⟨es, es', rest, rfl, hR, hsplit, fun e he ↦ ?_, fun r' hr' ↦ ?_⟩
    · rw [he, follows_throw_iff] at hq
      exact absurd hq.2 (by simp)
    · rw [hr', follows_pure_iff] at hq
      rw [hq.1] at hrest
      exact ⟨List.map_eq_nil_iff.mp hrest, (Program.pure.inj hq.2).symm⟩

/-- A request that creates has so far added `own`, and `left` is what it has still to do. -/
structure AddedFor (h : PostHandler) (body : String) (own : List Insertion)
    (left : DbProgram Response) : Prop where
  /-- It has made the first of the insertions that its body takes. -/
  begins : own = [] ∨ ∃ planned, h.Plans parse junk body planned ∧ own <+: planned
  /-- When it has been told of success, it has made all of them. -/
  complete : ∀ r, left = .pure r → h.Plans parse junk body own

variable {parse junk}

theorem addedFor_of_walk {E : Type} [Creatable E] {walk : List E → List Insertion}
    {R : List E → List E → Prop} (hcreates : Creates createEntities walk R)
    {entities : Except Error (List E)} {respond : List E → Response} {own : List Insertion}
    {q : DbProgram Response} {h : PostHandler} {body : String}
    (hplans : ∀ es es', entities = .ok es → R es es' → h.Plans parse junk body (walk es'))
    (hf : Follows (createThen entities respond) (own.map Insertion.event) q) :
    AddedFor parse junk h body own q := by
  rcases exists_walk_of_follows hcreates hf with
    ⟨e, -, rfl, rfl⟩ | ⟨es, es', rest, hes, hR, hwalk, -, hq⟩
  · exact ⟨.inl rfl, fun r hr ↦ absurd hr (by simp)⟩
  · have hplanned := hplans es es' hes hR
    rw [hwalk] at hplanned
    refine ⟨.inr ⟨_, hplanned, List.prefix_append _ _⟩, fun r hr ↦ ?_⟩
    rwa [(hq r hr).1, List.append_nil] at hplanned

theorem run_courses (body : String) : PostHandler.courses.run parse junk body
    = createThen (deserializeEntitiesFromText Course parse junk body true)
        fun cs ↦ ⟨201, some (Catalogue.page cs)⟩ := by
  refine (coursesRoute_post parse junk body).trans ?_
  refine congrArg (createAndRespond _) (funext fun cs ↦ ?_)
  rw [Json.toJsonVector_eq]
  rfl

theorem sends_run (h : PostHandler) (body : String) :
    Sends IsInsertion (h.run parse junk body) := by
  cases h with
  | users =>
    rw [PostHandler.run, usersRoute_post]
    exact sends_createThen creates_users _ _
  | courses =>
    rw [run_courses]
    exact sends_createThen creates_courses _ _
  | modules courseId =>
    rw [PostHandler.run, modulesRoute_post]
    exact sends_createThen creates_modules _ _

/-- As long as everything is accepted. -/
theorem addedFor_of_follows {h : PostHandler} {body : String} {own : List Insertion}
    {q : DbProgram Response}
    (hf : Follows (h.run parse junk body) (own.map Insertion.event) q) :
    AddedFor parse junk h body own q := by
  cases h with
  | users =>
    rw [PostHandler.run, usersRoute_post] at hf
    exact addedFor_of_walk creates_users (fun es es' hes hR ↦ ⟨es, es', hes, hR, rfl⟩) hf
  | courses =>
    rw [run_courses] at hf
    exact addedFor_of_walk creates_courses (fun es es' hes hR ↦ ⟨es, es', hes, hR, rfl⟩) hf
  | modules courseId =>
    rw [PostHandler.run, modulesRoute_post] at hf
    exact addedFor_of_walk creates_modules (fun es es' hes hR ↦ ⟨es, es', hes, hR, rfl⟩) hf

end Serve

/-! ## What a creation inserts -/

/-- The body holds the entity, but for what the creation changes in it. -/
def AsksFor {E : Type} [Creatable E] (created : E → E → Prop)
    (parse : String → Except Error Json) (junk : List ℕ → Int32) (body : String) (e' : E) : Prop :=
  ∃ es, deserializeEntitiesFromText E parse junk body true = .ok es ∧ ∃ e ∈ es, created e e'

/-- An insertion is that of an entity of the body, or that of a module of a course of the body. -/
inductive PlannedAs (parse : String → Except Error Json) (junk : List ℕ → Int32)
    (body : String) : PostHandler → Insertion → Prop
  | user {u : User} : AsksFor Renumbered parse junk body u →
      PlannedAs parse junk body .users (inserted u)
  | course {c : Course} : AsksFor Course.Relinked parse junk body c →
      PlannedAs parse junk body .courses (inserted c)
  | nested {c : Course} {m : Module} : AsksFor Course.Relinked parse junk body c →
      m ∈ c.nested → PlannedAs parse junk body .courses (inserted m)
  | module {courseId : Int32} {m : Module} : AsksFor Renumbered parse junk body m →
      PlannedAs parse junk body (.modules courseId) (inserted m)

section Planned

variable {parse : String → Except Error Json} {junk : List ℕ → Int32} {body : String}
  {handler : PostHandler} {planned : List Insertion} {x : Insertion}

theorem plannedAs_of_mem (hplans : handler.Plans parse junk body planned) (hx : x ∈ planned) :
    PlannedAs parse junk body handler x := by
  have hasks {E : Type} [Creatable E] {created : E → E → Prop} {es es' : List E}
      (hes : deserializeEntitiesFromText E parse junk body true = .ok es)
      (hR : List.Forall₂ created es es') {e' : E} (he' : e' ∈ es') :
      AsksFor created parse junk body e' := by
    obtain ⟨e, he, hcreated⟩ := exists_mem_of_forall₂ hR.flip he'
    exact ⟨es, hes, e, he, hcreated⟩
  cases handler with
  | users =>
    obtain ⟨es, es', hes, hR, rfl⟩ := hplans
    obtain ⟨u, hu, rfl⟩ := List.mem_map.mp hx
    exact .user (hasks hes hR hu)
  | courses =>
    obtain ⟨es, es', hes, hR, rfl⟩ := hplans
    obtain ⟨c, hc, hxc⟩ := List.mem_flatMap.mp hx
    rcases List.mem_cons.mp hxc with rfl | hxm
    · exact .course (hasks hes hR hc)
    · obtain ⟨m, hm, rfl⟩ := List.mem_map.mp hxm
      exact .nested (hasks hes hR hc) hm
  | modules courseId =>
    obtain ⟨es, es', hes, hR, rfl⟩ := hplans
    obtain ⟨m, hm, rfl⟩ := List.mem_map.mp hx
    exact .module (hasks hes hR hm)

namespace PlannedAs

/-! The table of an insertion says what it is one of. -/

theorem exists_user (h : PlannedAs parse junk body handler x) (htable : x.table = "users") :
    handler = .users ∧ ∃ u : User, AsksFor Renumbered parse junk body u ∧ x = inserted u := by
  cases h with
  | user hasks => exact ⟨rfl, _, hasks, rfl⟩
  | course => exact absurd htable (show "courses" ≠ "users" by decide)
  | nested | module => exact absurd htable (show "modules" ≠ "users" by decide)

theorem exists_course (h : PlannedAs parse junk body handler x) (htable : x.table = "courses") :
    handler = .courses ∧
      ∃ c : Course, AsksFor Course.Relinked parse junk body c ∧ x = inserted c := by
  cases h with
  | user => exact absurd htable (show "users" ≠ "courses" by decide)
  | course hasks => exact ⟨rfl, _, hasks, rfl⟩
  | nested | module => exact absurd htable (show "modules" ≠ "courses" by decide)

theorem exists_module (h : PlannedAs parse junk body handler x) (htable : x.table = "modules") :
    ∃ m : Module, x = inserted m ∧ (handler = .courses ∨
      ∃ courseId, handler = .modules courseId ∧ AsksFor Renumbered parse junk body m) := by
  cases h with
  | user => exact absurd htable (show "users" ≠ "modules" by decide)
  | course => exact absurd htable (show "courses" ≠ "modules" by decide)
  | nested => exact ⟨_, rfl, .inl rfl⟩
  | module hasks => exact ⟨_, rfl, .inr ⟨_, rfl, hasks⟩⟩

end PlannedAs

end Planned

/-! ## A run -/

section Served

variable {ι : Type} [DecidableEq ι] {notImplementedYet : Error}
  {parse : String → Except Error Json} {junk : ι → List ℕ → Int32} {route : ι → Route}
  {req : ι → Request} {db : Sql.Db} {c : Pool ι Sql.Db Call PGresult Error Response}
  {added : List (ι × Insertion)}

/-- `added` are the insertions that were carried out in the run, each with its sender. The tables
have gained their rows, in order, and nothing else has changed. -/
structure Additions (db : Sql.Db) (c : Pool ι Sql.Db Call PGresult Error Response)
    (added : List (ι × Insertion)) : Prop where
  log : CarriedOut Lost c.log added
  inserted : Inserted db (added.map Prod.snd) c.shared

/-- The rows that were not there at first are those that one insertion has added. -/
def Authored (db : Sql.Db) (c : Pool ι Sql.Db Call PGresult Error Response)
    (added : List (ι × Insertion)) : Prop :=
  ∀ t, ∀ r ∈ (c.shared t).rows,
    r ∉ (db t).rows ↔ ∃! a, a ∈ added ∧ a.2.table = t ∧ a.2.row = r

theorem refusal_ne_none_of_lost (res : PGresult) (h : Lost res) : refusal res ≠ none := by
  obtain ⟨e, he⟩ := exists_refusal h
  simp [he]

namespace Additions

omit [DecidableEq ι] in
theorem row_mem (h : Additions db c added) {a : ι × Insertion} (ha : a ∈ added) :
    a.2.row ∈ (c.shared a.2.table).rows := h.inserted.row_mem (List.mem_map_of_mem ha)

omit [DecidableEq ι] in
/-- **Every row has one author.** -/
theorem authored (h : Additions db c added) : Authored db c added := by
  intro t r hr
  constructor
  · intro hnew
    rw [h.inserted.rows] at hr
    obtain ⟨x, hx, rfl⟩ := List.mem_map.mp ((List.mem_append.mp hr).resolve_left hnew)
    obtain ⟨hmem, htable⟩ := List.mem_filter.mp hx
    obtain rfl := of_decide_eq_true htable
    obtain ⟨a, ha, rfl⟩ := List.mem_map.mp hmem
    refine ⟨a, ⟨ha, rfl, rfl⟩, fun b hb ↦ ?_⟩
    -- two of them would have been given the same id
    obtain ⟨hbmem, hbtable, hbrow⟩ := hb
    have hkeys := h.inserted.row_key (List.mem_map_of_mem hbmem)
    rw [hbtable, hbrow, h.inserted.row_key (List.mem_map_of_mem ha)] at hkeys
    have hids : b.2.id = a.2.id := Sql.keyText_injective (Option.some.inj hkeys).symm
    have hnodup := h.inserted.nodup
    rw [List.map_map] at hnodup
    exact List.inj_on_of_nodup_map hnodup hbmem ha (Prod.ext hbtable hids)
  · rintro ⟨a, ⟨ha, rfl, rfl⟩, -⟩ hold
    have hkey := h.inserted.row_key (List.mem_map_of_mem ha)
    rw [h.inserted.key] at hkey
    exact h.inserted.fresh (List.mem_map_of_mem ha) _ hold hkey

end Additions

/-- Whatever is sent is an insertion or a question. -/
theorem Served.calls (h : Served notImplementedYet parse junk db route req c) :
    ∀ y ∈ c.log, if (postHandler (route y.1) (req y.1)).isSome then IsInsertion y.2.1
      else IsQuestion y.2.1 := by
  intro y hy
  have hfollows := Pool.Reachable.follows h y.1
  have hmem : y.2 ∈ c.history y.1 := Pool.mem_history.mpr hy
  cases hpost : postHandler (route y.1) (req y.1) with
  | some handler =>
    rw [serve_of_postHandler notImplementedYet parse (junk y.1) hpost] at hfollows
    exact (sends_run handler _).of_mem hfollows _ hmem
  | none =>
    exact (sends_serve_of_not_post notImplementedYet parse (junk y.1) hpost).of_mem hfollows _ hmem

/-- The insertions that were carried out in a run. -/
theorem Served.exists_additions (h : Served notImplementedYet parse junk db route req c) :
    ∃ added, Additions db c added := by
  obtain ⟨added, hcarried, hinserted⟩ := exists_carriedOut refusal_ne_none_of_lost
    (Pool.Reachable.chain h) fun y hy ↦ by
      have hcall := h.calls y hy
      split at hcall
      · exact .inl hcall
      · exact .inr (isSelection_of_question hcall)
  exact ⟨added, hcarried, hinserted⟩

/-! ## One client -/

/-- What the client has added, and what it has still to do. -/
def AccountedTo (parse : String → Except Error Json) (junk : ι → List ℕ → Int32)
    (route : ι → Route) (req : ι → Request) (i : ι) (own : List Insertion)
    (left : DbProgram Response) : Prop :=
  match postHandler (route i) (req i) with
  | some handler => AddedFor parse (junk i) handler (req i).body own left
  | none => own = []

/-- The insertions that were carried out for the client lead it to where it is, unless it has
failed. -/
theorem Served.follows_own (h : Served notImplementedYet parse junk db route req c)
    (hadded : Additions db c added) {i : ι} {handler : PostHandler}
    (hpost : postHandler (route i) (req i) = some handler) :
    ∃ q, Follows (handler.run parse (junk i) (req i).body)
        ((ownOf added i).map Insertion.event) q ∧
      (q = c.clients i ∨ ∃ e, c.clients i = .throw e) := by
  have hfollows := Pool.Reachable.follows h i
  have hfast := failFast_serve notImplementedYet parse (junk i) (route i) (req i)
  rw [serve_of_postHandler notImplementedYet parse (junk i) hpost] at hfollows hfast
  exact (hadded.log.filter (· = i)).follows_events refusal_ne_none_of_lost hfollows hfast
    (sends_run handler _)

theorem Served.accountedTo (h : Served notImplementedYet parse junk db route req c)
    (hadded : Additions db c added) (i : ι) :
    AccountedTo parse junk route req i (ownOf added i) (c.clients i) := by
  rw [AccountedTo]
  cases hpost : postHandler (route i) (req i) with
  | some handler =>
    obtain ⟨q, hq, hleft⟩ := h.follows_own hadded hpost
    have haddedFor := addedFor_of_follows hq
    refine ⟨haddedFor.begins, fun r hr ↦ haddedFor.complete r ?_⟩
    rcases hleft with rfl | ⟨e, he⟩
    · exact hr
    · exact absurd (hr.symm.trans he) (by simp)
  | none =>
    refine List.map_eq_nil_iff.mpr ((hadded.log.filter (· = i)).eq_nil fun y hy ↦ ?_)
    obtain ⟨hmem, hi⟩ := List.mem_filter.mp hy
    have hcall := h.calls y hmem
    rw [of_decide_eq_true hi, hpost] at hcall
    exact (isSelection_of_question hcall).not_isInsertion

/-- If nothing has failed, the client has been told of all that was carried out for it. -/
theorem Served.history_eq (h : Served notImplementedYet parse junk db route req c)
    (hadded : Additions db c added) {i : ι} {handler : PostHandler}
    (hpost : postHandler (route i) (req i) = some handler)
    (hgood : ∀ y ∈ c.history i, refusal y.2 = none) :
    c.history i = (ownOf added i).map Insertion.event := by
  have hlog := (hadded.log.filter (· = i)).eq_events refusal_ne_none_of_lost
    (fun y hy ↦ hgood y.2 (List.mem_map_of_mem hy)) fun y hy ↦ by
      obtain ⟨hmem, hi⟩ := List.mem_filter.mp hy
      have hcall := h.calls y hmem
      rw [of_decide_eq_true hi, hpost] at hcall
      exact hcall
  rw [Pool.history, Pool.part, hlog, ownOf, List.map_map, List.map_map]
  rfl

theorem mem_ownOf {a : ι × Insertion} (ha : a ∈ added) : a.2 ∈ ownOf added a.1 :=
  List.mem_map_of_mem (List.mem_filter.mpr ⟨ha, decide_eq_true rfl⟩)

theorem mem_of_mem_ownOf {i : ι} {x : Insertion} (hx : x ∈ ownOf added i) : (i, x) ∈ added := by
  obtain ⟨a, ha, rfl⟩ := List.mem_map.mp hx
  obtain ⟨hmem, hi⟩ := List.mem_filter.mp ha
  obtain rfl := of_decide_eq_true hi
  exact hmem

/-- Whoever has added something was to add it, and all that was to come before it. -/
theorem Served.exists_planned (h : Served notImplementedYet parse junk db route req c)
    (hadded : Additions db c added) {a : ι × Insertion} (ha : a ∈ added) :
    ∃ handler planned, postHandler (route a.1) (req a.1) = some handler ∧
      handler.Plans parse (junk a.1) (req a.1).body planned ∧ ownOf added a.1 <+: planned ∧
      a.2 ∈ planned := by
  have haccounted := h.accountedTo hadded a.1
  have hne : ownOf added a.1 ≠ [] := List.ne_nil_of_mem (mem_ownOf ha)
  rw [AccountedTo] at haccounted
  cases hi : postHandler (route a.1) (req a.1) with
  | none =>
    rw [hi] at haccounted
    exact absurd haccounted hne
  | some handler =>
    rw [hi] at haccounted
    obtain ⟨planned, hplans, hbegins⟩ := haccounted.begins.resolve_left hne
    exact ⟨handler, planned, rfl, hplans, hbegins, hbegins.subset (mem_ownOf ha)⟩

theorem Served.plannedAs (h : Served notImplementedYet parse junk db route req c)
    (hadded : Additions db c added) {a : ι × Insertion} (ha : a ∈ added) :
    ∃ handler, postHandler (route a.1) (req a.1) = some handler ∧
      PlannedAs parse (junk a.1) (req a.1).body handler a.2 := by
  obtain ⟨handler, planned, hpost, hplans, -, hmem⟩ := h.exists_planned hadded ha
  exact ⟨handler, hpost, plannedAs_of_mem hplans hmem⟩

/-- **Every row has been added by one request, which was to add it.** Whatever the order of the
calls and whichever are lost, the tables hold what they held at first, and the rows of the
insertions that were carried out, each of them by one request: a request that creates has made the
first of those that its body takes, all of them if it was told of success, and any other request
none. -/
theorem added_by_clients (h : Served notImplementedYet parse junk db route req c) :
    ∃ added : List (ι × Insertion), Additions db c added ∧ Authored db c added ∧
      ∀ i, match postHandler (route i) (req i) with
        | some handler =>
          AddedFor parse (junk i) handler (req i).body (ownOf added i) (c.clients i)
        | none => ownOf added i = [] := by
  obtain ⟨added, hadded⟩ := h.exists_additions
  exact ⟨added, hadded, hadded.authored, h.accountedTo hadded⟩

end Served

theorem added_lostAnswer :
    ∃ added : List (Bool × Insertion), Additions campus lostAnswer added ∧
      Authored campus lostAnswer added ∧
      ∀ i, match postHandler .users (registerAndList i) with
        | some handler => AddedFor parseStudents (fun _ ↦ 0) handler (registerAndList i).body
            (ownOf added i) (lostAnswer.clients i)
        | none => ownOf added i = [] :=
  added_by_clients lostAnswer_served

end Sphinx.Backend
