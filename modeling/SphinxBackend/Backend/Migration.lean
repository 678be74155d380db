import SphinxBackend.Backend.Guarantees
import SphinxBackend.Backend.RoundTrip

/-!
# Copying from one service to another

What a route lists is a document that the same route takes. The ids in it are not read, so whoever
sends the list of one service to another has copies made, under ids of their own and otherwise the
same. Nothing of a catalogue is lost in this way but the courses that modules belong to, whose ids
are those of the service that the modules come from.

The copies are made once each, in the order of the list, whatever else the other service is asked
for meanwhile: they are what the request has inserted, and nothing else is. Only nothing cannot be
copied: the empty list is null, and null is no document of an entity.
-/

namespace Sphinx.Backend

open Db Nlohmann Interaction Program Collections Model

/-! ## A copy -/

section Copy

variable {E : Type} [Entity E] {e e' x y : E} {i : Int32}

/-- A row holds one entity. -/
theorem RecordedAs.eq (hx : RecordedAs e i x) (hy : RecordedAs e i y) : x = y := by
  have hdecode := hx.holds.decodeRow
  rw [hy.holds.decodeRow, hx.plain, hy.plain] at hdecode
  exact (Except.ok.inj hdecode).symm

/-- Only the columns are recorded. -/
theorem RecordedAs.of_sameColumns (h : RecordedAs e' i x) (hsame : SameColumns e e') :
    RecordedAs e i x :=
  ⟨h.id_eq, fun a ha ↦ by rw [h.columns a ha, hsame a ha], h.plain⟩

/-- An insertion is known by its columns and its id. -/
theorem inserted_eq (h : SameColumns e e') :
    inserted e' = inserted (Entity.setId e (Entity.id e')) := by
  refine Insertion.event_injective ?_
  rw [h.event_eq, (sameColumns_setId e _).event_eq, id_setId]

variable {record : E → Int32 → E}

/-- The insertions of a list, under other ids. -/
theorem map_inserted_eq {es es' : List E} (h : List.Forall₂ SameColumns es es') :
    es'.map inserted
      = es.zipWith (fun e i ↦ inserted (Entity.setId e i)) (es'.map Entity.id) := by
  induction h with
  | nil => rfl
  | cons he _ ih =>
    rw [List.map_cons, List.map_cons, List.zipWith_cons_cons, ih, ← inserted_eq he]

/-- The entities that the rows hold are what is recorded of the list. -/
theorem eq_zipWith_of_rows (hrecord : ∀ e i, RecordedAs e i (record e i))
    {searched : List (Accessor E)} {es es' cs : List E} (hsame : List.Forall₂ SameColumns es es')
    (hrows : List.Forall₂ (RowOf searched) (es'.map fun e ↦ (inserted e).row) cs) :
    cs = es.zipWith record (es'.map Entity.id) := by
  induction hsame generalizing cs with
  | nil =>
    cases hrows
    rfl
  | @cons e e' es es' he _ ih =>
    cases hrows with
    | @cons _ c _ cs hc hcs =>
      have hrecorded := hrecord e' (Entity.id e')
      obtain rfl := hrecorded.of_rowOf hc
      rw [List.map_cons, List.zipWith_cons_cons, ← ih hcs]
      exact congrArg (· :: cs) ((hrecorded.of_sameColumns he).eq (hrecord e (Entity.id e')))

/-- What is related to a part of a list is a part of what is related to the list. -/
theorem exists_sublist_of_forall₂ {α β : Type} {R : α → β → Prop} {s l : List α} {l' : List β}
    (h : List.Forall₂ R l l') (hs : s.Sublist l) : ∃ s', s'.Sublist l' ∧ List.Forall₂ R s s' := by
  induction hs generalizing l' with
  | slnil => exact ⟨[], List.nil_sublist _, .nil⟩
  | cons a _ ih =>
    cases h with
    | cons _ h =>
      obtain ⟨s', hs', hR⟩ := ih h
      exact ⟨s', hs'.cons _, hR⟩
  | cons_cons a _ ih =>
    cases h with
    | @cons _ b _ _ hab h =>
      obtain ⟨s', hs', hR⟩ := ih h
      exact ⟨b :: s', hs'.cons_cons b, .cons hab hR⟩

/-- What is recorded of the list is among the entries. -/
theorem sublist_entries (hrecord : ∀ e i, RecordedAs e i (record e i))
    {searched : List (Accessor E)} {entries es es' : List E} {w : List Insertion}
    {db db' : Sql.Db} (hinserted : Inserted db w db') (hown : (es'.map inserted).Sublist w)
    (htable : TableOf searched (db' (Entity.entityName E)) entries)
    (hsame : List.Forall₂ SameColumns es es') :
    (es.zipWith record (es'.map Entity.id)).Sublist entries := by
  have hrows : (es'.map fun e ↦ (inserted e).row).Sublist (db' (Entity.entityName E)).rows := by
    have hinto := (hown.filter fun x ↦ x.table = Entity.entityName E).map Insertion.row
    change (rowsInto _ _).Sublist (rowsInto _ _) at hinto
    rw [rowsInto_map_inserted, if_pos rfl] at hinto
    rw [hinserted.rows]
    exact hinto.trans (List.sublist_append_right _ _)
  obtain ⟨cs, hcs, hrowOf⟩ := exists_sublist_of_forall₂ htable.rows hrows
  exact eq_zipWith_of_rows hrecord hsame hrowOf ▸ hcs

/-- The ids are new, and no two are the same. -/
theorem ids_of_inserted {es' : List E} {w : List Insertion} {db db' : Sql.Db}
    (hinserted : Inserted db w db') (hown : (es'.map inserted).Sublist w) :
    (es'.map Entity.id).Nodup ∧ ∀ i ∈ es'.map Entity.id, (db (Entity.entityName E)).Fresh i := by
  constructor
  · have hnodup := hinserted.nodup.sublist (hown.map fun x ↦ (x.table, x.id))
    have hpairs : (es'.map inserted).map (fun x ↦ (x.table, x.id))
        = (es'.map Entity.id).map fun i ↦ (Entity.entityName E, i) := by
      rw [List.map_map, List.map_map]
      rfl
    exact List.Nodup.of_map _ (hpairs ▸ hnodup)
  · intro i hi
    obtain ⟨e', he', rfl⟩ := List.mem_map.mp hi
    exact hinserted.fresh (hown.subset (List.mem_map_of_mem he'))

end Copy

/-! ## A list sent back -/

section Page

variable {junk : List ℕ → Int32}

/-- What is decoded of a list is related to the list, one by one. -/
theorem forall₂_of_page {E : Type} [Creatable E] {R : E → E → Prop}
    (hone : ∀ i e e', deserializeEntity E junk true i (Json.document e) = .ok e' → R e e')
    (hnull : deserializeEntities E junk .null true = .error .typeError) {es es' : List E}
    (h : deserializeEntities E junk (Catalogue.page es) true = .ok es') :
    List.Forall₂ R es es' := by
  by_cases hes : es = []
  · rw [Catalogue.page, if_pos hes, hnull] at h
    exact absurd h (by simp)
  · rw [Catalogue.page, if_neg hes] at h
    have hdocuments := forall₂_of_deserializeEntities h
    rw [documents, List.forall₂_map_left_iff] at hdocuments
    exact hdocuments.imp fun e e' he ↦ he.elim fun i hi ↦ hone i e e' hi

theorem sameColumns_of_leaf {E : Type} [Creatable E]
    (h : ∀ junk data (e : E), Creatable.deserializeSubentities junk data e = .ok e) {i : ℕ}
    {e e' : E} (hdecode : deserializeEntity E junk true i (Json.document e) = .ok e') :
    SameColumns e e' := by
  obtain ⟨e'', hdecode', hsame⟩ := decodesDocuments_leaf h junk true i e
  rw [hdecode] at hdecode'
  rwa [Except.ok.inj hdecode']

theorem sameColumns_renumbered {E : Type} [Creatable E] {es es' : List E}
    (h : List.Forall₂ Renumbered es es') : List.Forall₂ SameColumns es es' :=
  h.imp fun e e' he ↦ by
    rw [he]
    exact sameColumns_setId e _

theorem sameColumns_trans {E : Type} [Entity E] {es es' es'' : List E}
    (h : List.Forall₂ SameColumns es es') (h' : List.Forall₂ SameColumns es' es'') :
    List.Forall₂ SameColumns es es'' := by
  induction h generalizing es'' with
  | nil => exact h'
  | cons he _ ih =>
    cases h' with
    | cons he' h' => exact .cons (he.trans he') (ih h')

variable {parse : String → Except Error Json} {body : String} {w : List Insertion}

/-- All that is inserted are entities with the columns of those listed. -/
theorem planned_users {us : List User} (hbody : parse body = .ok (Catalogue.page us))
    (h : PostHandler.users.Plans parse junk body w) :
    ∃ us', List.Forall₂ SameColumns us us' ∧ w = us'.map inserted := by
  obtain ⟨es, es', hes, hR, rfl⟩ := h
  rw [deserializeEntitiesFromText, hbody] at hes
  have hdecoded := forall₂_of_page (fun _ _ _ ↦ sameColumns_of_leaf fun _ _ _ ↦ rfl) rfl hes
  exact ⟨es', sameColumns_trans hdecoded (sameColumns_renumbered hR), rfl⟩

theorem planned_modules {courseId : Int32} {ms : List Module}
    (hbody : parse body = .ok (Catalogue.page ms))
    (h : (PostHandler.modules courseId).Plans parse junk body w) :
    ∃ ms', List.Forall₂ SameColumns ms ms' ∧ w = ms'.map inserted := by
  obtain ⟨es, es', hes, hR, rfl⟩ := h
  rw [deserializeEntitiesFromText, hbody] at hes
  have hdecoded := forall₂_of_page (fun _ _ _ ↦ sameColumns_of_leaf fun _ _ _ ↦ rfl) rfl hes
  exact ⟨es', sameColumns_trans hdecoded (sameColumns_renumbered hR), rfl⟩

/-- Courses are listed without their modules, so nothing else is inserted with them. -/
theorem planned_courses {cs : List Course} (hbody : parse body = .ok (Catalogue.page cs))
    (h : PostHandler.courses.Plans parse junk body w) :
    ∃ cs', List.Forall₂ SameColumns cs cs' ∧ w = cs'.map inserted := by
  obtain ⟨es, es', hes, hR, rfl⟩ := h
  rw [deserializeEntitiesFromText, hbody] at hes
  have hdecoded : List.Forall₂ (fun c c' ↦ SameColumns c c' ∧ c'.modules = none) cs es := by
    refine forall₂_of_page (fun i c c' hc ↦ ?_) rfl hes
    obtain ⟨c'', hdecode, hc''⟩ := deserializeEntity_course junk i c
    rw [hc] at hdecode
    rwa [Except.ok.inj hdecode]
  have hcreated : List.Forall₂ (fun c c' ↦ SameColumns c c' ∧ c'.walk = [inserted c']) cs es' := by
    clear hes hbody
    induction hdecoded generalizing es' with
    | nil =>
      cases hR
      exact .nil
    | cons hc _ ih =>
      cases hR with
      | @cons _ c' _ _ hc' hR =>
        obtain ⟨hcolumns, hlink⟩ := hc'
        refine .cons ⟨hc.1.trans ?_, ?_⟩ (ih _ hR)
        · rw [hcolumns]
          exact Course.sameColumns _ _ _
        · rw [hc.2] at hlink
          have hnone : c'.modules = none := by
            generalize c'.modules = modules at hlink
            cases hlink
            rfl
          rw [Course.walk, Course.nested, hnone]
          rfl
  refine ⟨es', hcreated.imp fun _ _ hc ↦ hc.1, ?_⟩
  rw [List.map_eq_flatMap]
  refine List.flatMap_congr fun c' hc' ↦ ?_
  obtain ⟨c, -, hc⟩ := exists_mem_of_forall₂ hcreated.flip hc'
  exact hc.2

end Page

/-! ## A list sent to another service -/

/-- If the request was told of success, its insertions are those of the list, each entity once and
in order under a new id, and what is recorded of them is among the entries. Without an entity the
request has failed, and has inserted nothing. -/
structure Copied {E : Type} [Entity E] (record : E → Int32 → E) (db : Sql.Db)
    (es entries : List E) (own : List Insertion) (left : DbProgram Response) : Prop where
  copies : ∀ r, left = .pure r → ∃ ids : List Int32, ids.length = es.length ∧ ids.Nodup ∧
    (∀ i ∈ ids, (db (Entity.entityName E)).Fresh i) ∧
    own = es.zipWith (fun e i ↦ inserted (Entity.setId e i)) ids ∧
    (es.zipWith record ids).Sublist entries
  fails : es = [] → own = [] ∧ left = .throw .typeError

section Served

variable {ι : Type} [DecidableEq ι] {notImplementedYet : Error}
  {parse : String → Except Error Json} {junk : ι → List ℕ → Int32} {route : ι → Route}
  {req : ι → Request} {db : Sql.Db} {c : Pool ι Sql.Db Call PGresult Error Response}
  {added : List (ι × Insertion)}

/-- A body that is not decoded ends its request before it has begun. -/
theorem eq_throw_of_run (h : Served notImplementedYet parse junk db route req c) {i : ι}
    {handler : PostHandler}
    (hpost : postHandler (route i) (req i) = some handler) {e : Error}
    (hrun : handler.run parse (junk i) (req i).body = .throw e) : c.clients i = .throw e := by
  have hfollows := Pool.Reachable.follows h i
  rw [serve_of_postHandler notImplementedYet parse (junk i) hpost, hrun] at hfollows
  exact (follows_throw_iff.mp hfollows).2

/-- What is planned for the list is copied when it is done. -/
theorem copied_of_plans {E : Type} [Entity E] {record : E → Int32 → E}
    (hrecord : ∀ e i, RecordedAs e i (record e i)) {searched : List (Accessor E)}
    {es entries : List E} (h : Served notImplementedYet parse junk db route req c)
    (hadded : Additions db c added)
    (htable : TableOf searched (c.shared (Entity.entityName E)) entries) {i : ι}
    {handler : PostHandler} (hpost : postHandler (route i) (req i) = some handler)
    (hplans : ∀ w, handler.Plans parse (junk i) (req i).body w →
      ∃ es', List.Forall₂ SameColumns es es' ∧ w = es'.map inserted)
    (hempty : es = [] → handler.run parse (junk i) (req i).body = .throw .typeError) :
    Copied record db es entries (ownOf added i) (c.clients i) where
  copies r hr := by
    have hi := h.accountedTo hadded i
    rw [AccountedTo, hpost] at hi
    obtain ⟨es', hsame, hown⟩ := hplans _ (hi.complete r hr)
    have hsublist : (es'.map inserted).Sublist (added.map Prod.snd) :=
      hown ▸ List.filter_sublist.map Prod.snd
    obtain ⟨hnodup, hfresh⟩ := ids_of_inserted hadded.inserted hsublist
    exact ⟨es'.map Entity.id, by rw [List.length_map, hsame.length_eq], hnodup, hfresh,
      hown.trans (map_inserted_eq hsame),
      sublist_entries hrecord hadded.inserted hsublist htable hsame⟩
  fails hes := by
    obtain ⟨q, hq, -⟩ := h.follows_own hadded hpost
    rw [hempty hes, follows_throw_iff] at hq
    exact ⟨List.map_eq_nil_iff.mp hq.1, eq_throw_of_run h hpost (hempty hes)⟩

/-- Null is not decoded. -/
theorem deserialize_nil {E : Type} [Creatable E] {junk : List ℕ → Int32} {body : String}
    (hbody : parse body = .ok (Catalogue.page ([] : List E)))
    (hnull : deserializeEntities E junk .null true = .error .typeError) :
    deserializeEntitiesFromText E parse junk body true = .error .typeError := by
  rw [deserializeEntitiesFromText, hbody]
  exact hnull

/-- **What one service lists another one takes.** In any run of the requests, with any calls lost,
a request whose body is a list as some service replies it has copied the list, if it was told of
success: what was carried out for it are the insertions of the entities of the list, in order and
each once, under new ids, and what can be recorded of each is an entry. -/
theorem copied_of_served (hdb : Stored db)
    (h : Served notImplementedYet parse junk db route req c) :
    ∃ k added, Represents k c.shared ∧ Additions db c added ∧ ∀ i, (req i).method = .POST →
      (∀ us, route i = .users → parse (req i).body = .ok (Catalogue.page us) →
        Copied User.recorded db us k.users.entries (ownOf added i) (c.clients i)) ∧
      (∀ cs, route i = .courses → parse (req i).body = .ok (Catalogue.page cs) →
        Copied Course.recorded db cs k.courses.entries (ownOf added i) (c.clients i)) ∧
      ∀ ms courseId, route i = .modules courseId → parse (req i).body = .ok (Catalogue.page ms) →
        Copied Module.recorded db ms k.modules.entries (ownOf added i) (c.clients i) := by
  obtain ⟨states, tables, hc⟩ := h.exists_chronicle hdb
  have hk := hc.represents_shared
  obtain ⟨added, hadded⟩ := h.exists_additions
  refine ⟨_, added, hk, hadded, fun i hmethod ↦ ⟨fun us hroute hbody ↦ ?_,
    fun cs hroute hbody ↦ ?_, fun ms courseId hroute hbody ↦ ?_⟩⟩
  · have hpost : postHandler (route i) (req i) = some .users := by
      simp [postHandler, hroute, hmethod]
    refine copied_of_plans User.recordedAs h hadded hk.users hpost (fun w ↦ planned_users hbody)
      fun hus ↦ ?_
    rw [hus] at hbody
    rw [PostHandler.run, usersRoute_post, deserialize_nil hbody rfl]
    rfl
  · have hpost : postHandler (route i) (req i) = some .courses := by
      simp [postHandler, hroute, hmethod]
    refine copied_of_plans Course.recordedAs h hadded hk.courses hpost
      (fun w ↦ planned_courses hbody) fun hcs ↦ ?_
    rw [hcs] at hbody
    rw [run_courses, createThen, deserialize_nil hbody rfl]
    rfl
  · have hpost : postHandler (route i) (req i) = some (.modules courseId) := by
      simp [postHandler, hroute, hmethod]
    refine copied_of_plans Module.recordedAs h hadded hk.modules hpost
      (fun w ↦ planned_modules hbody) fun hms ↦ ?_
    rw [hms] at hbody
    rw [PostHandler.run, modulesRoute_post, deserialize_nil hbody rfl]
    rfl

end Served

/-- The list of the two students is sent, and both are copied. -/
theorem copied_bothRegistered :
    ∃ k added, Represents k bothRegistered.shared ∧ Additions campus bothRegistered added ∧
      ∀ i, (registerAndList i).method = .POST →
      (∀ us, Route.users = .users →
        parseStudents (registerAndList i).body = .ok (Catalogue.page us) →
        Copied User.recorded campus us k.users.entries (ownOf added i)
          (bothRegistered.clients i)) ∧
      (∀ cs, Route.users = .courses →
        parseStudents (registerAndList i).body = .ok (Catalogue.page cs) →
        Copied Course.recorded campus cs k.courses.entries (ownOf added i)
          (bothRegistered.clients i)) ∧
      ∀ ms courseId, Route.users = .modules courseId →
        parseStudents (registerAndList i).body = .ok (Catalogue.page ms) →
        Copied Module.recorded campus ms k.modules.entries (ownOf added i)
          (bothRegistered.clients i) :=
  copied_of_served stored_campus bothRegistered_served

end Sphinx.Backend
