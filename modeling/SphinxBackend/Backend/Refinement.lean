import SphinxBackend.Backend.Driver
import SphinxBackend.Backend.Reading

/-!
# The service does what it is for

The tables represent a catalogue as long as each row is decoded, and as long as a column that is
searched holds what is decoded of it (`Represents`). Every state that the definitions allow
represents one. A row that is inserted later need not be one that the definitions allow, but it
holds the entity as far as the text reaches the server, and that is enough.

What the server answers to a request of the catalogue is something that the catalogue can answer,
and what it does to the tables is what the catalogue does (`simulates`). So any interleaving of any
requests at the server, with a connection that may break at every call, is one of the catalogue
behind such a connection, call by call and state by state (`exists_catalogue`).

What is said later of the replies is said of the states at the places of the log: `Chronicle` ties
the tables to the calls, and the catalogue to the tables.
-/

namespace Sphinx.Backend

open Db Nlohmann Interaction Program Collections Model

/-! ## Rows and tables -/

section Table

variable {E : Type} [Entity E]

/-- The row is decoded to the entity, and searching the row is searching the entity. -/
structure RowOf (searched : List (Accessor E)) (r : Sql.Row) (e : E) : Prop where
  decodes : decodeRow E r = .ok e
  cell : ∀ a ∈ searched, r a.name = (a.get e).toOptionalString

/-- The rows of the table are those of the entities, in order. -/
structure TableOf (searched : List (Accessor E)) (t : Sql.Table) (es : List E) : Prop where
  columns : HasColumns E t
  key : t.key = "id"
  rows : List.Forall₂ (RowOf searched) t.rows es

namespace TableOf

variable {searched : List (Accessor E)} {t : Sql.Table} {es : List E}

theorem decodes (h : TableOf searched t es) : t.rows.mapM (decodeRow E) = .ok es :=
  mapM_eq_ok_iff.mpr (h.rows.imp fun _ _ hr ↦ hr.decodes)

/-- The keys of the rows are the ids of the entities. -/
theorem keys_eq (h : TableOf searched t es) :
    t.rows.map (· "id") = es.map fun e ↦ some (Sql.keyText (Entity.id e)) := by
  have hrows : List.Forall₂ (fun r e ↦ r ∈ t.rows ∧ RowOf searched r e) t.rows es :=
    (List.forall₂_and_left _ _).mpr ⟨fun _ hr ↦ hr, h.rows⟩
  rw [← List.forall₂_eq_eq_eq, List.forall₂_map_left_iff, List.forall₂_map_right_iff]
  exact hrows.imp fun r e hr ↦ id_of_decodeRow h.key hr.1 hr.2.decodes

theorem ids_nodup (h : TableOf searched t es) : (es.map Entity.id).Nodup := by
  have hkeys := t.keys_nodup
  rw [h.key, h.keys_eq] at hkeys
  have hmap : (es.map fun e ↦ some (Sql.keyText (Entity.id e)))
      = (es.map Entity.id).map fun i ↦ some (Sql.keyText i) := by
    rw [List.map_map]
    rfl
  exact List.Nodup.of_map _ (hmap ▸ hkeys)

/-- A key that no row has is an id that no entity has. -/
theorem fresh (h : TableOf searched t es) {i : Int32} (hi : t.Fresh i) :
    ∀ e ∈ es, Entity.id e ≠ i := by
  rintro e he rfl
  have hmem : some (Sql.keyText (Entity.id e)) ∈ t.rows.map (· "id") := by
    rw [h.keys_eq]
    exact List.mem_map_of_mem he
  obtain ⟨r, hr, hkey⟩ := List.mem_map.mp hmem
  exact hi r hr (by rw [h.key]; exact hkey)

end TableOf

/-- `e'` is what a row holds of `e` under an id. -/
structure RecordedAs (e : E) (i : Int32) (e' : E) : Prop where
  id_eq : Entity.id e' = i
  columns : ∀ a ∈ getInsertColumns E,
    (a.get e').toOptionalString = (a.get e).toOptionalString.map Text.cString
  plain : columnsOnly e' = e'

/-- The new row holds what is recorded. -/
theorem RecordedAs.holds {e e' : E} {i : Int32} (h : RecordedAs e i e') :
    Holds (Sql.newRow "id" i (inserted e).stored) e' := by
  intro a ha
  rcases mem_accessors_iff.mp ha with rfl | hins
  · rw [show (idAccessor (Entity.id (E := E)) Entity.setId).name = "id" from rfl, Sql.newRow_key,
      ← h.id_eq]
    rfl
  · have hrow := row_name e hins
    rw [Insertion.row, Sql.newRow_of_ne (name_ne_id hins)] at hrow
    rw [Sql.newRow_of_ne (name_ne_id hins), hrow, h.columns a hins]

variable {searched : List (Accessor E)} {es : List E}

/-- What is read off the row of an insertion. -/
theorem RecordedAs.of_rowOf {e x c : E} (h : RecordedAs e (Entity.id e) x)
    (hrow : RowOf searched (inserted e).row c) : c = x := by
  have hdecode : decodeRow E (inserted e).row = .ok (columnsOnly x) := h.holds.decodeRow
  rw [hrow.decodes, h.plain] at hdecode
  exact Except.ok.inj hdecode

/-- If the row is in the table, what is recorded is an entry. -/
theorem TableOf.recorded_mem {record : E → Int32 → E}
    (hrecord : ∀ e i, RecordedAs e i (record e i)) {t : Sql.Table} (h : TableOf searched t es)
    {e : E} (hrow : (inserted e).row ∈ t.rows) : record e (Entity.id e) ∈ es := by
  obtain ⟨c, hc, hrowOf⟩ := exists_mem_of_forall₂ h.rows hrow
  obtain rfl := (hrecord e (Entity.id e)).of_rowOf hrowOf
  exact hc

theorem rowOf_of_holds {r : Sql.Row} {e : E} (h : Holds r e) (hplain : columnsOnly e = e)
    (hsearched : searched ⊆ Struct.accessors) : RowOf searched r e :=
  ⟨by rw [h.decodeRow, hplain], fun a ha ↦ h a (hsearched ha)⟩

/-- One more row is one more entity. -/
theorem TableOf.addRow {db : Sql.Db} {e e' : E} {i : Int32}
    (h : TableOf searched (db (Entity.entityName E)) es)
    (hsearched : searched ⊆ Struct.accessors) (hi : (db (Entity.entityName E)).Fresh i)
    (he : RecordedAs e i e') :
    TableOf searched (Sql.addRow db (Entity.entityName E) i (inserted e).stored
      (Entity.entityName E)) (es ++ [e']) where
  columns := by
    intro a ha
    rw [Sql.addRow_columns]
    exact h.columns a ha
  key := by rw [Sql.addRow_key, h.key]
  rows := by
    rw [Sql.addRow_rows hi, h.key]
    exact List.rel_append h.rows (.cons (rowOf_of_holds he.holds he.plain hsearched) .nil)

variable (searched) in
/-- A table that the definition allows. -/
theorem exists_tableOf {d : Sql.Definition} (hd : Readable E d) {t : Sql.Table}
    (ht : Conforms d t) (hsearched : ∀ r, d.Admits r → ∀ e, decodeRow E r = .ok e →
      ∀ a ∈ searched, r a.name = (a.get e).toOptionalString) : ∃ es, TableOf searched t es := by
  obtain ⟨es, hes⟩ := exists_decodeRows hd ht
  refine ⟨es, hasColumns_of_conforms hd ht, ht.key, ?_⟩
  have hrows : List.Forall₂ (fun r e ↦ d.Admits r ∧ decodeRow E r = .ok e) t.rows es :=
    (List.forall₂_and_left _ _).mpr ⟨ht.admits, mapM_eq_ok_iff.mp hes⟩
  exact hrows.imp fun r e hr ↦ ⟨hr.2, hsearched r hr.1 e hr.2⟩

/-! ## What the server answers -/

/-- If a query can end in one way only, so can its call. -/
theorem eq_of_yields {α : Type} {db db' : Sql.Db} {text : String} {args : ValueList}
    {reads : PGresult → Except Error α} {x : Except Error α} {res : PGresult}
    (h : Yields postgres db (query text args reads) db x)
    (hstep : postgres db (callOf text args) db' res) : db' = db ∧ reads res = x :=
  h.2 _ _ _ (runs_query_iff.mpr ⟨res, rfl, hstep, rfl⟩)

variable {db : Sql.Db}

theorem TableOf.getAllWhere_yields (h : TableOf searched (db (Entity.entityName E)) es)
    {c : Condition E} {a : Accessor E} (ha : a ∈ searched) (hmem : a ∈ Struct.accessors)
    (hop : c.operator = .eq) (hn : c.n = a.column.n) :
    Yields postgres db (getAllWhere c) db (.ok (es.filter fun e ↦
      (a.get e).toOptionalString = some (Text.cString (c.type.format c.value)))) := by
  have hname : getNthColumnName E c.n = a.name := hn ▸ getNthColumnName_eq hmem
  refine getAllWhere_yields_filter h.columns h.decodes hop ?_ ?_ fun r hr e he ↦ ?_
  · rw [hname]
    exact Entity.identifiers a hmem
  · rw [hname]
    exact h.columns a hmem
  · obtain ⟨e', -, hrow⟩ := exists_mem_of_forall₂ h.rows hr
    obtain rfl := Except.ok.inj (hrow.decodes.symm.trans he)
    rw [hname, hrow.cell a ha, Bool.eq_iff_iff, Sql.equals_some_iff, decide_eq_true_iff]

/-- The operations that are given an id find what is registered under it. -/
theorem TableOf.readsById_yields {reg : Registry (Entity.id (E := E))}
    (h : TableOf searched (db (Entity.entityName E)) reg.entries) (id : Int32) :
    Yields postgres db (exists_ E id) db (.ok (reg.find id).isSome) ∧
      Yields postgres db (findById E id) db (.ok (reg.find id)) := by
  have hreads := readsById_of_decodes h.columns h.decodes h.key id
  cases hfind : reg.find id with
  | none =>
    have habsent := hreads.absent (Registry.find_eq_none_iff.mp hfind)
    exact ⟨habsent.1, habsent.2.1⟩
  | some e =>
    obtain ⟨he, hid⟩ := Registry.find_eq_some_iff.mp hfind
    have hpresent := hreads.present e he hid
    exact ⟨hpresent.1, hpresent.2.1⟩

end Table

/-! ## The three tables -/

/-- The tables hold the catalogue. -/
structure Represents (k : Catalogue) (db : Sql.Db) : Prop where
  users : TableOf [usernameAccessor] (db "users") k.users.entries
  courses : TableOf [] (db "courses") k.courses.entries
  modules : TableOf [courseIdAccessor] (db "modules") k.modules.entries

/-- **What is stored is a catalogue.** -/
theorem exists_represents {db : Sql.Db} (h : Stored db) : ∃ k, Represents k db := by
  obtain ⟨us, hus⟩ := exists_tableOf [usernameAccessor] readable_users h.users
    fun r hr u hu ↦ List.forall_mem_singleton.mpr (username_of_decodeRow hr hu).1
  obtain ⟨cs, hcs⟩ := exists_tableOf [] readable_courses h.courses
    fun _ _ _ _ ↦ List.forall_mem_nil _
  obtain ⟨ms, hms⟩ := exists_tableOf [courseIdAccessor] readable_modules h.modules
    fun r hr m hm ↦ List.forall_mem_singleton.mpr (courseId_of_decodeRow hr hm)
  exact ⟨⟨⟨us, hus.ids_nodup⟩, ⟨cs, hcs.ids_nodup⟩, ⟨ms, hms.ids_nodup⟩⟩, hus, hcs, hms⟩

theorem Model.User.recordedAs (u : User) (i : Int32) : RecordedAs u i (u.recorded i) := by
  have hcolumns : getInsertColumns User = User.accessors.tail := rfl
  refine ⟨rfl, ?_, rfl⟩
  rw [hcolumns]
  simp only [User.accessors, List.tail_cons, List.forall_mem_cons]
  refine ⟨rfl, rfl, rfl, ?_, rfl, rfl, List.forall_mem_nil _⟩
  obtain ⟨_, _, _, _, studentId, _, _⟩ := u
  cases studentId <;> rfl

/-- An integer is sent as it is. -/
theorem cString_format_int32 (n : Int32) :
    Text.cString (ColumnType.int32.format n) = ColumnType.int32.format n :=
  Text.cString_toString n.toInt

theorem Model.Course.recordedAs (c : Course) (i : Int32) : RecordedAs c i (c.recorded i) := by
  have hcolumns : getInsertColumns Course = Course.accessors.tail := rfl
  refine ⟨rfl, ?_, rfl⟩
  rw [hcolumns]
  simp only [Course.accessors, List.tail_cons, List.forall_mem_cons]
  refine ⟨rfl, ?_, (congrArg some (cString_format_int32 c.ownerId)).symm, List.forall_mem_nil _⟩
  obtain ⟨_, _, description, _, _⟩ := c
  cases description <;> rfl

theorem Model.Module.recordedAs (m : Module) (i : Int32) : RecordedAs m i (m.recorded i) := by
  have hcolumns : getInsertColumns Module = Module.accessors.tail := rfl
  refine ⟨rfl, ?_, rfl⟩
  rw [hcolumns]
  simp only [Module.accessors, List.tail_cons, List.forall_mem_cons]
  refine ⟨(congrArg some (cString_format_int32 m.courseId)).symm, rfl, ?_, List.forall_mem_nil _⟩
  obtain ⟨_, _, _, description⟩ := m
  cases description <;> rfl

/-! ## What the server does is what the catalogue can do -/

section Simulation

variable {k : Catalogue} {db db' : Sql.Db} {res : PGresult}

open Catalogue in
/-- An insertion is refused, or the tables hold one entry more. -/
theorem exists_step_add {x : Item} {y : Insertion} (hk : Represents k db)
    (hsend : send (.add x) = y.call)
    (hfailed : ∀ message, read (.add x) (.failed message) = .error (.runtimeError message))
    (hreturned : ∀ i, read (.add x) (.returned "id" i) = .ok (.id i))
    (hadd : ∀ i, (db y.table).Fresh i →
      ∃ k', Adds k (x.recorded i) k' ∧ Represents k' (Sql.addRow db y.table i y.stored))
    (hstep : postgres db (send (.add x)) db' res) :
    ∃ k', Catalogue.Step k (.add x) k' (read (.add x) res) ∧ Represents k' db' := by
  rw [hsend] at hstep
  rcases postgres_insertion_iff.mp hstep with ⟨message, rfl, rfl⟩ | ⟨i, -, hfresh, rfl, rfl⟩
  · rw [hfailed]
    exact ⟨k, .refused message, hk⟩
  · rw [hreturned]
    obtain ⟨k', hadds, hk'⟩ := hadd i hfresh
    exact ⟨k', .added hadds, hk'⟩

open Catalogue in
/-- A selection says what the catalogue would. -/
theorem exists_step_ask {α : Type} {q : Query} {reads : PGresult → Except Error α} {a : α}
    (tag : α → Answer) (hk : Represents k db) (h : db' = db ∧ reads res = .ok a)
    (hread : read (.ask q) res = (reads res).map tag) (hanswer : k.answer q = tag a) :
    ∃ k', Catalogue.Step k (.ask q) k' (read (.ask q) res) ∧ Represents k' db' := by
  obtain ⟨rfl, hres⟩ := h
  have hanswered : read (.ask q) res = .ok (k.answer q) := by
    rw [hread, hres, hanswer]
    rfl
  exact ⟨k, hanswered ▸ .answered q, hk⟩

/-- One more entry of one kind leaves the others as they are. -/
theorem Represents.addUser (hk : Represents k db) (u : User) {i : Int32}
    (hi : (db "users").Fresh i) :
    ∃ k', k.Adds (.user (u.recorded i)) k' ∧
      Represents k' (Sql.addRow db "users" i (inserted u).stored) := by
  refine ⟨_, .user (u := u.recorded i) (hk.users.fresh hi), ?_, ?_, ?_⟩
  · exact hk.users.addRow (by simp [Struct.accessors, User.accessors, usernameAccessor]) hi
      (u.recordedAs i)
  · rw [Sql.addRow_of_ne (by decide)]
    exact hk.courses
  · rw [Sql.addRow_of_ne (by decide)]
    exact hk.modules

theorem Represents.addCourse (hk : Represents k db) (c : Course) {i : Int32}
    (hi : (db "courses").Fresh i) :
    ∃ k', k.Adds (.course (c.recorded i)) k' ∧
      Represents k' (Sql.addRow db "courses" i (inserted c).stored) := by
  refine ⟨_, .course (c := c.recorded i) (hk.courses.fresh hi), ?_, ?_, ?_⟩
  · rw [Sql.addRow_of_ne (by decide)]
    exact hk.users
  · exact hk.courses.addRow (List.nil_subset _) hi (c.recordedAs i)
  · rw [Sql.addRow_of_ne (by decide)]
    exact hk.modules

theorem Represents.addModule (hk : Represents k db) (m : Module) {i : Int32}
    (hi : (db "modules").Fresh i) :
    ∃ k', k.Adds (.module (m.recorded i)) k' ∧
      Represents k' (Sql.addRow db "modules" i (inserted m).stored) := by
  refine ⟨_, .module (m := m.recorded i) (hk.modules.fresh hi), ?_, ?_, ?_⟩
  · rw [Sql.addRow_of_ne (by decide)]
    exact hk.users
  · rw [Sql.addRow_of_ne (by decide)]
    exact hk.courses
  · exact hk.modules.addRow (by simp [Struct.accessors, Module.accessors]) hi (m.recordedAs i)

/-- The users that the search is for. -/
theorem Represents.findUsers_yields (hk : Represents k db) (name : String) :
    Yields postgres db (getAllWhere (Catalogue.named name)) db
      (.ok (k.users.entries.filter fun u ↦ u.username = Text.cString name)) := by
  have hyields := hk.users.getAllWhere_yields (c := Catalogue.named name) List.mem_cons_self
    (by simp [Struct.accessors, User.accessors, usernameAccessor]) rfl rfl
  have hfilter (u : User) : decide ((usernameAccessor.get u).toOptionalString
      = some (Text.cString name)) = decide (u.username = Text.cString name) :=
    decide_eq_decide.mpr Option.some_inj
  rw [← List.filter_congr fun u _ ↦ hfilter u]
  exact hyields

theorem Represents.getModules_yields (hk : Represents k db) (courseId : Int32) :
    Yields postgres db (DAO.getModules courseId) db
      (.ok (k.modules.entries.filter fun m ↦ m.courseId = courseId)) := by
  have hyields := hk.modules.getAllWhere_yields (c := DAO.inCourse courseId) List.mem_cons_self
    (by simp [Struct.accessors, Module.accessors]) rfl rfl
  have hfilter (m : Module) : decide ((courseIdAccessor.get m).toOptionalString
      = some (Text.cString (ColumnType.int32.format courseId)))
        = decide (m.courseId = courseId) := by
    rw [cString_format_int32]
    exact decide_eq_decide.mpr (Option.some_inj.trans Sql.keyText_injective.eq_iff)
  rw [← List.filter_congr fun m _ ↦ hfilter m]
  exact hyields

open Catalogue in
/-- **The server does nothing that the catalogue could not do.** -/
theorem simulates : Simulates driver Catalogue.Step postgres Represents := by
  intro k db db' op res hk hstep
  cases op with
  | add x =>
    cases x with
    | user u =>
      refine exists_step_add hk rfl (fun _ ↦ rfl) (fun i ↦ ?_) (fun i ↦ hk.addUser u) hstep
      exact congrArg (Except.map Answer.id) (insertResult_returned User i)
    | course c =>
      refine exists_step_add hk rfl (fun _ ↦ rfl) (fun i ↦ ?_) (fun i ↦ hk.addCourse c) hstep
      exact congrArg (Except.map Answer.id) (insertResult_returned Course i)
    | module m =>
      refine exists_step_add hk rfl (fun _ ↦ rfl) (fun i ↦ ?_) (fun i ↦ hk.addModule m) hstep
      exact congrArg (Except.map Answer.id) (insertResult_returned Module i)
  | ask q =>
    cases q with
    | users =>
      have hall := getAll_yields_of_decodes hk.users.columns hk.users.decodes
      exact exists_step_ask Answer.users hk (eq_of_yields hall hstep) rfl rfl
    | usersNamed name =>
      have hfound := hk.findUsers_yields name
      exact exists_step_ask Answer.users hk (eq_of_yields hfound hstep) rfl rfl
    | user id =>
      have hfound := (hk.users.readsById_yields id).2
      exact exists_step_ask Answer.user hk (eq_of_yields hfound hstep) rfl rfl
    | userExists id =>
      have hexists := (hk.users.readsById_yields id).1
      exact exists_step_ask Answer.flag hk (eq_of_yields hexists hstep) rfl rfl
    | courses =>
      have hall := getAll_yields_of_decodes hk.courses.columns hk.courses.decodes
      exact exists_step_ask Answer.courses hk (eq_of_yields hall hstep) rfl rfl
    | modulesOf courseId =>
      have hfound := hk.getModules_yields courseId
      exact exists_step_ask Answer.modules hk (eq_of_yields hfound hstep) rfl rfl

end Simulation

/-! ## Lost answers -/

/-- A failed result is read as a failure, whatever was asked for. -/
theorem read_of_lost (op : Catalogue.Op) {res : PGresult} (h : Lost res) :
    Catalogue.read op res = .error (.runtimeError res.message) := by
  have he : refusal res = some (.runtimeError res.message) := if_pos h
  cases op with
  | add x =>
    cases x with
    | user u => exact congrArg (Except.map _) (insertResult_refusal User res _ he)
    | course c => exact congrArg (Except.map _) (insertResult_refusal Course res _ he)
    | module m => exact congrArg (Except.map _) (insertResult_refusal Module res _ he)
  | ask q =>
    cases q with
    | users => exact congrArg (Except.map _) (getRows_refusal User res _ he)
    | usersNamed => exact congrArg (Except.map _) (getRows_refusal User res _ he)
    | user => exact congrArg (Except.map _) (getRowResult_refusal User res _ he)
    | userExists => exact congrArg (Except.map _) (getScalar_refusal res _ he)
    | courses => exact congrArg (Except.map _) (getRows_refusal Course res _ he)
    | modulesOf => exact congrArg (Except.map _) (getRows_refusal Module res _ he)

theorem simulates_remote :
    Simulates Catalogue.driver Catalogue.Remote (Unreliable postgres Lost) Represents :=
  simulates.unreliable fun op _ h ↦ ⟨_, read_of_lost op h⟩

/-- A question is answered from the state in which it is put, or the call has failed. -/
theorem read_ask {k : Catalogue} {db db' : Sql.Db} {q : Catalogue.Query} {res : PGresult}
    (hk : Represents k db)
    (h : Unreliable postgres Lost db (Catalogue.send (.ask q)) db' res) :
    Catalogue.read (.ask q) res = .ok (k.answer q) ∨
      Lost res ∧ Catalogue.read (.ask q) res = .error (.runtimeError res.message) := by
  cases h with
  | answered hstep =>
    obtain ⟨k', hanswer, -⟩ := simulates hk hstep
    generalize hr : Catalogue.driver.read (.ask q) res = r at hanswer
    cases hanswer with
    | answered => exact .inl hr
  | unsent hlost => exact .inr ⟨hlost, read_of_lost _ hlost⟩
  | unanswered _ hlost => exact .inr ⟨hlost, read_of_lost _ hlost⟩

/-! ## The states of a run -/

/-- `tables n` are the tables at which the `n`-th call of the log was answered, and `states n` is
the catalogue that they hold. The calls lead from each to the next, from `db` to what is there
now. -/
structure Chronicle {ι : Type} (db : Sql.Db) (c : Pool ι Sql.Db Call PGresult Error Response)
    (states : ℕ → Catalogue) (tables : ℕ → Sql.Db) : Prop where
  timeline : Pool.Timeline (Unreliable postgres Lost) db c tables
  represents : ∀ n ≤ c.log.length, Represents (states n) (tables n)
  grows : ∀ m n, m ≤ n → n ≤ c.log.length → states m ≤ states n

/-- The last one is what is there now. -/
theorem Chronicle.represents_shared {ι : Type} {db : Sql.Db}
    {c : Pool ι Sql.Db Call PGresult Error Response} {states : ℕ → Catalogue}
    {tables : ℕ → Sql.Db} (h : Chronicle db c states tables) :
    Represents (states c.log.length) c.shared :=
  h.timeline.last ▸ h.represents _ (Nat.le_refl _)

/-- Only the states up to the present one matter. -/
theorem Chronicle.congr {ι : Type} {db : Sql.Db} {c : Pool ι Sql.Db Call PGresult Error Response}
    {states states' : ℕ → Catalogue} {tables tables' : ℕ → Sql.Db}
    (h : Chronicle db c states tables)
    (heq : ∀ n ≤ c.log.length, states' n = states n ∧ tables' n = tables n) :
    Chronicle db c states' tables' where
  timeline := h.timeline.congr fun n hn ↦ (heq n hn).2
  represents n hn := by
    rw [(heq n hn).1, (heq n hn).2]
    exact h.represents n hn
  grows m n hmn hn := by
    rw [(heq m (Nat.le_trans hmn hn)).1, (heq n hn).1]
    exact h.grows m n hmn hn

section Pools

variable {ι : Type} (notImplementedYet : Error) (parse : String → Except Error Json)
  (junk : ι → List ℕ → Int32) (route : ι → Route) (req : ι → Request)

/-- What the clients do at the catalogue. -/
def atCatalogue (i : ι) : Catalogue.CatalogueProgram Response :=
  Catalogue.serve notImplementedYet parse (junk i) (route i) (req i)

theorem serve_eq_atCatalogue :
    (fun i ↦ serve notImplementedYet parse (junk i) (route i) (req i))
      = fun i ↦ (atCatalogue notImplementedYet parse junk route req i).via Catalogue.driver :=
  funext fun i ↦ Catalogue.serve_eq_via notImplementedYet parse (junk i) (route i) (req i)

/-- The service and the catalogue in step. -/
abbrev InStep (k : Catalogue) (db : Sql.Db)
    (c₀ : Pool ι Catalogue Catalogue.Op (Except Error Catalogue.Answer) Error Response)
    (c : Pool ι Sql.Db Call PGresult Error Response) (states : ℕ → Catalogue)
    (tables : ℕ → Sql.Db) : Prop :=
  Pool.Lockstep Catalogue.driver Catalogue.Remote (Unreliable postgres Lost) Represents k db c₀ c
    states tables

variable {notImplementedYet parse junk route req}

theorem InStep.chronicle {k : Catalogue} {db : Sql.Db}
    {c₀ : Pool ι Catalogue Catalogue.Op (Except Error Catalogue.Answer) Error Response}
    {c : Pool ι Sql.Db Call PGresult Error Response} {states : ℕ → Catalogue} {tables : ℕ → Sql.Db}
    (h : InStep k db c₀ c states tables) : Chronicle db c states tables where
  timeline := h.timeline'
  represents := h.states
  grows _ _ hmn hn :=
    h.timeline.le Catalogue.growing_remote hmn (h.related.log.length_eq ▸ hn)

variable [DecidableEq ι] {db : Sql.Db} {c : Pool ι Sql.Db Call PGresult Error Response}

theorem Served.exists_inStep (h : Served notImplementedYet parse junk db route req c)
    {k : Catalogue} (hk : Represents k db) : ∃ c₀ states tables,
      Pool.Reachable Catalogue.Remote k (atCatalogue notImplementedYet parse junk route req) c₀ ∧
        InStep k db c₀ c states tables := by
  rw [Served, serve_eq_atCatalogue] at h
  exact Pool.Reachable.exists_lockstep simulates_remote hk h

theorem Served.exists_chronicle (hdb : Stored db)
    (h : Served notImplementedYet parse junk db route req c) :
    ∃ (states : ℕ → Catalogue) (tables : ℕ → Sql.Db), Chronicle db c states tables := by
  obtain ⟨k, hk⟩ := exists_represents hdb
  obtain ⟨c₀, states, tables, -, hstep⟩ := h.exists_inStep hk
  exact ⟨states, tables, InStep.chronicle hstep⟩

/-- **Whatever is asked of the service, and however its connections fail, it is a catalogue.** Every
run is one of the catalogue behind a connection that can break. The calls are the requests of the
same clients, put to the server, and each is answered as it is there; the tables hold the states of
the catalogue, one by one; and the clients are at the same points of what they do there, so that
they have ended with the same responses and exceptions. -/
theorem exists_catalogue (hdb : Stored db) :
    ∃ k, Represents k db ∧ ∀ c, Served notImplementedYet parse junk db route req c →
      ∃ (c₀ : Pool ι Catalogue Catalogue.Op (Except Error Catalogue.Answer) Error Response)
        (states : ℕ → Catalogue) (tables : ℕ → Sql.Db),
        Pool.Reachable Catalogue.Remote k (atCatalogue notImplementedYet parse junk route req) c₀ ∧
        Pool.Related Catalogue.driver Represents c₀ c ∧
        Pool.Timeline Catalogue.Remote k c₀ states ∧ Chronicle db c states tables ∧
        ∀ i x, c.clients i = ofExcept x ↔ c₀.clients i = ofExcept x := by
  obtain ⟨k, hk⟩ := exists_represents hdb
  refine ⟨k, hk, fun c hc ↦ ?_⟩
  obtain ⟨c₀, states, tables, hreachable, hstep⟩ := hc.exists_inStep hk
  exact ⟨c₀, states, tables, hreachable, hstep.related, hstep.timeline, InStep.chronicle hstep,
    fun i x ↦ hstep.related.eq_ofExcept_iff⟩

end Pools

/-! ## A run -/

/-- Two students to be registered. -/
def hilbert : User := ⟨0, "David", "Hilbert", "david", some "s5", "david@example", "student"⟩

def klein : User := ⟨0, "Felix", "Klein", "felix", some "s6", "felix@example", "student"⟩

def parseStudents (_ : String) : Except Error Json :=
  .ok (.array [Json.document hilbert, Json.document klein])

theorem decode_students :
    deserializeEntitiesFromText User parseStudents (fun _ ↦ 0) "" true = .ok [hilbert, klein] := by
  decide

/-- What the macro throws in these runs. -/
def notYet : Error := .runtimeError "not implemented yet"

/-- The two students under the ids that they are given. -/
abbrev registered : List User := [Entity.setId hilbert 4, Entity.setId klein 5]

/-- The users that are there already. -/
def residents : List User :=
  [⟨1, "Emmy", "Noether", "emmy", none, "emmy@example", "teacher"⟩,
    ⟨2, "Grace", "Hopper", "grace", some "s1", "grace@example", "student"⟩,
    ⟨3, "Alan", "", "alan", some "s2", "alan@example", "student"⟩]

/-- One client registers the students, and another one asks for all users. -/
def registerAndList (register : Bool) : Request := ⟨if register then .POST else .GET, ""⟩

theorem follows_register :
    Follows (serve notYet parseStudents (fun _ ↦ 0) .users (registerAndList true))
      ((registered.map inserted).map Insertion.event) (.pure (response 201)) := by
  have hR : List.Forall₂ Renumbered [hilbert, klein] registered := .cons rfl (.cons rfl .nil)
  have hserve : serve notYet parseStudents (fun _ ↦ 0) .users (registerAndList true)
      = createEntities [hilbert, klein] >>= fun _ ↦ .pure (response 201) := by
    change usersRoute parseStudents (fun _ ↦ 0) ⟨.POST, ""⟩ = _
    rw [usersRoute_post, decode_students]
    rfl
  rw [hserve]
  exact (creates_users.runs hR).bind_pure fun _ ↦ response 201

/-- The tables after the first of the two. -/
def halfRegistered : Sql.Db := (inserted (Entity.setId hilbert 4)).apply campus

/-- The list is read between the two insertions, and the answer to the second one is lost. -/
def lostAnswer : Pool Bool Sql.Db Call PGresult Error Response where
  shared := (inserted (Entity.setId klein 5)).apply halfRegistered
  clients i := if i then .throw (.runtimeError "connection lost")
    else .pure ⟨200, some (Catalogue.page (residents ++ [Entity.setId hilbert 4]))⟩
  log := [(true, (inserted (Entity.setId hilbert 4)).event),
    (false, callOf "SELECT * FROM users" [],
      .ofRows (halfRegistered "users").columns (halfRegistered "users").rows),
    (true, (inserted (Entity.setId klein 5)).call, .failed "connection lost")]

theorem lostAnswer_served :
    Served notYet parseStudents (fun _ _ ↦ 0) campus (fun _ ↦ .users) registerAndList
      lostAnswer := by
  refine Pool.reachable_of_log ?_ fun i ↦ ?_
  · have hhilbert : postgres campus (inserted (Entity.setId hilbert 4)).call halfRegistered
        (.returned "id" 4) :=
      postgres_insertion_iff.mpr (.inr ⟨4, by decide, by decide, rfl, rfl⟩)
    have hlist : postgres halfRegistered (callOf "SELECT * FROM users" []) halfRegistered
        (.ofRows (halfRegistered "users").columns (halfRegistered "users").rows) :=
      (postgres_getAll_iff (E := User)).mpr ⟨rfl, rfl⟩
    have hklein : postgres halfRegistered (inserted (Entity.setId klein 5)).call
        lostAnswer.shared (.returned "id" 5) :=
      postgres_insertion_iff.mpr (.inr ⟨5, by decide, by decide, rfl, rfl⟩)
    exact .cons (.answered hhilbert) (.cons (.answered hlist)
      (.cons (.unanswered hklein (Sql.Result.status_failed _)) (.nil _)))
  · cases i with
    | true =>
      exact (failFast_serve notYet parseStudents (fun _ ↦ 0) .users
        (registerAndList true)).follows_fail (t := [(inserted (Entity.setId hilbert 4)).event])
        follows_register (List.forall_mem_singleton.mpr rfl) (refusal_failed _)
    | false => exact .cons (.nil _)

theorem exists_catalogue_lostAnswer :
    ∃ k, Represents k campus ∧
      ∃ (c₀ : Pool Bool Catalogue Catalogue.Op (Except Error Catalogue.Answer) Error Response)
        (states : ℕ → Catalogue) (tables : ℕ → Sql.Db),
        Pool.Reachable Catalogue.Remote k (atCatalogue notYet parseStudents (fun _ _ ↦ 0)
          (fun _ ↦ .users) registerAndList) c₀ ∧
        Pool.Related Catalogue.driver Represents c₀ lostAnswer ∧
        Pool.Timeline Catalogue.Remote k c₀ states ∧ Chronicle campus lostAnswer states tables ∧
        ∀ i x, lostAnswer.clients i = ofExcept x ↔ c₀.clients i = ofExcept x :=
  (exists_catalogue stored_campus).imp fun _ h ↦ ⟨h.1, h.2 lostAnswer lostAnswer_served⟩

end Sphinx.Backend
