import SphinxBackend.Backend.App
import SphinxBackend.Backend.Rows
import SphinxBackend.Db.Selection

/-!
# The reading operations agree

Five operations read a table, each with a statement of its own: all rows, those with a value in a
column, the one with an id, that one or an exception, and whether there is one. They decode the same
rows, so each can be told from the list that `get_all` gives. The id is spliced into the statement
as a number, and any other value is bound to a placeholder; a bound text ends at its first NUL, so a
username that contains one finds the users named by what comes before it.
-/

namespace Sphinx.Backend

open Db Interaction Program Collections

section Entity

variable {E : Type} [Entity E]

/-- The three operations that are given an id, told from the list of all entities. -/
structure ReadsById (db : Sql.Db) (es : List E) (id : Int32) : Prop where
  present : ∀ e ∈ es, Entity.id e = id →
    Yields postgres db (exists_ E id) db (.ok true) ∧
      Yields postgres db (findById E id) db (.ok (some e)) ∧
      Yields postgres db (getById E id) db (.ok e)
  absent : (∀ e ∈ es, Entity.id e ≠ id) →
    Yields postgres db (exists_ E id) db (.ok false) ∧
      Yields postgres db (findById E id) db (.ok none) ∧
      Yields postgres db (getById E id) db (.error .badOptionalAccess)

/-- The id of an entity is the key of its row. -/
theorem id_of_decodeRow {t : Sql.Table} (hkey : t.key = "id") {r : Sql.Row} (hr : r ∈ t.rows)
    {e : E} (h : decodeRow E r = .ok e) : r "id" = some (Sql.keyText (Entity.id e)) := by
  obtain ⟨i, hi⟩ := t.keys r hr
  rw [hkey] at hi
  have hcell : @CellHolds .int32 false (r "id") i := hi ▸ @cellHolds_toOptionalString .int32 false i
  rw [hi, show Entity.id e = i from get_of_decodeRow h idAccessor_mem hcell]

section Table

variable {db : Sql.Db} (hcolumns : HasColumns E (db (Entity.entityName E)))
  {es : List E} (hes : (db (Entity.entityName E)).rows.mapM (decodeRow E) = .ok es)

include hcolumns hes

theorem getAll_yields_of_decodes : Yields postgres db (getAll E) db (.ok es) := by
  have hyields := getAll_yields (E := E) db
  rwa [getRows_ofRows hcolumns, hes] at hyields

/-- A condition on a column chooses among all entities. -/
theorem getAllWhere_yields_filter {c : Condition E} (hop : c.operator = .eq)
    (hname : Sql.IsIdentifier (getNthColumnName E c.n))
    (hcolumn : getNthColumnName E c.n ∈ (db (Entity.entityName E)).columns) {q : E → Bool}
    (hq : ∀ r ∈ (db (Entity.entityName E)).rows, ∀ e, decodeRow E r = .ok e →
      Sql.equals (r (getNthColumnName E c.n)) (some (Text.cString (c.type.format c.value))) = q e) :
    Yields postgres db (getAllWhere c) db (.ok (es.filter q)) := by
  have hyields := getAllWhere_yields c hop hname hcolumn
  rwa [getRows_ofRows hcolumns, rowsWhere, mapM_filter hes hq] at hyields

theorem readsById_of_decodes (hkey : (db (Entity.entityName E)).key = "id") (id : Int32) :
    ReadsById db es id := by
  have hid : "id" ∈ (db (Entity.entityName E)).columns := hcolumns _ idAccessor_mem
  have hrows := mapM_eq_ok_iff.mp hes
  have hexists := @exists_yields E _ db id hid
  have hfound := @findById_yields E _ db id hid
  constructor
  · intro e he heid
    obtain ⟨r, hr, hdecode⟩ := exists_mem_of_forall₂ hrows.flip he
    have hrow : r "id" = some (Sql.keyText id) := heid ▸ id_of_decodeRow hkey hr hdecode
    -- the keys are distinct, so this is the only row
    have honly : rowsWithKey (db (Entity.entityName E)) id = [r] := by
      have hdistinct : ((db (Entity.entityName E)).rows.map fun r ↦ r "id").Nodup := by
        rw [← hkey]
        exact (db (Entity.entityName E)).keys_nodup
      refine filter_eq_singleton hdistinct hr fun x _ ↦ ?_
      rw [Sql.equals_some_iff, hrow]
    rw [honly, decide_eq_true (List.cons_ne_nil r [])] at hexists
    rw [honly, getRowResult_singleton hcolumns, hdecode] at hfound
    exact ⟨hexists, hfound, getById_yields hfound⟩
  · intro hnot
    have hnone : rowsWithKey (db (Entity.entityName E)) id = [] := by
      refine List.filter_eq_nil_iff.mpr fun r hr hequals ↦ ?_
      obtain ⟨e, he, hdecode⟩ := exists_mem_of_forall₂ hrows hr
      rw [Sql.equals_some_iff, id_of_decodeRow hkey hr hdecode] at hequals
      exact hnot e he (Sql.keyText_injective (Option.some.inj hequals))
    rw [hnone, decide_eq_false (not_not.mpr rfl)] at hexists
    rw [hnone, getRowResult_nil] at hfound
    exact ⟨hexists, hfound, getById_yields hfound⟩

end Table

/-- The rows that a definition admits are all decoded. -/
theorem exists_decodeRows {d : Sql.Definition} (hd : Readable E d) {t : Sql.Table}
    (ht : Conforms d t) : ∃ es, t.rows.mapM (decodeRow E) = .ok es :=
  mapM_exists_ok fun r hr ↦ exists_decodeRow hd (ht.admits r hr)

theorem hasColumns_of_conforms {d : Sql.Definition} (hd : Readable E d) {t : Sql.Table}
    (ht : Conforms d t) : HasColumns E t := by
  intro a ha
  obtain ⟨c, hc, hname, -⟩ := hd a ha
  rw [← hname]
  exact ht.columns c hc

end Entity

/-! ## The three tables -/

theorem readable_users : Readable Model.User usersDefinition := by decide

theorem readable_courses : Readable Model.Course coursesDefinition := by decide

theorem readable_modules : Readable Model.Module modulesDefinition := by decide

/-- The username of a user is that of the row. -/
theorem username_of_decodeRow {r : Sql.Row} (hr : usersDefinition.Admits r) {u : Model.User}
    (h : decodeRow Model.User r = .ok u) :
    r "username" = some u.username ∧ '\x00' ∉ u.username.toList := by
  have hmem : (⟨"username", .text, false⟩ : Sql.ColumnDefinition) ∈ usersDefinition.columns := by
    decide
  have hadmits := hr.column _ hmem
  obtain ⟨s, hs⟩ := Option.isSome_iff_exists.mp (hr.isSome hmem rfl)
  have haccessor : (⟨"username", Model.User.usernameColumn, Model.User.username,
      fun e v ↦ { e with username := v }⟩ : Accessor Model.User)
        ∈ Struct.accessors (E := Model.User) := by
    simp [Struct.accessors, Model.User.accessors]
  have hcell : @CellHolds .string false (r "username") s :=
    hs ▸ @cellHolds_toOptionalString .string false s
  have husername : u.username = s := get_of_decodeRow h haccessor hcell
  rw [hs] at hadmits
  exact ⟨husername ▸ hs, husername ▸ hadmits⟩

/-- The course of a module is that of the row. -/
theorem courseId_of_decodeRow {r : Sql.Row} (hr : modulesDefinition.Admits r) {m : Model.Module}
    (h : decodeRow Model.Module r = .ok m) : r "course_id" = some (Sql.keyText m.courseId) := by
  have hmem : (⟨"course_id", .integer, false⟩ : Sql.ColumnDefinition)
      ∈ modulesDefinition.columns := by decide
  have hadmits := hr.column _ hmem
  obtain ⟨s, hs⟩ := Option.isSome_iff_exists.mp (hr.isSome hmem rfl)
  rw [hs] at hadmits
  obtain ⟨i, rfl⟩ := hadmits
  have haccessor : (⟨"course_id", Model.Module.courseIdColumn, Model.Module.courseId,
      fun e v ↦ { e with courseId := v }⟩ : Accessor Model.Module)
        ∈ Struct.accessors (E := Model.Module) := by
    simp [Struct.accessors, Model.Module.accessors]
  have hcell : @CellHolds .int32 false (r "course_id") i :=
    hs ▸ @cellHolds_toOptionalString .int32 false i
  rw [hs, show m.courseId = i from get_of_decodeRow h haccessor hcell]

/-- What each operation reads, told from the lists of all users, courses and modules. -/
structure ReadsAgree (db : Sql.Db) (name : String) : Prop where
  users : ∃ us : List Model.User, Yields postgres db (getAll Model.User) db (.ok us) ∧
    (∀ id, ReadsById db us id) ∧
    Yields postgres db (DAO.findByColumn Model.User Model.User.usernameColumn name) db
      (.ok (us.filter fun u ↦ u.username = name))
  courses : ∃ cs : List Model.Course, Yields postgres db (getAll Model.Course) db (.ok cs) ∧
    ∀ id, ReadsById db cs id
  modules : ∃ ms : List Model.Module, Yields postgres db (getAll Model.Module) db (.ok ms) ∧
    (∀ id, ReadsById db ms id) ∧
    ∀ courseId, Yields postgres db (DAO.getModules courseId) db
      (.ok (ms.filter fun m ↦ m.courseId = courseId))

theorem findByUsername_yields {db : Sql.Db} (hdb : Conforms usersDefinition (db "users"))
    {us : List Model.User} (hus : (db "users").rows.mapM (decodeRow Model.User) = .ok us)
    (name : String) :
    Yields postgres db (DAO.findByColumn Model.User Model.User.usernameColumn name) db
      (.ok (us.filter fun u ↦ u.username = Text.cString name)) := by
  have hcolumns := hasColumns_of_conforms readable_users hdb
  have hname : getNthColumnName Model.User Model.User.usernameColumn.n = "username" := by decide
  have hcolumn : "username" ∈ (db "users").columns :=
    hdb.columns ⟨"username", .text, false⟩ (by decide)
  unfold DAO.findByColumn
  refine getAllWhere_yields_filter hcolumns hus rfl ?_ ?_ fun r hr u hu ↦ ?_
  · rw [hname]
    decide
  · rw [hname]
    exact hcolumn
  · rw [hname, (username_of_decodeRow (hdb.admits r hr) hu).1]
    rfl

theorem getModules_yields_filter {db : Sql.Db} (hdb : Conforms modulesDefinition (db "modules"))
    {ms : List Model.Module} (hms : (db "modules").rows.mapM (decodeRow Model.Module) = .ok ms)
    (courseId : Int32) : Yields postgres db (DAO.getModules courseId) db
      (.ok (ms.filter fun m ↦ m.courseId = courseId)) := by
  have hcolumns := hasColumns_of_conforms readable_modules hdb
  have hname : getNthColumnName Model.Module (DAO.inCourse courseId).n = "course_id" := rfl
  have hcolumn : "course_id" ∈ (db "modules").columns :=
    hdb.columns ⟨"course_id", .integer, false⟩ (by decide)
  refine getAllWhere_yields_filter hcolumns hms rfl ?_ ?_ fun r hr m hm ↦ ?_
  · rw [hname]
    decide
  · rw [hname]
    exact hcolumn
  · have htext : Text.cString ((DAO.inCourse courseId).type.format (DAO.inCourse courseId).value)
        = Sql.keyText courseId := Text.cString_toString courseId.toInt
    rw [hname, courseId_of_decodeRow (hdb.admits r hr) hm, htext, Sql.equals]
    exact decide_eq_decide.mpr Sql.keyText_injective.eq_iff

/-- Names are told apart by what comes before a NUL only if they contain none. -/
theorem filter_cString_eq_iff {us : List Model.User} (h : ∀ u ∈ us, '\x00' ∉ u.username.toList)
    (name : String) :
    (us.filter fun u ↦ u.username = Text.cString name) = (us.filter fun u ↦ u.username = name) ↔
      '\x00' ∉ name.toList ∨ ∀ u ∈ us, u.username ≠ Text.cString name := by
  by_cases hname : '\x00' ∈ name.toList
  · have hnone : (us.filter fun u ↦ u.username = name) = [] := by
      refine List.filter_eq_nil_iff.mpr fun u hu heq ↦ h u hu ?_
      rw [of_decide_eq_true heq]
      exact hname
    rw [hnone, List.filter_eq_nil_iff]
    simp [hname]
  · rw [Text.cString_eq_self_iff.mpr hname]
    exact iff_of_true rfl (.inl hname)

/-- The operations on users agree unless a username is asked for that contains a NUL and comes
after the name of a user up to there. -/
theorem usersAgree_iff {db : Sql.Db} (hdb : Conforms usersDefinition (db "users")) (name : String) :
    (∃ us : List Model.User, Yields postgres db (getAll Model.User) db (.ok us) ∧
        (∀ id, ReadsById db us id) ∧
        Yields postgres db (DAO.findByColumn Model.User Model.User.usernameColumn name) db
          (.ok (us.filter fun u ↦ u.username = name))) ↔
      '\x00' ∉ name.toList ∨ ∀ r ∈ (db "users").rows, r "username" ≠ some (Text.cString name) := by
  obtain ⟨us, hus⟩ := exists_decodeRows readable_users hdb
  have hcolumns := hasColumns_of_conforms readable_users hdb
  have hall : Yields postgres db (getAll Model.User) db (.ok us) :=
    getAll_yields_of_decodes hcolumns hus
  have hfound := findByUsername_yields hdb hus name
  have hrows : List.Forall₂ (fun r u ↦ usersDefinition.Admits r ∧ decodeRow Model.User r = .ok u)
      (db "users").rows us :=
    (List.forall₂_and_left _ _).mpr ⟨hdb.admits, mapM_eq_ok_iff.mp hus⟩
  have hnames : ∀ u ∈ us, '\x00' ∉ u.username.toList := by
    intro u hu
    obtain ⟨r, -, hr, hdecode⟩ := exists_mem_of_forall₂ hrows.flip hu
    exact (username_of_decodeRow hr hdecode).2
  have hcondition : (∀ r ∈ (db "users").rows, r "username" ≠ some (Text.cString name)) ↔
      ∀ u ∈ us, u.username ≠ Text.cString name := by
    refine forall_mem_iff_of_forall₂ (fun r u hru ↦ ?_) hrows
    rw [(username_of_decodeRow hru.1 hru.2).1, ne_eq, ne_eq, Option.some_inj]
  rw [hcondition, ← filter_cString_eq_iff hnames name]
  constructor
  · rintro ⟨us', hall', -, hfound'⟩
    obtain ⟨-, heq⟩ := hall.unique hall'
    obtain rfl := Except.ok.inj heq
    exact (Except.ok.inj (hfound.unique hfound').2).symm
  · intro heq
    exact ⟨us, hall, readsById_of_decodes hcolumns hus hdb.key, heq ▸ hfound⟩

/-- **The reading operations agree in every state of the database**, unless a username with a NUL
is asked for that begins with the whole name of a user. -/
theorem readsAgree_iff {db : Sql.Db} (hdb : Stored db) (name : String) :
    ReadsAgree db name ↔
      '\x00' ∉ name.toList ∨ ∀ r ∈ (db "users").rows, r "username" ≠ some (Text.cString name) := by
  rw [← usersAgree_iff hdb.users name]
  refine ⟨ReadsAgree.users, fun husers ↦ ⟨husers, ?_, ?_⟩⟩
  · obtain ⟨cs, hcs⟩ := exists_decodeRows readable_courses hdb.courses
    have hcolumns := hasColumns_of_conforms readable_courses hdb.courses
    exact ⟨cs, getAll_yields_of_decodes hcolumns hcs,
      readsById_of_decodes hcolumns hcs hdb.courses.key⟩
  · obtain ⟨ms, hms⟩ := exists_decodeRows readable_modules hdb.modules
    have hcolumns := hasColumns_of_conforms readable_modules hdb.modules
    exact ⟨ms, getAll_yields_of_decodes hcolumns hms,
      readsById_of_decodes hcolumns hms hdb.modules.key, getModules_yields_filter hdb.modules hms⟩

/-! ## A user of the campus -/

theorem readsAgree_alan : ReadsAgree campus "alan" :=
  (readsAgree_iff stored_campus "alan").mpr (.inl (by decide))

/-- Who asks for `alan\x00da` finds `alan`. -/
theorem not_readsAgree : ¬∀ db, Stored db → ∀ name, ReadsAgree db name := by
  intro h
  rcases (usersAgree_iff stored_campus.users "alan\x00da").mp (h _ stored_campus _).users with
    hname | hrows
  · exact hname (by decide)
  · exact hrows _ (List.mem_cons_of_mem _ (List.mem_cons_of_mem _ List.mem_cons_self)) (by decide)

end Sphinx.Backend
