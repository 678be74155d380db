import SphinxBackend.Backend.Creation
import SphinxBackend.Backend.Routes
import SphinxBackend.Backend.Schema

/-!
# What creation leaves in the tables

The walk of `createEntities` against the server. If every insertion is accepted, the tables have
gained one row for each entity of the walk, in its order. The row holds the entity as far as the
text reaches the server, which is up to the first NUL of each value.

If an insertion is refused, the request ends with the server's message. No statement undoes what
was inserted before, so exactly that remains.
-/

namespace Sphinx.Backend

open Db Nlohmann Interaction Program Collections

namespace Model

/-! ## The rows of a walk -/

theorem rowsInto_walk (cs : List Course) (t : String) :
    rowsInto t (cs.flatMap Course.walk) = cs.flatMap fun c ↦
      rowsInto t [inserted c] ++ rowsInto t (c.nested.map inserted) := by
  induction cs with
  | nil => rfl
  | cons c cs ih =>
    rw [List.flatMap_cons, rowsInto_append, ih, List.flatMap_cons, Course.walk,
      ← List.singleton_append, rowsInto_append]

theorem rowsInto_courses (cs : List Course) :
    rowsInto "courses" (cs.flatMap Course.walk) = cs.map fun c ↦ (inserted c).row := by
  rw [rowsInto_walk, List.map_eq_flatMap]
  refine List.flatMap_congr fun c _ ↦ ?_
  rw [rowsInto_map_inserted, if_neg (by decide), List.append_nil]
  exact rowsInto_map_inserted [c] "courses"

theorem rowsInto_modules (cs : List Course) :
    rowsInto "modules" (cs.flatMap Course.walk)
      = (cs.flatMap Course.nested).map fun m ↦ (inserted m).row := by
  rw [rowsInto_walk, List.map_flatMap]
  refine List.flatMap_congr fun c _ ↦ ?_
  have hcourse : rowsInto "modules" [inserted c] = [] :=
    (rowsInto_map_inserted [c] "modules").trans (if_neg (by decide))
  rw [hcourse, List.nil_append, rowsInto_map_inserted]
  exact if_pos rfl

theorem rowsInto_other (cs : List Course) {t : String} (hc : t ≠ "courses") (hm : t ≠ "modules") :
    rowsInto t (cs.flatMap Course.walk) = [] := by
  rw [rowsInto_walk]
  refine List.flatMap_eq_nil_iff.mpr fun c _ ↦ ?_
  have hcourse : rowsInto t [inserted c] = [] :=
    (rowsInto_map_inserted [c] t).trans (if_neg (Ne.symm hc))
  rw [hcourse, List.nil_append, rowsInto_map_inserted]
  exact if_neg (Ne.symm hm)

/-! ## Creation that succeeds -/

/-- The request has created the courses of `cs` with their modules and done nothing else: `calls`
were sent, the tables `db` have become `db₁`, and the vector `cs'`. -/
structure CreatedExactly (db : Sql.Db) (cs : List Course) (calls : List Call) (db₁ : Sql.Db)
    (cs' : List Course) : Prop where
  /-- Each course is inserted before its modules, and these in the order of the list. -/
  order : calls = (cs'.flatMap Course.walk).map Insertion.call
  /-- One new row for each course, with its values and the id it has now. -/
  courses : ∃ rows, (db₁ "courses").rows = (db "courses").rows ++ rows ∧
    List.Forall₂ Holds rows cs'
  /-- One new row for each nested module. -/
  modules : ∃ rows, (db₁ "modules").rows = (db "modules").rows ++ rows ∧
    List.Forall₂ Holds rows (cs'.flatMap Course.nested)
  others : ∀ t, t ≠ "courses" → t ≠ "modules" → (db₁ t).rows = (db t).rows
  /-- Only ids and the references of modules have changed, these to the id of the course. -/
  relinked : List.Forall₂ Course.Relinked cs cs'

theorem forall₂_holds_iff {E : Type} [Entity E] (es : List E) :
    List.Forall₂ Holds (es.map fun e ↦ (inserted e).row) es ↔ ∀ e ∈ es, NulFree e := by
  rw [List.forall₂_map_left_iff, List.forall₂_same]
  exact forall₂_congr fun e _ ↦ holds_row_iff e

theorem Course.nulFree_iff (c : Course) :
    NulFree c ↔ '\x00' ∉ c.title.toList ∧ ∀ s, c.description = some s → '\x00' ∉ s.toList := by
  have hcolumns : getInsertColumns Course = accessors.tail := rfl
  have howner : '\x00' ∉ (toString c.ownerId.toInt).toList :=
    Text.notMem_toString (by decide) (by decide) _
  have hdescription := ValueOf.toOptionalString_optional c.description
  rw [NulFree, hcolumns, accessors, List.tail_cons, List.forall_mem_cons, List.forall_mem_cons,
    List.forall_mem_singleton]
  constructor
  · rintro ⟨htitle, hdesc, -⟩
    exact ⟨htitle _ rfl, fun s hs ↦ hdesc s (hdescription.trans hs)⟩
  · rintro ⟨htitle, hdesc⟩
    refine ⟨?_, fun s hs ↦ hdesc s (hdescription.symm.trans hs), ?_⟩
    · rintro s ⟨⟩; exact htitle
    · rintro s ⟨⟩; exact howner

theorem Module.nulFree_iff (m : Module) :
    NulFree m ↔ '\x00' ∉ m.title.toList ∧ ∀ s, m.description = some s → '\x00' ∉ s.toList := by
  have hcolumns : getInsertColumns Module = accessors.tail := rfl
  have hcourse : '\x00' ∉ (toString m.courseId.toInt).toList :=
    Text.notMem_toString (by decide) (by decide) _
  have hdescription := ValueOf.toOptionalString_optional m.description
  rw [NulFree, hcolumns, accessors, List.tail_cons, List.forall_mem_cons, List.forall_mem_cons,
    List.forall_mem_singleton]
  constructor
  · rintro ⟨-, htitle, hdesc⟩
    exact ⟨htitle _ rfl, fun s hs ↦ hdesc s (hdescription.trans hs)⟩
  · rintro ⟨htitle, hdesc⟩
    refine ⟨?_, ?_, fun s hs ↦ hdesc s (hdescription.symm.trans hs)⟩
    · rintro s ⟨⟩; exact hcourse
    · rintro s ⟨⟩; exact htitle

/-- Whether something is cut off does not depend on the ids and the references. -/
theorem nulFree_iff_of_relinked {cs cs' : List Course}
    (h : List.Forall₂ Course.Relinked cs cs') :
    ((∀ c ∈ cs', NulFree c) ∧ ∀ m ∈ cs'.flatMap Course.nested, NulFree m) ↔
      ∀ c ∈ cs, NulFree c ∧ ∀ m ∈ c.nested, NulFree m := by
  have hmodule {i : Int32} {m m' : Module} (hm : m.Relinked i m') : NulFree m ↔ NulFree m' := by
    rw [Module.nulFree_iff, Module.nulFree_iff, hm]
  have hnested {c c' : Course} (hc : c.Relinked c') :
      (∀ m ∈ c.nested, NulFree m) ↔ ∀ m ∈ c'.nested, NulFree m := by
    have hlink := hc.link
    rw [Course.nested, Course.nested]
    generalize c.modules = l, c'.modules = l' at hlink
    cases hlink with
    | none => exact Iff.rfl
    | some hms => exact forall_mem_iff_of_forall₂ (fun _ _ hm ↦ hmodule hm) hms
  have hcourse {c c' : Course} (hc : c.Relinked c') :
      (NulFree c ∧ ∀ m ∈ c.nested, NulFree m) ↔ NulFree c' ∧ ∀ m ∈ c'.nested, NulFree m := by
    rw [hnested hc, Course.nulFree_iff c', hc.columns, Course.nulFree_iff c]
  -- what is asked of the modules of all courses is asked course by course
  rw [forall_mem_iff_of_forall₂ (fun _ _ hc ↦ hcourse hc) h, List.forall_mem_flatMap]
  exact forall₂_and.symm

theorem createdExactly_iff {db db' : Sql.Db} {cs cs' : List Course} {t : List (Call × PGresult)}
    (h : Runs postgres db (createEntities cs) t db' (.ok cs')) :
    CreatedExactly db cs (t.map Prod.fst) db' cs' ↔
      ∀ c ∈ cs, NulFree c ∧ ∀ m ∈ c.nested, NulFree m := by
  obtain ⟨rfl, hrelinked, hinserted⟩ := creates_courses.of_runs h
  rw [← nulFree_iff_of_relinked hrelinked]
  have hcourses := hinserted.rows "courses"
  have hmodules := hinserted.rows "modules"
  rw [rowsInto_courses] at hcourses
  rw [rowsInto_modules] at hmodules
  rw [← forall₂_holds_iff, ← forall₂_holds_iff]
  constructor
  · intro hexact
    obtain ⟨rows, hrows, hholds⟩ := hexact.courses
    obtain ⟨rows', hrows', hholds'⟩ := hexact.modules
    -- the rows added are known, so there is no choice left in what was created
    obtain rfl := List.append_cancel_left (hrows.symm.trans hcourses)
    obtain rfl := List.append_cancel_left (hrows'.symm.trans hmodules)
    exact ⟨hholds, hholds'⟩
  · rintro ⟨hholds, hholds'⟩
    refine ⟨by rw [List.map_map]; rfl, ⟨_, hcourses, hholds⟩, ⟨_, hmodules, hholds'⟩, ?_, hrelinked⟩
    intro t hc hm
    rw [hinserted.rows, rowsInto_other _ hc hm, List.append_nil]

/-- **If no insertion is refused, exactly the courses and their modules are created**, provided
that no value contains the character that ends a C string: the pointers handed to the server carry
no lengths. -/
theorem createEntities_createdExactly_iff {db db' : Sql.Db} {cs : List Course}
    {t : List (Call × PGresult)} {x : Except Error (List Course)}
    (h : Runs postgres db (createEntities cs) t db' x) (hok : ∀ y ∈ t, refusal y.2 = none) :
    ∃ cs', x = .ok cs' ∧ (CreatedExactly db cs (t.map Prod.fst) db' cs' ↔
      ∀ c ∈ cs, NulFree c ∧ ∀ m ∈ c.nested, NulFree m) := by
  obtain ⟨cs', rfl⟩ := creates_courses.returns_of_runs h hok
  exact ⟨cs', rfl, createdExactly_iff h⟩

/-- A run in which every insertion is accepted. -/
theorem runs_of_admits {db : Sql.Db} {cs cs' : List Course}
    (hR : List.Forall₂ Course.Relinked cs cs') (h : Admits db (cs'.flatMap Course.walk)) :
    Runs postgres db (createEntities cs) ((cs'.flatMap Course.walk).map Insertion.event)
      ((cs'.flatMap Course.walk).foldl (fun db x ↦ x.apply db) db) (.ok cs') :=
  ⟨creates_courses.runs hR, chain_of_admits h⟩

/-- A course with a module nested in it that refers to another course. -/
def algebra : Course := ⟨0, "Algebra", some "", 1, some [⟨0, 9, "Groups", some "1"⟩]⟩

def algebraCreated : Course := ⟨1, "Algebra", some "", 1, some [⟨4, 1, "Groups", some "1"⟩]⟩

theorem algebra_relinked : List.Forall₂ Course.Relinked [algebra] [algebraCreated] :=
  .cons ⟨rfl, .some (.cons rfl .nil)⟩ .nil

theorem algebra_createdExactly :
    CreatedExactly campus [algebra]
      ((([algebraCreated].flatMap Course.walk).map Insertion.event).map Prod.fst)
      (([algebraCreated].flatMap Course.walk).foldl (fun db x ↦ x.apply db) campus)
      [algebraCreated] := by
  have hrun := runs_of_admits algebra_relinked (show Admits campus _ by decide)
  obtain ⟨cs', hcs', hiff⟩ := createEntities_createdExactly_iff hrun refusal_of_mem_events
  obtain rfl := Except.ok.inj hcs'
  refine hiff.mpr (List.forall_mem_singleton.mpr ⟨(Course.nulFree_iff _).mpr ?_,
    List.forall_mem_singleton.mpr ((Module.nulFree_iff _).mpr ?_)⟩)
  · exact ⟨by decide, fun s hs ↦ by obtain rfl := Option.some.inj hs; decide⟩
  · exact ⟨by decide, fun s hs ↦ by obtain rfl := Option.some.inj hs; decide⟩

/-- A course whose title has a NUL in it is stored with half of its title. -/
theorem createEntities_truncates :
    ∃ cs' t db',
      Runs postgres campus (createEntities [⟨0, "a\x00b", some "", 1, none⟩]) t db' (.ok cs') ∧
      (∀ y ∈ t, refusal y.2 = none) ∧
      ¬CreatedExactly campus [⟨0, "a\x00b", some "", 1, none⟩] (t.map Prod.fst) db' cs' := by
  have hR : List.Forall₂ Course.Relinked [⟨0, "a\x00b", some "", 1, none⟩]
      [⟨1, "a\x00b", some "", 1, none⟩] := .cons ⟨rfl, .none⟩ .nil
  have hrun := runs_of_admits hR (show Admits campus _ by decide)
  refine ⟨_, _, _, hrun, refusal_of_mem_events, fun hexact ↦ ?_⟩
  have hcut := (createdExactly_iff hrun).mp hexact _ List.mem_cons_self
  exact ((Course.nulFree_iff _).mp hcut.1).1 (by decide)

end Model

/-! ## Creation that is refused -/

/-- The handlers that create. -/
inductive PostHandler where
  | users
  | courses
  | modules (courseId : Int32)

section Post

variable (parse : String → Except Error Json) (junk : List ℕ → Int32) (body : String)

def PostHandler.run : PostHandler → DbProgram Response
  | users => usersRoute parse junk ⟨.POST, body⟩
  | courses => coursesRoute parse junk ⟨.POST, body⟩
  | modules courseId => modulesRoute parse junk ⟨.POST, body⟩ courseId

/-- A complete creation of what the body holds makes these insertions. -/
def PostHandler.Plans : PostHandler → List Insertion → Prop
  | users, planned => ∃ es es',
    deserializeEntitiesFromText Model.User parse junk body true = .ok es ∧
      List.Forall₂ Renumbered es es' ∧ planned = es'.map inserted
  | courses, planned => ∃ es es',
    deserializeEntitiesFromText Model.Course parse junk body true = .ok es ∧
      List.Forall₂ Model.Course.Relinked es es' ∧ planned = es'.flatMap Model.Course.walk
  | modules _, planned => ∃ es es',
    deserializeEntitiesFromText Model.Module parse junk body true = .ok es ∧
      List.Forall₂ Renumbered es es' ∧ planned = es'.map inserted

/-- A request ended at a refusal somewhere in the planned insertions. Nothing was sent after it,
and what was inserted before it is there. -/
def StoppedMidway {α : Type} (db : Sql.Db) (planned : List Insertion) (t : List (Call × PGresult))
    (db' : Sql.Db) (x : Except Error α) : Prop :=
  ∃ done next rest message, planned = done ++ next :: rest ∧
    t = done.map Insertion.event ++ [(next.call, .failed message)] ∧
    x = .error (.runtimeError message) ∧
    (∀ tbl, (db' tbl).rows = (db tbl).rows ++ rowsInto tbl done) ∧
    ((∀ tbl, (db' tbl).rows = (db tbl).rows) ↔ done = [])

/-- Nothing remains exactly when the first insertion was the refused one. -/
theorem rows_eq_iff {db db' : Sql.Db} {done : List Insertion} (h : Inserted db done db') :
    (∀ tbl, (db' tbl).rows = (db tbl).rows) ↔ done = [] := by
  constructor
  · intro hrows
    cases done with
    | nil => rfl
    | cons x w =>
      have hx := (hrows x.table).symm.trans (h.rows x.table)
      have hinto : rowsInto x.table (x :: w) = [] := List.self_eq_append_right.mp hx
      rw [rowsInto, List.filter_cons, if_pos (decide_eq_true rfl), List.map_cons] at hinto
      exact absurd hinto (by simp)
  · rintro rfl tbl
    rw [h.rows, rowsInto_nil, List.append_nil]

theorem stoppedMidway_of_runs {E : Type} [Creatable E] {walk : List E → List Insertion}
    {R : List E → List E → Prop} (hcreates : Creates createEntities walk R)
    {entities : Except Error (List E)} {respond : List E → Except Error Response}
    {db db' : Sql.Db} {t : List (Call × PGresult)} {x : Except Error Response}
    (hrun : Runs postgres db (createAndRespond entities respond) t db' x)
    (hrefused : ∃ y ∈ t, refusal y.2 ≠ none) :
    ∃ es es', entities = .ok es ∧ R es es' ∧ StoppedMidway db (walk es') t db' x := by
  rcases runs_createAndRespond_iff.mp hrun with ⟨e, -, rfl, -⟩ | ⟨es, y, hes, hcreate, rfl⟩
  · obtain ⟨y, hy, -⟩ := hrefused
    exact absurd hy List.not_mem_nil
  · obtain ⟨es', done, next, rest, message, hR, hwalk, rfl, rfl, hinserted⟩ :=
      hcreates.stopped_of_runs hcreate hrefused
    exact ⟨es, es', hes, hR, done, next, rest, message, hwalk, rfl, rfl, hinserted.rows,
      rows_eq_iff hinserted⟩

/-- **A refused insertion ends the request, and what was inserted before it remains.** -/
theorem post_stoppedMidway {h : PostHandler} {db db' : Sql.Db} {t : List (Call × PGresult)}
    {x : Except Error Response} (hrun : Runs postgres db (h.run parse junk body) t db' x)
    (hrefused : ∃ y ∈ t, refusal y.2 ≠ none) :
    ∃ planned, h.Plans parse junk body planned ∧ StoppedMidway db planned t db' x := by
  cases h with
  | users =>
    rw [PostHandler.run, usersRoute_post] at hrun
    obtain ⟨es, es', hes, hR, hstop⟩ := stoppedMidway_of_runs Model.creates_users hrun hrefused
    exact ⟨_, ⟨es, es', hes, hR, rfl⟩, hstop⟩
  | courses =>
    rw [PostHandler.run, coursesRoute_post] at hrun
    obtain ⟨es, es', hes, hR, hstop⟩ := stoppedMidway_of_runs Model.creates_courses hrun hrefused
    exact ⟨_, ⟨es, es', hes, hR, rfl⟩, hstop⟩
  | modules courseId =>
    rw [PostHandler.run, modulesRoute_post] at hrun
    obtain ⟨es, es', hes, hR, hstop⟩ := stoppedMidway_of_runs Model.creates_modules hrun hrefused
    exact ⟨_, ⟨es, es', hes, hR, rfl⟩, hstop⟩

end Post

def byron : Model.User := ⟨0, "Ada", "Byron", "ada", some "s3", "byron@example", "student"⟩

/-- A user with the same user name, which the server does not accept twice. -/
def lovelace : Model.User :=
  ⟨0, "Ada", "Lovelace", "ada", some "s4", "lovelace@example", "student"⟩

def parseTwoUsers (_ : String) : Except Error Json :=
  .ok (.array [Json.document byron, Json.document lovelace])

theorem runs_twoUsers :
    ∃ t db₁, Runs postgres campus (PostHandler.users.run parseTwoUsers (fun _ ↦ 0) "") t db₁
        (.error (.runtimeError "duplicate key")) ∧ (∃ y ∈ t, refusal y.2 ≠ none) ∧
      (db₁ "users").rows.length = (campus "users").rows.length + 1 := by
  have hdecode : deserializeEntitiesFromText Model.User parseTwoUsers (fun _ ↦ 0) "" true
      = .ok [byron, lovelace] := by decide
  have hR : List.Forall₂ Renumbered [byron, lovelace]
      [Entity.setId byron 4, Entity.setId lovelace 5] := .cons rfl (.cons rfl .nil)
  have hwalk : [Entity.setId byron 4, Entity.setId lovelace 5].map inserted
      = [inserted (Entity.setId byron 4)] ++ inserted (Entity.setId lovelace 5) :: [] := rfl
  have hrun := runs_createAndRespond_of_error (Model.creates_users.runs_refused hR hwalk
    (show Admits campus _ by decide) "duplicate key") fun _ ↦ .ok (response 201)
  rw [← hdecode, ← usersRoute_post] at hrun
  exact ⟨_, _, hrun, ⟨_, List.mem_append_right _ List.mem_cons_self, by simp⟩, rfl⟩

/-- The first of the two users is left behind. -/
theorem post_not_atomic :
    ¬∀ (h : PostHandler) (parse : String → Except Error Json) (junk : List ℕ → Int32)
      (body : String) (db db' : Sql.Db) (t : List (Call × PGresult)) (x : Except Error Response),
      Runs postgres db (h.run parse junk body) t db' x → (∃ y ∈ t, refusal y.2 ≠ none) →
      ∀ tbl, (db' tbl).rows = (db tbl).rows := by
  intro hatomic
  obtain ⟨t, db', hrun, hrefused, hlen⟩ := runs_twoUsers
  have hrows := hatomic .users parseTwoUsers (fun _ ↦ 0) "" campus db' t _ hrun hrefused "users"
  rw [hrows] at hlen
  exact absurd hlen (Nat.ne_of_lt (Nat.lt_succ_self _))

theorem post_stoppedMidway_twoUsers :
    ∃ t db' planned, PostHandler.users.Plans parseTwoUsers (fun _ ↦ 0) "" planned ∧
      StoppedMidway campus planned t db'
        (.error (.runtimeError "duplicate key") : Except Error Response) := by
  obtain ⟨t, db', hrun, hrefused, -⟩ := runs_twoUsers
  exact ⟨t, db', post_stoppedMidway parseTwoUsers (fun _ ↦ 0) "" hrun hrefused⟩

end Sphinx.Backend
