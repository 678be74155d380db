import SphinxBackend.Backend.Creation
import SphinxBackend.Backend.Schema
import SphinxBackend.Db.Selection
import SphinxBackend.Sql.Placeholders

/-!
# The texts of the queries

Two runs of one operation on different values, side by side. The values go into the parameter lists
and the texts are put together from names and placeholders, so the two runs send the same texts for
as long as the server answers both alike: the programs are `Similar`. Where a number is spliced
into the text instead, the text is fixed around its decimal notation.
-/

namespace Sphinx.Backend

open Db Interaction Program Collections

/-- The query texts of a trace, in order. -/
def queries (t : List (Call × PGresult)) : List String := t.map fun y ↦ y.1.query

/-- The placeholders of the text are `$1`, `$2`, … and there is one parameter for each. -/
def Matched (c : Call) : Prop :=
  Sql.placeholders c.query = List.range' 1 c.paramValues.length

/-! ## Insertions -/

/-- Both insertions were accepted or both were refused. -/
def AnsweredAlike (r r' : PGresult) : Prop :=
  (IsReturned r ∧ IsReturned r') ∨
    (∃ message, r = .failed message) ∧ ∃ message, r' = .failed message

/-- The programs send the same texts and end alike. -/
abbrev SameTexts {α : Type} (p p' : DbProgram α) : Prop :=
  Similar (fun c c' ↦ c.query = c'.query) AnsweredAlike (fun _ _ ↦ True) p p'

section Generic

variable {E : Type} [Creatable E]

theorem sameTexts_insert (e e' : E) : SameTexts (insert e) (insert e') := by
  rw [insert_eq, insert_eq]
  refine .call (by rw [call_inserted, call_inserted]; rfl) fun r r' hr ↦ ?_
  rcases hr with ⟨⟨i, rfl⟩, i', rfl⟩ | ⟨⟨message, rfl⟩, message', rfl⟩
  · rw [insertResult_returned, insertResult_returned]
    exact .pure trivial
  · rw [insertResult_failed, insertResult_failed]
    exact .throw _ _

/-- From entities of the same shape to lists of them. -/
theorem sameTexts_createEntities {Shape : E → E → Prop}
    (hone : ∀ e e', Shape e e' → SameTexts (createOne e) (createOne e')) {es es' : List E}
    (h : List.Forall₂ Shape es es') : SameTexts (createEntities es) (createEntities es') := by
  induction h with
  | nil => exact .pure trivial
  | cons he _ ih =>
    rw [createEntities_cons, createEntities_cons]
    exact (hone _ _ he).bind fun _ _ _ ↦ ih.bind fun _ _ _ ↦ .pure trivial

theorem sameTexts_leaf
    (h : ∀ e : E, createOne e = insert e >>= fun i ↦ .pure (Entity.setId e i)) (e e' : E) :
    SameTexts (createOne e) (createOne e') := by
  rw [h, h]
  exact (sameTexts_insert e e').bind fun _ _ _ ↦ .pure trivial

/-- Entities without links are all of one shape. -/
theorem sameTexts_leaves
    (h : ∀ e : E, createOne e = insert e >>= fun i ↦ .pure (Entity.setId e i)) {es es' : List E}
    (hlength : es.length = es'.length) : SameTexts (createEntities es) (createEntities es') := by
  have hshape : List.Forall₂ (fun _ _ ↦ True) es es' :=
    List.forall₂_iff_get.mpr ⟨hlength, fun _ _ _ ↦ trivial⟩
  exact sameTexts_createEntities (fun e e' _ ↦ sameTexts_leaf h e e') hshape

end Generic

/-- The links of both courses are engaged, with equally many modules, or neither is. -/
def SameLinks (c c' : Model.Course) : Prop :=
  Option.Rel (fun ms ms' ↦ ms.length = ms'.length) c.modules c'.modules

theorem sameTexts_course {c c' : Model.Course} (h : SameLinks c c') :
    SameTexts (createOne c) (createOne c') := by
  rw [Model.createOne_course, Model.createOne_course]
  refine (sameTexts_insert c c').bind fun i i' _ ↦ ?_
  rw [SameLinks] at h
  generalize c.modules = l, c'.modules = l' at h
  cases h with
  | none => exact .pure trivial
  | some hlength =>
    refine (sameTexts_leaves (fun _ ↦ rfl) ?_).bind fun _ _ _ ↦ .pure trivial
    rw [List.length_map, List.length_map, hlength]

/-! ## The parameters of a text -/

/-- No name of the entity looks like a placeholder. -/
def PlainNames (E : Type) [Entity E] : Prop :=
  ∀ w ∈ (insertStatement E).names, Sql.readPlaceholder w = none

instance (E : Type) [Entity E] : Decidable (PlainNames E) :=
  inferInstanceAs (Decidable (∀ _ ∈ _, _))

theorem matched_insert {E : Type} [Entity E] (h : PlainNames E) (e : E) :
    Matched (inserted e).call := by
  have hlength : (inserted e).call.paramValues.length = (getInsertColumns E).length := by
    rw [call_inserted, makeValueList_getValuesToInsert]
    exact (List.length_map _).trans (List.length_map _)
  have hquery : (inserted e).call.query = (insertStatement E).render := by
    rw [call_inserted, ← prepareInsertQuery_eq]
    rfl
  rw [Matched, hlength, hquery, Sql.placeholders_render (insertStatement_wellFormed E) h]
  rfl

theorem sends_insert_matched {E : Type} [Entity E] (h : PlainNames E) (e : E) :
    Sends Matched (insert e) := by
  rw [insert_eq]
  exact .call (matched_insert h e) fun r ↦ .ofExcept _

/-- From the insertion of an entity without links to the creation of a list of them. -/
theorem matched_leaves {E : Type} [Creatable E] (hnames : PlainNames E)
    (h : ∀ e : E, createOne e = insert e >>= fun i ↦ .pure (Entity.setId e i)) (es : List E) :
    Sends Matched (createEntities es) :=
  closed_entities (Sends.bindClosed Matched)
    (closed_leaf (Sends.bindClosed Matched) (sends_insert_matched hnames) h) es

theorem plainNames_user : PlainNames Model.User := by decide

theorem plainNames_course : PlainNames Model.Course := by decide

theorem plainNames_module : PlainNames Model.Module := by decide

theorem sends_matched_users (us : List Model.User) : Sends Matched (createEntities us) :=
  matched_leaves plainNames_user (fun _ ↦ rfl) us

theorem sends_matched_modules (ms : List Model.Module) : Sends Matched (createEntities ms) :=
  matched_leaves plainNames_module (fun _ ↦ rfl) ms

theorem sends_matched_courses (cs : List Model.Course) : Sends Matched (createEntities cs) :=
  closed_entities (Sends.bindClosed Matched)
    (Model.closed_course (Sends.bindClosed Matched) (sends_insert_matched plainNames_course)
      sends_matched_modules) cs

/-- The one parameter of a selection by a column. -/
theorem matched_getAllWhere {E : Type} [Entity E] {c : Condition E} (hop : c.operator = .eq)
    (hname : Sql.IsIdentifier (getNthColumnName E c.n))
    (hplain : ∀ w ∈ [Entity.entityName E, getNthColumnName E c.n], Sql.readPlaceholder w = none) :
    Sends Matched (getAllWhere c) := by
  refine .call ?_ fun r ↦ .ofExcept _
  have hwf : (Sql.Statement.selectWhere (Entity.entityName E)
      ⟨getNthColumnName E c.n, .eq, .param 1⟩).WellFormed :=
    Sql.Statement.wellFormed_selectWhere_iff.mpr ⟨Entity.entityName_identifier, hname⟩
  change Sql.placeholders ("SELECT * FROM " ++ Entity.entityName E ++ " WHERE " ++ c.str "$1") = _
  rw [getAllWhereText_eq, hop, Sql.placeholders_render hwf hplain]
  rfl

/-! ## Operations with values from a request -/

inductive Operation where
  | findUsers (name : String)
  | getModules (courseId : Int32)
  | createUsers (users : List Model.User)
  | createModules (modules : List Model.Module)
  | createCourses (courses : List Model.Course)

/-- The program, whose result does not matter here. -/
def Operation.run : Operation → DbProgram Unit
  | findUsers name => Backend.findUsers name >>= fun _ ↦ .pure ()
  | getModules courseId => DAO.getModules courseId >>= fun _ ↦ .pure ()
  | createUsers users => createEntities users >>= fun _ ↦ .pure ()
  | createModules modules => createEntities modules >>= fun _ ↦ .pure ()
  | createCourses courses => createEntities courses >>= fun _ ↦ .pure ()

/-- The same operation on equally many things with the same links engaged. -/
def Operation.SameShape : Operation → Operation → Prop
  | findUsers _, findUsers _ => True
  | getModules _, getModules _ => True
  | createUsers us, createUsers us' => us.length = us'.length
  | createModules ms, createModules ms' => ms.length = ms'.length
  | createCourses cs, createCourses cs' => List.Forall₂ SameLinks cs cs'
  | _, _ => False

/-- As far as both runs go, they get results of the same status. -/
def SameStatuses (t t' : List (Call × PGresult)) : Prop :=
  ∀ y ∈ t.zip t', y.1.2.status = y.2.2.status

/-- The result of a program dropped. -/
theorem runs_of_runs_unit {α : Type} {p : DbProgram α} {db db' : Sql.Db}
    {t : List (Call × PGresult)} {x : Except Error Unit}
    (h : Runs postgres db (p >>= fun _ ↦ .pure ()) t db' x) : ∃ y, Runs postgres db p t db' y := by
  obtain ⟨y, hy, -⟩ := (runs_bind_ofExcept_iff (g := fun _ ↦ .ok ())).mp h
  exact ⟨y, hy⟩

theorem queries_query {α : Type} {text : String} {args : ValueList}
    {read : PGresult → Except Error α} {t : List (Call × PGresult)} {x : Except Error α}
    (h : Follows (query text args read) t (.ofExcept x)) : queries t = [text] := by
  rw [query_eq] at h
  obtain ⟨r, u, rfl, hu⟩ := follows_call_ofExcept h
  rw [(follows_ofExcept_iff.mp hu).1]
  rfl

theorem queries_getAllWhere {E : Type} [Entity E] {c : Condition E} (hop : c.operator = .eq)
    {t : List (Call × PGresult)} {x : Except Error (List E)}
    (h : Follows (getAllWhere c) t (.ofExcept x)) :
    queries t = [(Sql.Statement.selectWhere (Entity.entityName E)
      ⟨getNthColumnName E c.n, .eq, .param 1⟩).render] := by
  rw [← hop, ← getAllWhereText_eq]
  exact queries_query h

/-- The server answers an insertion with a row or with an error. -/
theorem answered_of_runs {α : Type} {p : DbProgram α} (hp : Sends IsInsertion p) {db db' : Sql.Db}
    {t : List (Call × PGresult)} {x : Except Error α} (h : Runs postgres db p t db' x) :
    ∀ y ∈ t, IsReturned y.2 ∨ ∃ message, y.2 = .failed message := by
  intro y hy
  obtain ⟨w, hw⟩ := hp.of_mem h.1 y hy
  obtain ⟨s₁, s₂, hstep⟩ := h.2.answered y hy
  rw [hw] at hstep
  rcases postgres_insertion_iff.mp hstep with ⟨message, -, hres⟩ | ⟨i, -, -, -, hres⟩
  · exact .inr ⟨message, hres⟩
  · exact .inl ⟨i, hres⟩

theorem queries_eq_of_sameTexts {α : Type} {p p' : DbProgram α} (h : SameTexts p p')
    (hp : Sends IsInsertion p) (hp' : Sends IsInsertion p') {db₁ db₁' db₂ db₂' : Sql.Db}
    {t t' : List (Call × PGresult)} {x x' : Except Error α} (hrun : Runs postgres db₁ p t db₂ x)
    (hrun' : Runs postgres db₁' p' t' db₂' x') (hstatus : SameStatuses t t') :
    queries t = queries t' := by
  have halike : ∀ y ∈ t.zip t', AnsweredAlike y.1.2 y.2.2 := by
    intro y hy
    obtain ⟨hmem, hmem'⟩ := List.of_mem_zip hy
    have hsame := hstatus y hy
    -- the status tells an accepted insertion from a refused one
    rcases answered_of_runs hp hrun _ hmem with ⟨i, hi⟩ | hfailed
    · rcases answered_of_runs hp' hrun' _ hmem' with hreturned | ⟨message, hmessage⟩
      · exact .inl ⟨⟨i, hi⟩, hreturned⟩
      · rw [hi, hmessage] at hsame
        exact absurd hsame (by simp)
    · rcases answered_of_runs hp' hrun' _ hmem' with ⟨i, hi⟩ | hfailed'
      · obtain ⟨message, hmessage⟩ := hfailed
        rw [hi, hmessage] at hsame
        exact absurd hsame (by simp)
      · exact .inr ⟨hfailed, hfailed'⟩
  have htexts := h.forall₂ hrun.1 hrun'.1 halike
  rw [queries, queries, ← List.forall₂_eq_eq_eq, List.forall₂_map_left_iff,
    List.forall₂_map_right_iff]
  exact htexts

theorem sends_matched_findUsers (name : String) : Sends Matched (findUsers name) := by
  refine matched_getAllWhere rfl (show Sql.IsIdentifier "username" by decide) ?_
  exact show ∀ w ∈ ["users", "username"], Sql.readPlaceholder w = none by decide

theorem sends_matched_getModules (courseId : Int32) :
    Sends Matched (DAO.getModules courseId) := by
  refine matched_getAllWhere rfl (show Sql.IsIdentifier "course_id" by decide) ?_
  exact show ∀ w ∈ ["modules", "course_id"], Sql.readPlaceholder w = none by decide

/-- The operation sends no text in which placeholders and parameters do not match. -/
theorem Operation.sends_matched (o : Operation) : Sends Matched o.run := by
  cases o with
  | findUsers name => exact (sends_matched_findUsers name).bind fun _ ↦ .pure _
  | getModules courseId => exact (sends_matched_getModules courseId).bind fun _ ↦ .pure _
  | createUsers us => exact (sends_matched_users us).bind fun _ ↦ .pure _
  | createModules ms => exact (sends_matched_modules ms).bind fun _ ↦ .pure _
  | createCourses cs => exact (sends_matched_courses cs).bind fun _ ↦ .pure _

theorem Operation.queries_eq {o o' : Operation} {db₁ db₁' db₂ db₂' : Sql.Db}
    {t t' : List (Call × PGresult)} {x x' : Except Error Unit} (hshape : o.SameShape o')
    (hrun : Runs postgres db₁ o.run t db₂ x) (hrun' : Runs postgres db₁' o'.run t' db₂' x')
    (hstatus : SameStatuses t t') : queries t = queries t' := by
  -- operations of different kinds have no common shape
  cases o <;> cases o' <;> try exact absurd hshape id
  case findUsers.findUsers name name' =>
    obtain ⟨y, hy⟩ := runs_of_runs_unit hrun
    obtain ⟨y', hy'⟩ := runs_of_runs_unit hrun'
    exact (queries_getAllWhere rfl hy.1).trans (queries_getAllWhere rfl hy'.1).symm
  case getModules.getModules courseId courseId' =>
    obtain ⟨y, hy⟩ := runs_of_runs_unit hrun
    obtain ⟨y', hy'⟩ := runs_of_runs_unit hrun'
    exact (queries_getAllWhere rfl hy.1).trans (queries_getAllWhere rfl hy'.1).symm
  case createUsers.createUsers us us' =>
    obtain ⟨y, hy⟩ := runs_of_runs_unit hrun
    obtain ⟨y', hy'⟩ := runs_of_runs_unit hrun'
    exact queries_eq_of_sameTexts (sameTexts_leaves (fun _ ↦ rfl) hshape)
      (Model.creates_users.sends us) (Model.creates_users.sends us') hy hy' hstatus
  case createModules.createModules ms ms' =>
    obtain ⟨y, hy⟩ := runs_of_runs_unit hrun
    obtain ⟨y', hy'⟩ := runs_of_runs_unit hrun'
    exact queries_eq_of_sameTexts (sameTexts_leaves (fun _ ↦ rfl) hshape)
      (Model.creates_modules.sends ms) (Model.creates_modules.sends ms') hy hy' hstatus
  case createCourses.createCourses cs cs' =>
    obtain ⟨y, hy⟩ := runs_of_runs_unit hrun
    obtain ⟨y', hy'⟩ := runs_of_runs_unit hrun'
    exact queries_eq_of_sameTexts (sameTexts_createEntities (fun _ _ ↦ sameTexts_course) hshape)
      (Model.creates_courses.sends cs) (Model.creates_courses.sends cs') hy hy' hstatus

/-! ## Operations with a spliced number -/

/-- The one text sent is fixed but for the decimal notation of the id. -/
def SplicesDecimal {α : Type} (p : Int32 → DbProgram α) : Prop :=
  ∃ before after, ∀ id : Int32, Text.IsDecimal (toString id.toInt) ∧
    ∀ t x, Follows (p id) t (.ofExcept x) → queries t = [before ++ toString id.toInt ++ after]

theorem splicesDecimal_findById (E : Type) [Entity E] : SplicesDecimal (findById E) := by
  refine ⟨"SELECT * FROM " ++ Entity.entityName E ++ " WHERE " ++ getIdColumnName E ++ " = ", "",
    fun id ↦ ⟨Text.isDecimal_toString _, fun t x h ↦ ?_⟩⟩
  rw [String.append_empty]
  exact queries_query h

theorem splicesDecimal_exists (E : Type) [Entity E] : SplicesDecimal (exists_ E) :=
  ⟨_, ")", fun _ ↦ ⟨Text.isDecimal_toString _, fun _ _ h ↦ queries_query h⟩⟩

/-- **No value from a request reaches the text of a query**, but for ids in decimal notation. -/
theorem queries_independent :
    (∀ (o o' : Operation) (db₁ db₁' db₂ db₂' : Sql.Db) (t t' : List (Call × PGresult))
        (x x' : Except Error Unit), o.SameShape o' → Runs postgres db₁ o.run t db₂ x →
        Runs postgres db₁' o'.run t' db₂' x' → SameStatuses t t' →
        queries t = queries t' ∧ (∀ y ∈ t, Matched y.1) ∧ ∀ y ∈ t', Matched y.1) ∧
      ∀ (E : Type) [Entity E], SplicesDecimal (findById E) ∧ SplicesDecimal (exists_ E) := by
  refine ⟨fun o o' db₁ db₁' db₂ db₂' t t' x x' hshape hrun hrun' hstatus ↦ ?_, fun E _ ↦
    ⟨splicesDecimal_findById E, splicesDecimal_exists E⟩⟩
  exact ⟨Operation.queries_eq hshape hrun hrun' hstatus, o.sends_matched.of_mem hrun.1,
    o'.sends_matched.of_mem hrun'.1⟩

def plain : Model.User := ⟨4, "Ada", "Byron", "ada", some "s3", "ada@example", "student"⟩

/-- A user whose name would be a statement, were it part of the text. -/
def quoted : Model.User := ⟨4, "Ada", "", "'; DROP TABLE users --", some "$7", "", "student"⟩

theorem runs_createUser {u : Model.User} (h : Admits campus [inserted u]) :
    Runs postgres campus (Operation.createUsers [u]).run [(inserted u).event]
      ((inserted u).apply campus) (.ok ()) := by
  have hR : List.Forall₂ Renumbered [u] [u] := .cons rfl .nil
  exact (runs_bind_ofExcept_iff (g := fun _ ↦ .ok ())).mpr
    ⟨.ok [u], ⟨Model.creates_users.runs hR, chain_of_admits h⟩, rfl⟩

theorem queries_independent_quoted :
    queries [(inserted plain).event] = queries [(inserted quoted).event] ∧
      (∀ y ∈ [(inserted plain).event], Matched y.1) ∧
      (∀ y ∈ [(inserted quoted).event], Matched y.1) ∧
      SplicesDecimal (findById Model.User) := by
  obtain ⟨hqueries, hplain, hquoted⟩ := queries_independent.1 (.createUsers [plain])
    (.createUsers [quoted]) campus campus _ _ _ _ _ _ rfl (runs_createUser (by decide))
    (runs_createUser (by decide)) (List.forall_mem_singleton.mpr rfl)
  exact ⟨hqueries, hplain, hquoted, (queries_independent.2 Model.User).1⟩

end Sphinx.Backend
