import SphinxBackend.Backend.Creation
import SphinxBackend.Backend.Schema
import SphinxBackend.Db.Selection

/-!
# Reading what was written

What the selections find after an insertion, through the table in between. An entity is written by
a statement that names its columns and read by looking the same names up, so the physical order of
the columns and whatever else is in the table do not matter. What comes back is the entity under
its new id, as far as it consists of columns.
-/

namespace Sphinx.Backend

open Db Nlohmann Interaction Program Collections

/-! ## An entity -/

section Entity

variable {E : Type} [Creatable E]

/-- `e` was inserted under the id `i`, which made `db` into `db'`, and is read back as `e'`. -/
structure ReadBack (e : E) (i : Int32) (db db' : Sql.Db) (e' : E) : Prop where
  found : Yields postgres db' (findById E i) db' (.ok (some e'))
  listed : ∀ v, Yields postgres db (getAll E) db (.ok v) →
    Yields postgres db' (getAll E) db' (.ok (v ++ [e']))
  /-- What creation has made of `e` when the id was `i` has the same document. -/
  encoded : ∀ t e'', Follows (createEntities [e])
      (((inserted e).call, .returned "id" i) :: t) (.pure [e'']) →
    Json.toJson e'' = Json.toJson e'

/-- Creating one entity gives it the id of its row and leaves the other columns alone. -/
def KeepsColumns (E : Type) [Creatable E] : Prop :=
  ∀ (e e'' : E) (i : Int32) (t : List (Call × PGresult)),
    Follows (createOne e) (((inserted e).call, .returned "id" i) :: t) (.pure e'') →
    SameColumns e e'' ∧ Entity.id e'' = i

theorem follows_insert_rest {α : Type} {e : E} {f : Int32 → DbProgram α} {i : Int32}
    {t : List (Call × PGresult)} {q : DbProgram α}
    (h : Follows (insert e >>= f) (((inserted e).call, .returned "id" i) :: t) q) :
    Follows (f i) t q := by
  rw [insert_eq, call_bind] at h
  have hrest := (follows_call_cons_iff.mp h).2
  rwa [insertResult_returned, ofExcept_ok, pure_bind] at hrest

theorem keepsColumns_leaf
    (h : ∀ e : E, createOne e = insert e >>= fun i ↦ .pure (Entity.setId e i)) :
    KeepsColumns E := by
  intro e e'' i t hf
  rw [h] at hf
  have hrest := follows_insert_rest hf
  rw [Program.pure.inj (follows_pure_iff.mp hrest).2]
  exact ⟨sameColumns_setId e i, id_setId e i⟩

theorem keepsColumns_course : KeepsColumns Model.Course := by
  intro c c'' i t hf
  rw [Model.createOne_course] at hf
  have hrest := follows_insert_rest hf
  cases hm : c.modules with
  | none =>
    rw [hm] at hrest
    rw [Program.pure.inj (follows_pure_iff.mp hrest).2]
    exact ⟨c.sameColumns i none, rfl⟩
  | some ms =>
    rw [hm] at hrest
    obtain ⟨ms', -, rfl⟩ := hrest.of_bind_pure
    exact ⟨c.sameColumns i (some ms'), rfl⟩

/-- A document shows the columns and nothing else. -/
theorem toJson_congr {e e' : E} (hid : Entity.id e = Entity.id e') (h : SameColumns e' e) :
    Json.toJson e = Json.toJson e' := by
  rw [Json.toJson_eq, Json.toJson_eq, Json.document, Json.document]
  refine congrArg _ (congrArg _ (List.map_congr_left fun a ha ↦ ?_))
  have hget : a.get e = a.get e' := by
    rcases mem_accessors_iff.mp ha with rfl | hins
    · exact hid
    · exact h a hins
  rw [Json.columnToJson, Json.columnToJson, hget]

theorem sameColumns_columnsOnly (e : E) : SameColumns (columnsOnly e) e := fun a ha ↦ by
  rw [columnsOnly, get_writeAll _ _ (mem_accessors_of_mem_insertColumns ha), Option.getD_some]

theorem id_columnsOnly (e : E) : Entity.id (columnsOnly e) = Entity.id e :=
  get_writeAll (fun a ↦ some (a.get e)) Entity.init idAccessor_mem

/-- What creation makes of an entity has the document of what is stored of it. -/
theorem toJson_of_createEntities (hkeeps : KeepsColumns E) {e e'' : E} {i : Int32}
    {t : List (Call × PGresult)}
    (hf : Follows (createEntities [e]) (((inserted e).call, .returned "id" i) :: t) (.pure [e''])) :
    Json.toJson e'' = Json.toJson (columnsOnly (Entity.setId e i)) := by
  rw [createEntities_cons] at hf
  obtain ⟨e₁, t₁, t₂, ht, h₁, h₂⟩ := hf.of_bind
  -- nothing is sent after the one entity
  obtain ⟨rfl, he⟩ := follows_pure_iff.mp h₂
  obtain rfl : e'' = e₁ := by simpa using Program.pure.inj he
  rw [List.append_nil] at ht
  rw [← ht] at h₁
  obtain ⟨hsame, hid⟩ := hkeeps _ _ _ _ h₁
  refine toJson_congr (by rw [hid, id_columnsOnly, id_setId]) fun a ha ↦ ?_
  rw [hsame a ha, ← sameColumns_columnsOnly (Entity.setId e i) a ha, sameColumns_setId e i a ha]

/-- The new row holds the entity under its new id. -/
theorem holds_of_arriveUnchanged {e : E}
    (h : ArriveUnchanged (makeValueList (getValuesToInsert e))) (i : Int32) :
    Holds (inserted (Entity.setId e i)).row (Entity.setId e i) := by
  refine (holds_row_iff _).mpr fun a ha s hs ↦ ?_
  rw [sameColumns_setId e i a ha] at hs
  exact nulFree_of_arriveUnchanged h a ha s hs

/-- An inserted entity comes back with its columns under its new id. -/
theorem readBack_of_runs (hkeeps : KeepsColumns E) {e : E} {i : Int32} {db db' : Sql.Db}
    {t : List (Call × PGresult)} (harrive : ArriveUnchanged (makeValueList (getValuesToInsert e)))
    (hrun : Runs postgres db (insert e) t db' (.ok i)) :
    ReadBack e i db db' (columnsOnly (Entity.setId e i)) := by
  obtain ⟨hinserted, hfresh⟩ := inserted_of_runs hrun
  have hdecode := (holds_of_arriveUnchanged harrive i).decodeRow
  -- the insertion named the columns, so the table has them, before and after
  have hbefore : HasColumns E (db (Entity.entityName E)) :=
    hasColumns_of_fits (hinserted.fits _ (List.mem_singleton.mpr rfl))
  have hcolumns : HasColumns E (db' (Entity.entityName E)) := by
    rw [HasColumns, hinserted.columns]
    exact hbefore
  refine ⟨?_, fun v hv ↦ ?_, fun u e'' ↦ toJson_of_createEntities hkeeps⟩
  · have hrow : rowsWithKey (db' (Entity.entityName E)) i
        = [(inserted (Entity.setId e i)).row] := by
      have h := rowsWithKey_of_inserted hinserted (by rw [id_setId]; exact hfresh)
      rwa [id_setId] at h
    have hfound : Yields postgres db' (findById E i) db' _ :=
      findById_yields (hcolumns _ idAccessor_mem)
    rw [hrow, getRowResult_singleton hcolumns, hdecode] at hfound
    exact hfound
  · have hall := getAll_yields (E := E) db'
    rw [hinserted.rows, rowsInto_inserted, getRows_ofRows hcolumns] at hall
    obtain ⟨-, hold⟩ := (getAll_yields db).unique hv
    rw [getRows_ofRows hbefore] at hold
    have hnew : [(inserted (Entity.setId e i)).row].mapM (decodeRow E)
        = .ok [columnsOnly (Entity.setId e i)] := by
      rw [List.mapM_cons, hdecode]
      rfl
    rw [mapM_append_ok hold.symm hnew] at hall
    exact hall

end Entity

/-- **Read your write**: an inserted user or module comes back as it is under its new id, and an
inserted course with its link empty. -/
theorem insert_readBack {db db' : Sql.Db} {t : List (Call × PGresult)} {i : Int32} :
    (∀ e : Model.User, ArriveUnchanged (makeValueList (getValuesToInsert e)) →
        Runs postgres db (insert e) t db' (.ok i) → ReadBack e i db db' { e with id := i }) ∧
      (∀ e : Model.Course, ArriveUnchanged (makeValueList (getValuesToInsert e)) →
        Runs postgres db (insert e) t db' (.ok i) →
        ReadBack e i db db' { e with id := i, modules := none }) ∧
      ∀ e : Model.Module, ArriveUnchanged (makeValueList (getValuesToInsert e)) →
        Runs postgres db (insert e) t db' (.ok i) → ReadBack e i db db' { e with id := i } :=
  ⟨fun _ ↦ readBack_of_runs (keepsColumns_leaf fun _ ↦ rfl),
    fun _ ↦ readBack_of_runs keepsColumns_course,
    fun _ ↦ readBack_of_runs (keepsColumns_leaf fun _ ↦ rfl)⟩

/-- An insertion the server may accept. -/
theorem runs_insert_of_admits {E : Type} [Entity E] {e : E} {i : Int32} {db : Sql.Db}
    (h : Admits db [inserted (Entity.setId e i)]) :
    Runs postgres db (insert e) [((inserted e).call, .returned "id" i)]
      ((inserted (Entity.setId e i)).apply db) (.ok i) := by
  have hevent : (inserted (Entity.setId e i)).event = ((inserted e).call, .returned "id" i) := by
    rw [(sameColumns_setId e i).event_eq, id_setId]
  have hchain := chain_of_admits h
  rw [List.map_singleton, hevent] at hchain
  refine ⟨?_, hchain⟩
  rw [insert_eq]
  refine .cons ?_
  rw [insertResult_returned]
  exact .nil _

theorem insert_readBack_each :
    (∃ db', ReadBack ⟨0, "Kurt", "", "kurt", some "s3", "kurt@example", "student"⟩ 4 campus db'
        (⟨4, "Kurt", "", "kurt", some "s3", "kurt@example", "student"⟩ : Model.User)) ∧
      (∃ db', ReadBack ⟨0, "Algebra", some "", 1, some []⟩ (-4) campus db'
        (⟨-4, "Algebra", some "", 1, none⟩ : Model.Course)) ∧
      ∃ db', ReadBack ⟨0, 3, "Groups", none⟩ 2147483647 campus db'
        (⟨2147483647, 3, "Groups", none⟩ : Model.Module) :=
  ⟨⟨_, insert_readBack.1 ⟨0, "Kurt", "", "kurt", some "s3", "kurt@example", "student"⟩ (by decide)
      (runs_insert_of_admits (by decide))⟩,
    ⟨_, insert_readBack.2.1 ⟨0, "Algebra", some "", 1, some []⟩ (by decide)
      (runs_insert_of_admits (by decide))⟩,
    ⟨_, insert_readBack.2.2 ⟨0, 3, "Groups", none⟩ (by decide)
      (runs_insert_of_admits (by decide))⟩⟩

/-- The link of a course is not read back. -/
theorem insert_link_lost : ∃ (c : Model.Course) (db db' : Sql.Db) (t : List (Call × PGresult))
    (i : Int32), ArriveUnchanged (makeValueList (getValuesToInsert c)) ∧
      Runs postgres db (insert c) t db' (.ok i) ∧
      ¬Yields postgres db' (findById Model.Course i) db' (.ok (some { c with id := i })) := by
  have harrive : ArriveUnchanged (makeValueList (getValuesToInsert
      (⟨0, "Algebra", some "", 1, some []⟩ : Model.Course))) := by decide
  have hadmits : Admits campus
      [inserted (Entity.setId (⟨0, "Algebra", some "", 1, some []⟩ : Model.Course) 8)] := by decide
  have hrun := runs_insert_of_admits hadmits
  refine ⟨_, _, _, _, _, harrive, hrun, fun hwhole ↦ ?_⟩
  obtain ⟨-, hsame⟩ := (readBack_of_runs keepsColumns_course harrive hrun).found.unique hwhole
  exact absurd hsame (by decide)

end Sphinx.Backend
