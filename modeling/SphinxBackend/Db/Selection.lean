import SphinxBackend.Db.Insertion

/-!
# What a selection does

The reading operations against the server. None of them changes a table, and each is determined by
the rows: `getAll` decodes them all, `getAllWhere` those whose column equals the value bound to the
placeholder, and `findById` the one whose key is the number spliced into the text.
-/

namespace Sphinx.Db

open Interaction Program

/-! ## One query -/

theorem runs_query_iff {α : Type} {db db' : Sql.Db} {text : String} {args : ValueList}
    {read : PGresult → Except Error α} {t : List (Call × PGresult)} {x : Except Error α} :
    Runs postgres db (query text args read) t db' x ↔
      ∃ res, t = [(callOf text args, res)] ∧ postgres db (callOf text args) db' res ∧
        x = read res := by
  rw [query_eq, runs_call_iff]
  constructor
  · rintro ⟨res, db₁, u, rfl, hstep, hu⟩
    cases hres : read res with
    | ok a =>
      rw [hres, ofExcept_ok, runs_pure_iff] at hu
      obtain ⟨rfl, rfl, rfl⟩ := hu
      exact ⟨res, rfl, hstep, hres.symm⟩
    | error e =>
      rw [hres, ofExcept_error, runs_throw_iff] at hu
      obtain ⟨rfl, rfl, rfl⟩ := hu
      exact ⟨res, rfl, hstep, hres.symm⟩
  · rintro ⟨res, rfl, hstep, rfl⟩
    refine ⟨res, db', [], rfl, hstep, follows_ofExcept_iff.mpr ⟨rfl, rfl⟩, .nil _⟩

/-- A query that the server can answer in one way only. -/
theorem yields_query {α : Type} {db : Sql.Db} {text : String} {args : ValueList}
    {read : PGresult → Except Error α} {res : PGresult}
    (h : ∀ db' r, postgres db (callOf text args) db' r ↔ db' = db ∧ r = res) :
    Yields postgres db (query text args read) db (read res) := by
  refine ⟨⟨_, runs_query_iff.mpr ⟨res, rfl, (h db res).mpr ⟨rfl, rfl⟩, rfl⟩⟩, ?_⟩
  intro t db' y hrun
  obtain ⟨r, -, hstep, rfl⟩ := runs_query_iff.mp hrun
  obtain ⟨rfl, rfl⟩ := (h db' r).mp hstep
  exact ⟨rfl, rfl⟩

/-! ## Whole rows -/

section Entity

variable {E : Type} [Entity E]

variable (E) in
/-- The table of the entity has its columns. -/
def HasColumns (t : Sql.Table) : Prop := ∀ a ∈ Struct.accessors (E := E), a.name ∈ t.columns

theorem hasColumns_of_fits {e : E} {t : Sql.Table} (h : (inserted e).Fits t) : HasColumns E t := by
  intro a ha
  rcases mem_accessors_iff.mp ha with rfl | hins
  · have hkey : "id" ∈ t.columns := by
      rw [h.returns_key]
      exact t.key_mem
    exact hkey
  · have hname : a.name ∈ (inserted e).columns := by
      rw [Insertion.columns, inserted, List.map_map]
      exact List.mem_map_of_mem hins
    exact (h.known _ hname).1

theorem getRows_ofRows {columns : List String} {rows : List Sql.Row}
    (h : ∀ a ∈ Struct.accessors (E := E), a.name ∈ columns) :
    getRows E (.ofRows columns rows) = rows.mapM (decodeRow E) := by
  have hstatus : (Sql.Result.ofRows columns rows).status = .tuplesOk := rfl
  have hlen : pqNtuples (.ofRows columns rows) = rows.length := List.length_map _
  unfold getRows
  rw [hstatus]
  simp only [hlen, List.range_eq_range']
  refine Collections.mapM_range'_eq fun k r hr ↦ ?_
  rw [Nat.zero_add]
  exact getRow_ofRows hr h

theorem getRows_failed (message : String) :
    getRows E (.failed message) = .error (.runtimeError message) := by
  unfold getRows
  rw [Sql.Result.status_failed]
  rfl

/-- As many entities as rows. -/
theorem length_of_getRows {columns : List String} {rows : List Sql.Row} {v : List E}
    (h : getRows E (.ofRows columns rows) = .ok v) : v.length = rows.length := by
  have hstatus : (Sql.Result.ofRows columns rows).status = .tuplesOk := rfl
  have hlen : pqNtuples (.ofRows columns rows) = rows.length := List.length_map _
  unfold getRows at h
  rw [hstatus] at h
  have hlist := (Collections.mapM_eq_ok_iff.mp h).length_eq
  rw [List.length_range, hlen] at hlist
  exact hlist.symm

/-! ## `get_all` -/

theorem postgres_getAll_iff {db db' : Sql.Db} {res : PGresult} :
    postgres db (callOf ("SELECT * FROM " ++ Entity.entityName E) []) db' res ↔
      db' = db ∧
        res = .ofRows (db (Entity.entityName E)).columns (db (Entity.entityName E)).rows := by
  refine Sql.step_selectAll_iff (t := Entity.entityName E) ?_
  exact Sql.parse_render (s := .selectAll (Entity.entityName E)) Entity.entityName_identifier

theorem getAll_yields (db : Sql.Db) :
    Yields postgres db (getAll E) db
      (getRows E (.ofRows (db (Entity.entityName E)).columns (db (Entity.entityName E)).rows)) :=
  yields_query fun _ _ ↦ postgres_getAll_iff

/-! ## `find_by_id` -/

theorem findByIdQuery_eq (id : Int32) :
    findByIdQuery E id
      = (Sql.Statement.selectWhere (Entity.entityName E) ⟨"id", .eq, .number id.toInt⟩).render := by
  have hquery : findByIdQuery E id = "SELECT * FROM " ++ Entity.entityName E ++ " WHERE "
      ++ getIdColumnName E ++ " = " ++ toString id.toInt := rfl
  have heq : " = " = " " ++ "=" ++ " " := by decide
  rw [hquery, getIdColumnName_eq, Sql.Statement.render_selectWhere, Sql.Condition.render_eq, heq]
  simp only [String.append_assoc, Sql.Operator.text, Sql.Operand.render_number]

/-- The rows with a key. -/
def rowsWithKey (t : Sql.Table) (id : Int32) : List Sql.Row :=
  t.rows.filter fun r ↦ Sql.equals (r "id") (some (Sql.keyText id))

theorem postgres_findById_iff {db db' : Sql.Db} {res : PGresult} {id : Int32}
    (h : "id" ∈ (db (Entity.entityName E)).columns) :
    postgres db (callOf (findByIdQuery E id) []) db' res ↔
      db' = db ∧ res = .ofRows (db (Entity.entityName E)).columns
        (rowsWithKey (db (Entity.entityName E)) id) := by
  refine Sql.step_selectWhere_iff (t := Entity.entityName E)
    (c := ⟨"id", .eq, .number id.toInt⟩) ?_ (Sql.select_eq rfl h rfl)
  have hwf : (Sql.Statement.selectWhere (Entity.entityName E)
      ⟨"id", .eq, .number id.toInt⟩).WellFormed :=
    Sql.Statement.wellFormed_selectWhere_iff.mpr
      ⟨Entity.entityName_identifier, show Sql.IsIdentifier "id" by decide⟩
  rw [← Sql.parse_render hwf, ← findByIdQuery_eq]
  rfl

theorem findById_yields {db : Sql.Db} {id : Int32}
    (h : "id" ∈ (db (Entity.entityName E)).columns) :
    Yields postgres db (findById E id) db
      (getRowResult E (.ofRows (db (Entity.entityName E)).columns
        (rowsWithKey (db (Entity.entityName E)) id))) :=
  yields_query fun _ _ ↦ postgres_findById_iff h

theorem getRowResult_singleton {columns : List String} {r : Sql.Row}
    (h : ∀ a ∈ Struct.accessors (E := E), a.name ∈ columns) :
    getRowResult E (.ofRows columns [r]) = (decodeRow E r).map some := by
  have hstatus : (Sql.Result.ofRows columns [r]).status = .tuplesOk := rfl
  have hlen : pqNtuples (.ofRows columns [r]) = 1 := rfl
  unfold getRowResult
  rw [hstatus]
  simp only [hlen, Nat.one_ne_zero, if_false, if_true]
  rw [getRow_ofRows rfl h]

theorem getRowResult_nil (columns : List String) :
    getRowResult E (.ofRows columns []) = .ok none := rfl

/-! ## `get_by_id` and `exists` -/

theorem getById_eq (id : Int32) : getById E id = findById E id >>= fun found ↦
    .ofExcept (found.elim (.error .badOptionalAccess) .ok) := by
  refine congrArg (findById E id >>= ·) (funext fun found ↦ ?_)
  cases found <;> rfl

theorem getById_yields {db : Sql.Db} {id : Int32} {x : Except Error (Option E)}
    (h : Yields postgres db (findById E id) db x) :
    Yields postgres db (getById E id) db
      (x.bind fun found ↦ found.elim (.error .badOptionalAccess) .ok) := by
  rw [getById_eq]
  exact h.bind_ofExcept _

theorem existsQuery_eq (id : Int32) :
    existsQuery E id
      = (Sql.Statement.existsWhere (Entity.entityName E) ⟨"id", .eq, .number id.toInt⟩).render := by
  have hquery : existsQuery E id = "SELECT EXISTS(SELECT 1 FROM " ++ Entity.entityName E
      ++ " WHERE " ++ getIdColumnName E ++ " = " ++ toString id.toInt ++ ")" := rfl
  have heq : " = " = " " ++ "=" ++ " " := by decide
  rw [hquery, getIdColumnName_eq, Sql.Statement.render_existsWhere, Sql.Condition.render_eq, heq]
  simp only [String.append_assoc, Sql.Operator.text, Sql.Operand.render_number]

theorem postgres_exists_iff {db db' : Sql.Db} {res : PGresult} {id : Int32}
    (h : "id" ∈ (db (Entity.entityName E)).columns) :
    postgres db (callOf (existsQuery E id) []) db' res ↔
      db' = db ∧ res = .tuplesOk ["exists"]
        [[some (if rowsWithKey (db (Entity.entityName E)) id = [] then "f" else "t")]] := by
  refine Sql.step_existsWhere_iff (t := Entity.entityName E)
    (c := ⟨"id", .eq, .number id.toInt⟩) ?_ (Sql.select_eq rfl h rfl)
  have hwf : (Sql.Statement.existsWhere (Entity.entityName E)
      ⟨"id", .eq, .number id.toInt⟩).WellFormed :=
    ⟨Entity.entityName_identifier, show Sql.IsIdentifier "id" by decide⟩
  rw [← Sql.parse_render hwf, ← existsQuery_eq]
  rfl

theorem exists_yields {db : Sql.Db} {id : Int32}
    (h : "id" ∈ (db (Entity.entityName E)).columns) :
    Yields postgres db (exists_ E id) db
      (.ok (decide (rowsWithKey (db (Entity.entityName E)) id ≠ []))) := by
  have hyields : Yields postgres db (exists_ E id) db (getScalar (.tuplesOk ["exists"]
      [[some (if rowsWithKey (db (Entity.entityName E)) id = [] then "f" else "t")]])) :=
    yields_query fun _ _ ↦ postgres_exists_iff h
  by_cases hnone : rowsWithKey (db (Entity.entityName E)) id = []
  · rw [decide_eq_false (not_not.mpr hnone)]
    rw [if_pos hnone] at hyields
    exact hyields
  · rw [decide_eq_true hnone]
    rw [if_neg hnone] at hyields
    exact hyields

/-! ## After an insertion -/

/-- The values of a list reach the server unchanged. -/
def ArriveUnchanged (args : ValueList) : Prop :=
  (makePqArgs args).map (fun p ↦ p.map CharPtr.read) = args

instance (args : ValueList) : Decidable (ArriveUnchanged args) :=
  inferInstanceAs (Decidable (_ = _))

theorem nulFree_of_arriveUnchanged {e : E}
    (h : ArriveUnchanged (makeValueList (getValuesToInsert e))) : NulFree e := by
  intro a ha s hs
  rw [ArriveUnchanged, makePqArgs, makeValueList_getValuesToInsert, List.map_map, List.map_map,
    List.map_inj_left] at h
  have hcell := h a ha
  rw [Function.comp_apply, Function.comp_apply, hs] at hcell
  exact Text.cString_eq_self_iff.mp (Option.some.inj hcell)

/-- A successful insertion, seen from the server: the new row is the entity's under its new id. -/
theorem inserted_of_runs {db db' : Sql.Db} {e : E} {t : List (Call × PGresult)} {i : Int32}
    (h : Runs postgres db (insert e) t db' (.ok i)) :
    Inserted db [inserted (Entity.setId e i)] db' ∧ (db (Entity.entityName E)).Fresh i := by
  rw [insert_eq, runs_call_iff] at h
  obtain ⟨res, db₁, u, rfl, hstep, hu⟩ := h
  rcases postgres_insertion_iff.mp hstep with ⟨message, rfl, rfl⟩ | ⟨id, hfits, hfresh, rfl, rfl⟩
  · rw [insertResult_failed, ofExcept_error, runs_throw_iff] at hu
    exact absurd hu.2.2 (by simp)
  · rw [insertResult_returned, ofExcept_ok, runs_pure_iff] at hu
    obtain ⟨rfl, rfl, hid⟩ := hu
    obtain rfl := Except.ok.inj hid
    refine ⟨inserted_singleton ?_, hfresh⟩
    have hid : (inserted (Entity.setId e i)).id = i := id_setId e i
    rw [(sameColumns_setId e i).call_eq, hid]
    exact hstep

theorem rowsInto_inserted (e : E) :
    rowsInto (Entity.entityName E) [inserted e] = [(inserted e).row] :=
  (rowsInto_map_inserted [e] _).trans (if_pos rfl)

/-- The row under the new id is the new one. -/
theorem rowsWithKey_of_inserted {db db' : Sql.Db} {e : E}
    (h : Inserted db [inserted e] db')
    (hfresh : (db (Entity.entityName E)).Fresh (Entity.id e)) :
    rowsWithKey (db' (Entity.entityName E)) (Entity.id e) = [(inserted e).row] := by
  have hkey : "id" = (db (Entity.entityName E)).key :=
    (h.fits _ (List.mem_singleton.mpr rfl)).returns_key
  have hold : (db (Entity.entityName E)).rows.filter
      (fun r ↦ Sql.equals (r "id") (some (Sql.keyText (Entity.id e)))) = [] := by
    refine List.filter_eq_nil_iff.mpr fun r hr hequal ↦ hfresh r hr ?_
    rw [← hkey]
    cases hid : r "id" with
    | none => rw [hid] at hequal; exact absurd hequal (by simp [Sql.equals])
    | some v => rw [hid] at hequal; exact congrArg some (of_decide_eq_true hequal)
  rw [rowsWithKey, h.rows, rowsInto_inserted, List.filter_append, hold, List.nil_append,
    List.filter_cons_of_pos (by rw [row_id]; simp [Sql.equals]), List.filter_nil]

/-! ## `get_all_where` -/

/-- The rows whose column equals the value of a condition, as the server sees that value. -/
def rowsWhere (t : Sql.Table) (column text : String) : List Sql.Row :=
  t.rows.filter fun r ↦ Sql.equals (r column) (some (Text.cString text))

/-- The text depends on the column, and the value is left to the placeholder. -/
theorem getAllWhereText_eq (c : Condition E) :
    "SELECT * FROM " ++ Entity.entityName E ++ " WHERE " ++ c.str "$1"
      = (Sql.Statement.selectWhere (Entity.entityName E)
          ⟨getNthColumnName E c.n, c.operator, .param 1⟩).render := by
  rw [Sql.Statement.render_selectWhere, Sql.Condition.render_eq, Condition.str,
    if_neg (by decide)]
  rfl

theorem parse_getAllWhere (c : Condition E)
    (hname : Sql.IsIdentifier (getNthColumnName E c.n)) :
    Sql.parse ("SELECT * FROM " ++ Entity.entityName E ++ " WHERE " ++ c.str "$1")
      = some (.selectWhere (Entity.entityName E)
          ⟨getNthColumnName E c.n, c.operator, .param 1⟩) := by
  rw [getAllWhereText_eq, Sql.parse_render]
  exact Sql.Statement.wellFormed_selectWhere_iff.mpr ⟨Entity.entityName_identifier, hname⟩

theorem postgres_getAllWhere_iff {db db' : Sql.Db} {res : PGresult} {c : Condition E}
    (hop : c.operator = .eq) (hname : Sql.IsIdentifier (getNthColumnName E c.n))
    (h : getNthColumnName E c.n ∈ (db (Entity.entityName E)).columns) :
    postgres db (callOf ("SELECT * FROM " ++ Entity.entityName E ++ " WHERE " ++ c.str "$1")
        [some (c.type.format c.value)]) db' res ↔
      db' = db ∧ res = .ofRows (db (Entity.entityName E)).columns
        (rowsWhere (db (Entity.entityName E)) (getNthColumnName E c.n)
          (c.type.format c.value)) := by
  have hparse := parse_getAllWhere c hname
  rw [hop] at hparse
  exact Sql.step_selectWhere_iff hparse (Sql.select_eq rfl h rfl)

/-- A selection that returns has found the column. -/
theorem column_mem_of_runs {db db' : Sql.Db} (c : Condition E) {t : List (Call × PGresult)}
    {v : List E} (hop : c.operator = .eq) (hname : Sql.IsIdentifier (getNthColumnName E c.n))
    (h : Runs postgres db (getAllWhere c) t db' (.ok v)) :
    getNthColumnName E c.n ∈ (db (Entity.entityName E)).columns := by
  by_contra hnot
  obtain ⟨res, -, hstep, hv⟩ := runs_query_iff.mp h
  have hsel : (db (Entity.entityName E)).select ⟨getNthColumnName E c.n, .eq, .param 1⟩
      [some (Text.cString (c.type.format c.value))] = none := if_neg fun hc ↦ hnot hc.2
  have hparse := parse_getAllWhere c hname
  rw [hop] at hparse
  obtain ⟨-, rfl⟩ := Sql.step_selectWhere_of_none hstep hparse hsel
  rw [getRows_failed] at hv
  exact absurd hv (by simp)

theorem getAllWhere_yields {db : Sql.Db} (c : Condition E) (hop : c.operator = .eq)
    (hname : Sql.IsIdentifier (getNthColumnName E c.n))
    (h : getNthColumnName E c.n ∈ (db (Entity.entityName E)).columns) :
    Yields postgres db (getAllWhere c) db
      (getRows E (.ofRows (db (Entity.entityName E)).columns
        (rowsWhere (db (Entity.entityName E)) (getNthColumnName E c.n)
          (c.type.format c.value)))) :=
  yields_query fun _ _ ↦ postgres_getAllWhere_iff hop hname h

end Entity

end Sphinx.Db
