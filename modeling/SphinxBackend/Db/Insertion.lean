import SphinxBackend.Db.Connection

/-!
# What an insertion does

An `Insertion` is one row on its way into a table: the values handed over, column by column, and
the id the row gets. It has both sides in it. `Insertion.event` is what a program sees of it, a
call with its answer; `Insertion.row` is what the server makes of it, a row whose texts end at the
first NUL of the values. `inserted e` is the insertion of an entity that carries its id already.

`postgres_insertion_iff` is the one place where the text of a query is read back. From it, a
sequence of insertions that the server accepted appends their rows, table by table, and does
nothing else (`Inserted`).
-/

namespace Sphinx.Db

open Interaction Program

/-! ## Insertions -/

structure Insertion where
  table : String
  /-- The named columns with the values handed over for them. -/
  cells : List (String × Option String)
  /-- The id of the new row. -/
  id : Int32
  table_identifier : Sql.IsIdentifier table
  columns_identifiers : ∀ c ∈ cells, Sql.IsIdentifier c.1
  cells_ne_nil : cells ≠ []

namespace Insertion

def columns (x : Insertion) : List String := x.cells.map Prod.fst

def params (x : Insertion) : ValueList := x.cells.map Prod.snd

def statement (x : Insertion) : Sql.Statement :=
  .insert x.table x.columns (List.range' 1 x.cells.length) "id"

/-- The call that asks for it. -/
def call (x : Insertion) : Call := callOf x.statement.render x.params

/-- The call and the answer to it. -/
def event (x : Insertion) : Call × PGresult := (x.call, .returned "id" x.id)

/-- The values as they reach the server. -/
def stored (x : Insertion) : List (String × Option String) :=
  x.cells.map fun c ↦ (c.1, c.2.map Text.cString)

/-- The new row. -/
def row (x : Insertion) : Sql.Row := Sql.newRow "id" x.id x.stored

/-- The table has the columns, and the id as its key. -/
def Fits (x : Insertion) (t : Sql.Table) : Prop :=
  t.Accepts x.columns (List.range' 1 x.cells.length) x.call.request.params "id"

instance (x : Insertion) (t : Sql.Table) : Decidable (x.Fits t) :=
  inferInstanceAs (Decidable (Sql.Table.Accepts ..))

/-- The tables with the new row. -/
def apply (x : Insertion) (db : Sql.Db) : Sql.Db := Sql.addRow db x.table x.id x.stored

theorem params_request (x : Insertion) :
    x.call.request.params = x.cells.map fun c ↦ c.2.map Text.cString := by
  change (makePqArgs x.params).map (fun p ↦ p.map CharPtr.read) = _
  rw [makePqArgs, params, List.map_map, List.map_map]
  refine List.map_congr_left fun c _ ↦ ?_
  obtain ⟨name, value⟩ := c
  cases value <;> rfl

theorem statement_wellFormed (x : Insertion) : x.statement.WellFormed := by
  rw [statement, Sql.Statement.wellFormed_insert_iff]
  refine ⟨x.table_identifier, fun c hc ↦ ?_, by decide, ?_, ?_⟩
  · obtain ⟨cell, hcell, rfl⟩ := List.mem_map.mp hc
    exact x.columns_identifiers cell hcell
  · simpa [columns] using x.cells_ne_nil
  · simpa using x.cells_ne_nil

theorem parse_call (x : Insertion) : Sql.parse x.call.request.text = some x.statement :=
  Sql.parse_render x.statement_wellFormed

/-- An insertion can be read off the call and the answer: the table and the columns off the text,
the values off the pointers, and the id off the answer. -/
theorem event_injective : Function.Injective event := by
  intro x y h
  obtain ⟨hcall, hres⟩ := Prod.mk.inj h
  have hstatement : x.statement = y.statement := by
    have hx := x.parse_call
    rw [hcall, y.parse_call] at hx
    exact (Option.some.inj hx).symm
  obtain ⟨htable, hcolumns, -, -⟩ := Sql.Statement.insert.inj hstatement
  have hparams : x.params = y.params :=
    (List.map_injective_iff.mpr (Option.map_injective fun p q hp ↦ CharPtr.mk.inj hp))
      (congrArg Call.paramValues hcall)
  -- names and values are paired again once both lists agree
  have hcells : x.cells = y.cells := by
    rw [← List.zip_unzip x.cells, ← List.zip_unzip y.cells, List.unzip_eq_map, List.unzip_eq_map]
    exact congrArg₂ List.zip hcolumns hparams
  have hid : x.id = y.id := Sql.Result.returned_injective hres
  obtain ⟨table, cells, id, _, _, _⟩ := x
  obtain ⟨table', cells', id', _, _, _⟩ := y
  obtain rfl : table = table' := htable
  obtain rfl : cells = cells' := hcells
  obtain rfl : id = id' := hid
  rfl

/-- Placeholder by placeholder, the values that arrive are those of the columns. -/
theorem cellsOf_call (x : Insertion) :
    Sql.cellsOf x.columns (List.range' 1 x.cells.length) x.call.request.params = x.stored := by
  have hlen : x.cells.length = x.call.request.params.length := by
    rw [params_request, List.length_map]
  rw [hlen, Sql.cellsOf_range', params_request, stored, columns, List.zip_map',
    List.map_congr_left fun _ _ ↦ rfl]

end Insertion

/-- The call is that of some insertion. -/
def IsInsertion (c : Call) : Prop := ∃ x : Insertion, c = x.call

/-! ## The server's answer -/

/-- An insertion is refused and nothing happens, or a row with a new id is appended. -/
theorem postgres_insertion_iff {x : Insertion} {db db' : Sql.Db} {res : PGresult} :
    postgres db x.call db' res ↔
      (∃ message, db' = db ∧ res = .failed message) ∨
        ∃ id, x.Fits (db x.table) ∧ (db x.table).Fresh id ∧
          db' = Sql.addRow db x.table id x.stored ∧ res = .returned "id" id := by
  rw [postgres, Sql.step_insert_iff (Insertion.parse_call x), Insertion.cellsOf_call]
  rfl

/-- What `insert` makes of the answer. -/
@[simp] theorem insertResult_returned (E : Type) [Entity E] (id : Int32) :
    insertResult E (.returned "id" id) = .ok id := by
  have hcol : pqFnumber (.returned "id" id) (getIdColumnName E) = 0 := by
    rw [getIdColumnName_eq, pqFnumber, show foldCase "id" = "id" by decide]
    rfl
  have hrows : pqNtuples (.returned "id" id) = 1 := rfl
  have hvalue : pqGetvalue (.returned "id" id) 0 0 = Sql.keyText id := rfl
  unfold insertResult
  rw [Sql.Result.status_returned]
  simp only [hrows, if_true, hcol, getField, hvalue]
  exact stoi_toString id

@[simp] theorem insertResult_failed (E : Type) [Entity E] (message : String) :
    insertResult E (.failed message) = .error (.runtimeError message) := rfl

/-- The answer to an accepted insertion. -/
def IsReturned (res : PGresult) : Prop := ∃ id, res = .returned "id" id

/-- The exception that the answer to an insertion stands for. -/
def refusal (res : PGresult) : Option Error :=
  if res.status = .fatalError then some (.runtimeError res.message) else none

@[simp] theorem refusal_returned (column : String) (id : Int32) :
    refusal (.returned column id) = none := rfl

@[simp] theorem refusal_failed (message : String) :
    refusal (.failed message) = some (.runtimeError message) := rfl

/-- A refusal changes nothing. -/
theorem eq_of_refused {x : Insertion} {db db' : Sql.Db} {res : PGresult} {e : Error}
    (h : postgres db x.call db' res) (he : refusal res = some e) :
    db' = db ∧ ∃ message, res = .failed message ∧ e = .runtimeError message := by
  rcases postgres_insertion_iff.mp h with ⟨message, rfl, rfl⟩ | ⟨id, -, -, -, rfl⟩
  · exact ⟨rfl, message, rfl, (Option.some.inj he).symm⟩
  · exact absurd he (by simp)

theorem isReturned_of_insertion {x : Insertion} {db db' : Sql.Db} {res : PGresult}
    (h : postgres db x.call db' res) (hok : refusal res = none) : IsReturned res := by
  rcases postgres_insertion_iff.mp h with ⟨message, -, rfl⟩ | ⟨id, -, -, -, rfl⟩
  · exact absurd hok (by simp [refusal, Sql.Result.failed])
  · exact ⟨id, rfl⟩

/-! ## Sequences of insertions -/

/-- The rows of the insertions into a table, in order. -/
def rowsInto (t : String) (w : List Insertion) : List Sql.Row :=
  (w.filter fun x ↦ x.table = t).map Insertion.row

@[simp] theorem rowsInto_nil (t : String) : rowsInto t [] = [] := rfl

@[simp] theorem rowsInto_append (t : String) (w w' : List Insertion) :
    rowsInto t (w ++ w') = rowsInto t w ++ rowsInto t w' := by
  rw [rowsInto, List.filter_append, List.map_append, rowsInto, rowsInto]

/-- The tables `db'` are the tables `db` with the rows of the insertions appended. -/
structure Inserted (db : Sql.Db) (w : List Insertion) (db' : Sql.Db) : Prop where
  rows : ∀ t, (db' t).rows = (db t).rows ++ rowsInto t w
  columns : ∀ t, (db' t).columns = (db t).columns
  key : ∀ t, (db' t).key = (db t).key
  fits : ∀ x ∈ w, x.Fits (db x.table)

theorem Insertion.Fits.of_columns_eq {x : Insertion} {t t' : Sql.Table} (h : x.Fits t)
    (hcolumns : t'.columns = t.columns) (hkey : t'.key = t.key) : x.Fits t' where
  returns_key := by rw [hkey]; exact h.returns_key
  nodup := h.nodup
  known := by rw [hcolumns, hkey]; exact h.known
  length_eq := h.length_eq
  bound := h.bound

/-- One accepted insertion. -/
theorem inserted_singleton {x : Insertion} {db db' : Sql.Db}
    (h : postgres db x.call db' (.returned "id" x.id)) : Inserted db [x] db' := by
  rcases postgres_insertion_iff.mp h with ⟨message, -, hres⟩ | ⟨id, hfits, hfresh, rfl, hres⟩
  · exact absurd (congrArg Sql.Result.status hres) (by simp)
  · obtain rfl := Sql.Result.returned_injective hres
    refine ⟨fun t ↦ ?_, fun t ↦ Sql.addRow_columns t, fun t ↦ Sql.addRow_key t, fun y hy ↦ ?_⟩
    · by_cases ht : t = x.table
      · subst ht
        rw [Sql.addRow_rows hfresh, ← hfits.returns_key]
        simp [rowsInto, Insertion.row]
      · rw [Sql.addRow_of_ne ht]
        simp [rowsInto, Ne.symm ht]
    · rw [List.mem_singleton.mp hy]
      exact hfits

theorem Inserted.append {db db' db'' : Sql.Db} {w w' : List Insertion} (h : Inserted db w db')
    (h' : Inserted db' w' db'') : Inserted db (w ++ w') db'' where
  rows t := by rw [h'.rows, h.rows, rowsInto_append, List.append_assoc]
  columns t := by rw [h'.columns, h.columns]
  key t := by rw [h'.key, h.key]
  fits x hx := by
    rcases List.mem_append.mp hx with hx | hx
    · exact h.fits x hx
    · exact (h'.fits x hx).of_columns_eq (h.columns _).symm (h.key _).symm

theorem inserted_nil (db : Sql.Db) : Inserted db [] db where
  rows t := by simp
  columns _ := rfl
  key _ := rfl
  fits x hx := absurd hx List.not_mem_nil

/-- **Accepted insertions append their rows and change nothing else.** -/
theorem inserted_of_chain {db db' : Sql.Db} {w : List Insertion}
    (h : Chain postgres db (w.map Insertion.event) db') : Inserted db w db' := by
  induction w generalizing db with
  | nil =>
    rw [chain_nil_iff.mp h]
    exact inserted_nil db
  | cons x w ih =>
    obtain ⟨db₁, hx, hw⟩ := chain_cons_iff.mp h
    exact (inserted_singleton hx).append (ih hw)

theorem refusal_of_mem_events {w : List Insertion} :
    ∀ y ∈ w.map Insertion.event, refusal y.2 = none := by
  intro y hy
  obtain ⟨x, -, rfl⟩ := List.mem_map.mp hy
  rfl

theorem isReturned_of_mem_events {w : List Insertion} :
    ∀ y ∈ w.map Insertion.event, IsReturned y.2 := by
  intro y hy
  obtain ⟨x, -, rfl⟩ := List.mem_map.mp hy
  exact ⟨x.id, rfl⟩

/-- The server may accept the insertions, one after the other. -/
def Admits : Sql.Db → List Insertion → Prop
  | _, [] => True
  | db, x :: w => (x.Fits (db x.table) ∧ (db x.table).Fresh x.id) ∧ Admits (x.apply db) w

instance decidableAdmits : (db : Sql.Db) → (w : List Insertion) → Decidable (Admits db w)
  | _, [] => inferInstanceAs (Decidable True)
  | db, x :: w =>
    have := decidableAdmits (x.apply db) w
    inferInstanceAs (Decidable ((x.Fits (db x.table) ∧ (db x.table).Fresh x.id) ∧
      Admits (x.apply db) w))

/-- A chain of accepted insertions, computed. -/
theorem chain_of_admits {db : Sql.Db} {w : List Insertion} (h : Admits db w) :
    Chain postgres db (w.map Insertion.event) (w.foldl (fun db x ↦ x.apply db) db) := by
  induction w generalizing db with
  | nil => exact .nil db
  | cons x w ih =>
    obtain ⟨⟨hfits, hfresh⟩, hw⟩ := h
    exact .cons (postgres_insertion_iff.mpr (.inr ⟨x.id, hfits, hfresh, rfl, rfl⟩)) (ih hw)

/-! ## What is in the tables -/

namespace Inserted

variable {db db' : Sql.Db} {w : List Insertion}

/-- The key of the new row is the id of the insertion. -/
theorem row_key (h : Inserted db w db') {x : Insertion} (hx : x ∈ w) :
    x.row (db' x.table).key = some (Sql.keyText x.id) := by
  rw [h.key, ← (h.fits x hx).returns_key]
  exact Sql.newRow_key _ _ _

theorem row_mem (h : Inserted db w db') {x : Insertion} (hx : x ∈ w) :
    x.row ∈ (db' x.table).rows := by
  rw [h.rows, rowsInto]
  exact List.mem_append_right _
    (List.mem_map_of_mem (List.mem_filter.mpr ⟨hx, decide_eq_true rfl⟩))

/-- The ids are ones that no row of the tables had. -/
theorem fresh (h : Inserted db w db') {x : Insertion} (hx : x ∈ w) : (db x.table).Fresh x.id := by
  intro r hr hkey
  have hnodup := (db' x.table).keys_nodup
  rw [h.rows, List.map_append] at hnodup
  have hnew : x.row ∈ rowsInto x.table w :=
    List.mem_map_of_mem (List.mem_filter.mpr ⟨hx, decide_eq_true rfl⟩)
  refine (List.nodup_append.mp hnodup).2.2 _ (List.mem_map_of_mem hr) _
    (List.mem_map_of_mem hnew) ?_
  rw [h.row_key hx, h.key, hkey]

/-- No id is given twice in a table. -/
theorem nodup (h : Inserted db w db') : (w.map fun x ↦ (x.table, x.id)).Nodup := by
  rw [List.Nodup, List.pairwise_map, List.pairwise_iff_forall_sublist]
  rintro x y hxy heq
  obtain ⟨htable, hid⟩ := Prod.mk.inj heq
  have hpair : [x.row, y.row].Sublist (db' x.table).rows := by
    have hinto := (hxy.filter fun z ↦ z.table = x.table).map Insertion.row
    rw [List.filter_eq_self.mpr (by simp [htable])] at hinto
    rw [h.rows]
    exact hinto.trans (List.sublist_append_right _ _)
  have hkeys := (db' x.table).keys_nodup.sublist (hpair.map (· (db' x.table).key))
  have hx := h.row_key (hxy.subset List.mem_cons_self)
  have hy := h.row_key (hxy.subset (List.mem_cons_of_mem _ List.mem_cons_self))
  rw [← htable, ← hid] at hy
  exact absurd hkeys (by simp [hx, hy])

end Inserted

/-! ## The insertion of an entity -/

section Entity

variable {E : Type} [Entity E]

/-- The insertion of `e` that gave it the id it has. -/
def inserted (e : E) : Insertion where
  table := Entity.entityName E
  cells := (getInsertColumns E).map fun a ↦ (a.name, (a.get e).toOptionalString)
  id := Entity.id e
  table_identifier := Entity.entityName_identifier
  columns_identifiers := by
    intro c hc
    obtain ⟨a, ha, rfl⟩ := List.mem_map.mp hc
    exact Entity.identifiers a (mem_accessors_of_mem_insertColumns ha)
  cells_ne_nil := by simpa using insertColumns_ne_nil E

theorem call_inserted (e : E) :
    (inserted e).call = callOf (prepareInsertQuery E) (makeValueList (getValuesToInsert e)) := by
  have hparams : (inserted e).params = makeValueList (getValuesToInsert e) := by
    rw [makeValueList_getValuesToInsert, Insertion.params, inserted, List.map_map]
    rfl
  have hstatement : (inserted e).statement = insertStatement E := by
    rw [Insertion.statement, insertStatement, getIdColumnName_eq, Insertion.columns, inserted,
      List.map_map, List.length_map]
    rfl
  rw [Insertion.call, hparams, hstatement, prepareInsertQuery_eq]

theorem insert_eq (e : E) :
    insert e = .call (inserted e).call fun res ↦ .ofExcept (insertResult E res) := by
  rw [insert, query_eq, call_inserted]

/-- The call depends on the columns; the id an entity had before is not part of it. -/
theorem SameColumns.call_eq {e e' : E} (h : SameColumns e e') :
    (inserted e').call = (inserted e).call := by
  rw [call_inserted, call_inserted, makeValueList_getValuesToInsert,
    makeValueList_getValuesToInsert]
  refine congrArg _ (List.map_congr_left fun a ha ↦ ?_)
  rw [h a ha]

theorem SameColumns.event_eq {e e' : E} (h : SameColumns e e') :
    (inserted e').event = ((inserted e).call, .returned "id" (Entity.id e')) := by
  rw [Insertion.event, h.call_eq]
  rfl

theorem row_id (e : E) : (inserted e).row "id" = some (Sql.keyText (Entity.id e)) :=
  Sql.newRow_key _ _ _

/-- The new row has each value in the column of its name, up to the first NUL. -/
theorem row_name (e : E) {a : Accessor E} (ha : a ∈ getInsertColumns E) :
    (inserted e).row a.name = (a.get e).toOptionalString.map Text.cString := by
  have hlookup : (inserted e).stored.lookup a.name
      = some ((a.get e).toOptionalString.map Text.cString) := by
    rw [Insertion.stored, inserted, List.map_map]
    exact Collections.lookup_map_of_mem (fun a ↦ (a.get e).toOptionalString.map Text.cString)
      insertColumns_names_nodup ha
  rw [Insertion.row, Sql.newRow_of_ne (name_ne_id ha), hlookup]
  rfl

/-- Insertions of entities go into the table of their type. -/
theorem rowsInto_map_inserted (es : List E) (t : String) :
    rowsInto t (es.map inserted)
      = if Entity.entityName E = t then es.map fun e ↦ (inserted e).row else [] := by
  have hfilter : (es.map inserted).filter (fun x ↦ x.table = t)
      = if Entity.entityName E = t then es.map inserted else [] := by
    by_cases ht : Entity.entityName E = t
    · rw [if_pos ht]
      refine List.filter_eq_self.mpr fun x hx ↦ ?_
      obtain ⟨e, -, rfl⟩ := List.mem_map.mp hx
      exact decide_eq_true ht
    · rw [if_neg ht]
      refine List.filter_eq_nil_iff.mpr fun x hx ↦ ?_
      obtain ⟨e, -, rfl⟩ := List.mem_map.mp hx
      exact fun h ↦ ht (of_decide_eq_true h)
  rw [rowsInto, hfilter]
  split
  · rw [List.map_map]; rfl
  · rfl

/-- No value contains the character that ends a C string. -/
def NulFree (e : E) : Prop :=
  ∀ a ∈ getInsertColumns E, ∀ s, (a.get e).toOptionalString = some s → '\x00' ∉ s.toList

/-- The new row holds the entity exactly when nothing of it was cut off. -/
theorem holds_row_iff (e : E) : Holds (inserted e).row e ↔ NulFree e := by
  constructor
  · intro h a ha
    have hrow := h a (mem_accessors_of_mem_insertColumns ha)
    rw [row_name e ha] at hrow
    exact Text.map_cString_eq_self_iff.mp hrow
  · intro h a ha
    rcases mem_accessors_iff.mp ha with rfl | hins
    · exact row_id e
    · rw [row_name e hins]
      exact Text.map_cString_eq_self_iff.mpr (h a hins)

end Entity

end Sphinx.Db
