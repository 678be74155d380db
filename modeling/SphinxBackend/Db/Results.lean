import SphinxBackend.Db.Connection
import SphinxBackend.Db.Record

/-!
# Results of any layout

A result has its columns in whatever order the server sends them, with columns the entity does not
know and without some it does. `get_rows` numbers the entity's columns once and reads every row
through the numbers, so the rows are decoded by name: a column takes the first cell of its name, or
keeps its default if there is none. The name that is looked for is the one the server would read in
an unquoted statement. A column declared with a capital letter is not found under its own name.
-/

namespace Sphinx.Db

open Collections

section Struct

variable {E : Type} [Struct E]

/-- The result of a query that succeeded, with a cell in every row for every column. -/
structure Succeeded (res : PGresult) : Prop where
  status : res.status = .tuplesOk ∨ res.status = .commandOk ∧ res.tuples = []
  rectangular : ∀ tuple ∈ res.tuples, tuple.length = res.fields.length

variable (E) in
/-- The cells under the names of columns, as `spell` writes them, hold values of these columns:
decimal numbers in integer columns, and NULL in optional ones only. -/
def Decodable (spell : String → String) (res : PGresult) : Prop :=
  ∀ tuple ∈ res.tuples, ∀ a ∈ Struct.accessors (E := E), ∀ data,
    (res.fields.zip tuple).lookup (spell a.name) = some data →
      ∃ v : a.column.Value, CellHolds data v

/-- Each column of the entity has the value of the first cell of its name, or its default. -/
def Loads (spell : String → String) (fields : List String) (tuple : List (Option String))
    (entity : E) : Prop :=
  ∀ a ∈ Struct.accessors (E := E),
    match (fields.zip tuple).lookup (spell a.name) with
    | some data => CellHolds data (a.get entity)
    | none => a.get entity = .empty

/-- The same columns in another order, the cells of every row along with them. -/
structure Permuted (res res' : PGresult) : Prop where
  status : res'.status = res.status
  message : res'.message = res.message
  fields : res.fields.Perm res'.fields
  tuples : List.Forall₂ (fun tuple tuple' ↦ tuple'.length = res'.fields.length ∧
    (res.fields.zip tuple).Perm (res'.fields.zip tuple')) res.tuples res'.tuples

/-! ## Decoding by name -/

/-- Cells that hold values are decoded to an entity that has these values. -/
theorem exists_decodeNamed {cells : List (String × Option String)}
    (h : ∀ a ∈ Struct.accessors (E := E), ∀ data, cells.lookup (foldCase a.name) = some data →
      ∃ v : a.column.Value, CellHolds data v) :
    ∃ e : E, decodeNamed E cells = .ok e ∧ ∀ a ∈ Struct.accessors (E := E),
      match cells.lookup (foldCase a.name) with
      | some data => CellHolds data (a.get e)
      | none => a.get e = .empty := by
  have hread : ∀ a ∈ Struct.accessors (E := E), ∃ v, readNamed cells a = .ok v ∧
      match cells.lookup (foldCase a.name) with
      | some data => ∃ w, v = some w ∧ CellHolds data w
      | none => v = none := by
    intro a ha
    rw [readNamed]
    cases hcell : cells.lookup (foldCase a.name) with
    | none => exact ⟨none, rfl, rfl⟩
    | some data =>
      obtain ⟨v, hv⟩ := h a ha data hcell
      refine ⟨some v, ?_, v, rfl, hv⟩
      change (decodeCell a.column.type a.column.isOptional data).map some = .ok (some v)
      rw [decodeCell_of_cellHolds hv]
      rfl
  obtain ⟨e, he⟩ := load_exists_ok (fun a ha ↦ (hread a ha).imp fun _ hv ↦ hv.1) Struct.init
  refine ⟨e, he, fun a ha ↦ ?_⟩
  obtain ⟨v, hv, hholds⟩ := hread a ha
  obtain ⟨v', hv', hget⟩ := exists_of_load he ha
  rw [hv] at hv'
  obtain rfl := Except.ok.inj hv'
  split
  · rename_i data hcell
    rw [hcell] at hholds
    obtain ⟨w, rfl, hw⟩ := hholds
    rw [hget]
    exact hw
  · rename_i hcell
    rw [hcell] at hholds
    obtain rfl := hholds
    rw [hget, Option.getD_none, Struct.get_init a ha]

/-- Cells with the texts of an entity hold its values. -/
theorem decodable_of_texts {spell : String → String} {res : PGresult}
    (h : ∀ tuple ∈ res.tuples, ∃ e : E, ∀ a ∈ Struct.accessors (E := E),
      ∀ data ∈ (res.fields.zip tuple).lookup (spell a.name), data = (a.get e).toOptionalString) :
    Decodable E spell res := by
  intro tuple htuple a ha data hdata
  obtain ⟨e, he⟩ := h tuple htuple
  exact ⟨a.get e, he a ha data hdata ▸ cellHolds_toOptionalString _⟩

section Numbered

variable (hn : (Struct.accessors (E := E)).map (·.column.n)
  = List.range (Struct.accessors (E := E)).length)

include hn

/-- Row by row. -/
theorem getRows_eq_mapM {res : PGresult} (hstatus : res.status = .tuplesOk)
    (hlen : ∀ tuple ∈ res.tuples, tuple.length = res.fields.length) :
    getRows E res = res.tuples.mapM fun tuple ↦ decodeNamed E (res.fields.zip tuple) := by
  unfold getRows
  rw [hstatus]
  simp only [pqNtuples, List.range_eq_range']
  refine mapM_range'_eq fun k tuple hk ↦ ?_
  rw [Nat.zero_add]
  exact getRow_eq_decodeNamed hn hk (hlen tuple (List.mem_of_getElem? hk))

/-- A column's own number is a place in the array of numbers. -/
theorem number_lt {a : Accessor E} (ha : a ∈ Struct.accessors (E := E)) (res : PGresult) :
    a.column.n < (getColumnsId E res).length := by
  have hmem : a.column.n ∈ (Struct.accessors (E := E)).map (·.column.n) := List.mem_map_of_mem ha
  rw [hn, List.mem_range] at hmem
  rw [getColumnsId, List.length_map]
  exact hmem

/-- The rows are decoded one by one, in their order. -/
theorem exists_getRows {res : PGresult} (hres : Succeeded res)
    (hcells : Decodable E foldCase res) :
    ∃ es, getRows E res = .ok es ∧ List.Forall₂ (Loads foldCase res.fields) res.tuples es := by
  rcases hres.status with hstatus | ⟨hstatus, hnone⟩
  · have : Nonempty E := ⟨Struct.init⟩
    choose! decoded hdecoded using fun tuple (ht : tuple ∈ res.tuples) ↦
      exists_decodeNamed (E := E) (hcells tuple ht)
    refine ⟨res.tuples.map decoded, ?_, ?_⟩
    · rw [getRows_eq_mapM hn hstatus hres.rectangular, mapM_eq_ok_iff, List.forall₂_map_right_iff,
        List.forall₂_same]
      exact fun tuple ht ↦ (hdecoded tuple ht).1
    · rw [List.forall₂_map_right_iff, List.forall₂_same]
      exact fun tuple ht ↦ (hdecoded tuple ht).2
  · refine ⟨[], ?_, by rw [hnone]; exact .nil⟩
    unfold getRows
    rw [hstatus]

/-- Where the columns are does not matter, as long as a name stands for one of them. -/
theorem getRows_eq_of_permuted {res res' : PGresult} (hres : Succeeded res)
    (hnd : res.fields.Nodup) (h : Permuted res res') : getRows E res' = getRows E res := by
  have hlen' : ∀ tuple' ∈ res'.tuples, tuple'.length = res'.fields.length := by
    intro tuple' hmem
    obtain ⟨tuple, -, htuple⟩ := exists_mem_of_forall₂ h.tuples.flip hmem
    exact htuple.1
  rcases hres.status with hstatus | ⟨hstatus, -⟩
  · rw [getRows_eq_mapM hn hstatus hres.rectangular,
      getRows_eq_mapM hn (h.status.trans hstatus) hlen']
    refine (mapM_congr_of_forall₂ (fun tuple hmem tuple' hperm ↦ ?_) h.tuples).symm
    have hnames : ((res.fields.zip tuple).map Prod.fst).Nodup := by
      rwa [List.map_fst_zip (hres.rectangular tuple hmem).ge]
    refine load_congr fun a _ ↦ ?_
    rw [readNamed, readNamed, lookup_eq_of_perm hperm.2 hnames]
  · unfold getRows
    rw [h.status, hstatus]

/-- **The columns of an entity are loaded by name from a result of any layout**, the array of
numbers is read within its bounds, and the order of the result's columns does not matter. -/
theorem getRows_of_succeeded {res : PGresult} (hres : Succeeded res) :
    (∀ a ∈ Struct.accessors (E := E), a.column.n < (getColumnsId E res).length) ∧
      (Decodable E foldCase res → ∃ es, getRows E res = .ok es ∧
        List.Forall₂ (Loads foldCase res.fields) res.tuples es) ∧
      (res.fields.Nodup → ∀ res', Permuted res res' → getRows E res' = getRows E res) :=
  ⟨fun _ ha ↦ number_lt hn ha res, exists_getRows hn hres,
    fun hnd _ ↦ getRows_eq_of_permuted hn hres hnd⟩

end Numbered

end Struct

/-! ## Names with capitals -/

def badgeSchema : Schema where
  entityName := "badges"
  columns := [("id", ⟨0, .int32, [.primarykey]⟩), ("Holder", ⟨1, .string, []⟩),
    ("badge", ⟨2, .int32, [.optional]⟩)]
  names_nodup := by decide

def badge (id : Int32) (holder : String) (badge : Option Int32) : badgeSchema.Record
  | ⟨0, _⟩ => id
  | ⟨1, _⟩ => holder
  | ⟨2, _⟩ => badge

/-- The server's own columns, with one that is unknown and one that occurs twice. -/
def badgeResult : PGresult where
  status := .tuplesOk
  message := ""
  fields := ["badge", "color", "holder", "id", "badge"]
  tuples := [[some "7", none, some "ada", some "1", some "x"],
    [none, some "red", some "bob", some "-2", some "8"]]

theorem decodable_badgeResult : Decodable badgeSchema.Record foldCase badgeResult := by
  refine decodable_of_texts ?_
  simp only [badgeResult, List.forall_mem_cons]
  exact ⟨⟨badge 1 "ada" (some 7), by decide⟩, ⟨badge (-2) "bob" none, by decide⟩,
    List.forall_mem_nil _⟩

theorem getRows_of_succeeded_badge :
    (∀ a ∈ Struct.accessors (E := badgeSchema.Record),
        a.column.n < (getColumnsId badgeSchema.Record badgeResult).length) ∧
      ∃ es, getRows badgeSchema.Record badgeResult = .ok es ∧
        List.Forall₂ (Loads foldCase badgeResult.fields) badgeResult.tuples es :=
  have hsucceeded : Succeeded badgeResult := ⟨.inl rfl, by decide⟩
  have h := getRows_of_succeeded (E := badgeSchema.Record) (by decide) hsucceeded
  ⟨h.1, h.2.1 decodable_badgeResult⟩

/-- A result that has the columns under the names they are declared with. -/
def writtenResult : PGresult where
  status := .tuplesOk
  message := ""
  fields := ["id", "Holder", "badge"]
  tuples := [[some "1", some "ada", none]]

/-- The column `Holder` is not found in it, and the holder stays empty. -/
theorem not_loads_written :
    ¬∀ S : Schema, S.columns.map (·.2.n) = List.range S.columns.length →
      ∀ res, Succeeded res → Decodable S.Record id res →
        ∃ es, getRows S.Record res = .ok es ∧
          List.Forall₂ (Loads id res.fields) res.tuples es := by
  intro h
  have hsucceeded : Succeeded writtenResult := ⟨.inl rfl, by decide⟩
  have hwritten : Decodable badgeSchema.Record id writtenResult := by
    refine decodable_of_texts ?_
    simp only [writtenResult, List.forall_mem_cons]
    exact ⟨⟨badge 1 "ada" none, by decide⟩, List.forall_mem_nil _⟩
  have hfolded : Decodable badgeSchema.Record foldCase writtenResult := by
    refine decodable_of_texts ?_
    simp only [writtenResult, List.forall_mem_cons]
    exact ⟨⟨badge 1 "" none, by decide⟩, List.forall_mem_nil _⟩
  obtain ⟨es, hes, hloads⟩ := h badgeSchema (by decide) writtenResult hsucceeded hwritten
  obtain ⟨es', hes', hloads'⟩ := exists_getRows (by decide) hsucceeded hfolded
  rw [hes] at hes'
  obtain rfl := Except.ok.inj hes'
  obtain ⟨e, es, hwrites, -, rfl⟩ := List.forall₂_cons_left_iff.mp hloads
  have hfolds : Loads foldCase writtenResult.fields [some "1", some "ada", none] e := by
    cases hloads' with
    | cons h _ => exact h
  have hmem : badgeSchema.accessor ⟨1, by decide⟩ ∈ Struct.accessors (E := badgeSchema.Record) :=
    List.mem_map_of_mem (List.mem_finRange _)
  have hada : CellHolds (some "ada") ((badgeSchema.accessor ⟨1, by decide⟩).get e) :=
    hwrites _ hmem
  have hempty : (badgeSchema.accessor ⟨1, by decide⟩).get e = .empty := hfolds _ hmem
  rw [hempty] at hada
  cases hada with
  | some h =>
    have heq : "ada" = "" := h
    exact absurd heq (by decide)

end Sphinx.Db
