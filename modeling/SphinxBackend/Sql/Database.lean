import Mathlib.Logic.Function.Basic
import SphinxBackend.Collections.AssocList
import SphinxBackend.Sql.Statement

/-!
# Tables and the meaning of statements

A table has its columns in a physical order, an integer primary key filled from a sequence, and
rows. A row gives each column's content in text form, or nothing for NULL; integers are kept in
their canonical decimal text. The primary key is part of the table's type: no table with a
repeated or missing key can be built.

The server is not deterministic. It may reject any insertion, for a constraint this model does not
know or for a lost connection, and it chooses the key of an accepted one. `execute` takes that
choice as an argument, a `Verdict`, and `Step` is what can happen for some verdict. Everything else
about a statement is fixed: a rejected insertion changes nothing, an accepted one adds exactly one
row, with a key that no row of the table had, and a selection changes nothing.

Each statement is its own transaction.
-/

namespace Sql

/-! ## Tables -/

/-- The content of every column in text form; `none` is NULL. -/
abbrev Row := String → Option String

/-- An integer key as text. -/
def keyText (id : Int32) : String := toString id.toInt

theorem keyText_injective : Function.Injective keyText := fun _ _ h ↦
  Int32.toInt.inj (Text.toString_injective h)

structure Table where
  /-- The columns in physical order. -/
  columns : List String
  /-- The primary key. -/
  key : String
  rows : List Row
  columns_nodup : columns.Nodup
  key_mem : key ∈ columns
  /-- Every row has an integer key. -/
  keys : ∀ r ∈ rows, ∃ id, r key = some (keyText id)
  /-- No two rows have the same key. -/
  keys_nodup : (rows.map (· key)).Nodup

/-- No row has this key. -/
def Table.Fresh (t : Table) (id : Int32) : Prop := ∀ r ∈ t.rows, r t.key ≠ some (keyText id)

instance (t : Table) (id : Int32) : Decidable (t.Fresh id) :=
  inferInstanceAs (Decidable (∀ r ∈ t.rows, _))

/-- The row an insertion adds: the key, the values of the named columns, and NULL elsewhere. -/
def newRow (key : String) (id : Int32) (cells : List (String × Option String)) : Row := fun c ↦
  if c = key then some (keyText id) else (cells.lookup c).join

@[simp] theorem newRow_key (key : String) (id : Int32) (cells : List (String × Option String)) :
    newRow key id cells key = some (keyText id) := if_pos rfl

theorem newRow_of_ne {key c : String} (h : c ≠ key) (id : Int32)
    (cells : List (String × Option String)) : newRow key id cells c = (cells.lookup c).join :=
  if_neg h

def Table.insert (t : Table) (id : Int32) (cells : List (String × Option String))
    (h : t.Fresh id) : Table where
  columns := t.columns
  key := t.key
  rows := t.rows ++ [newRow t.key id cells]
  columns_nodup := t.columns_nodup
  key_mem := t.key_mem
  keys := by
    intro r hr
    rcases List.mem_append.mp hr with hr | hr
    · exact t.keys r hr
    · rw [List.mem_singleton.mp hr]
      exact ⟨id, newRow_key _ _ _⟩
  keys_nodup := by
    rw [List.map_append, List.map_singleton, newRow_key]
    refine List.nodup_append.mpr ⟨t.keys_nodup, List.nodup_singleton _, ?_⟩
    intro a ha b hb
    obtain ⟨r, hr, rfl⟩ := List.mem_map.mp ha
    rw [List.mem_singleton.mp hb]
    exact h r hr

@[simp] theorem Table.insert_rows (t : Table) (id : Int32) (cells : List (String × Option String))
    (h : t.Fresh id) : (t.insert id cells h).rows = t.rows ++ [newRow t.key id cells] := rfl

@[simp] theorem Table.insert_columns (t : Table) (id : Int32)
    (cells : List (String × Option String)) (h : t.Fresh id) :
    (t.insert id cells h).columns = t.columns := rfl

@[simp] theorem Table.insert_key (t : Table) (id : Int32) (cells : List (String × Option String))
    (h : t.Fresh id) : (t.insert id cells h).key = t.key := rfl

/-- The tables by name. -/
abbrev Db := String → Table

/-! ## Requests and results -/

/-- A statement's text with the values of its placeholders, `none` being NULL. -/
structure Request where
  text : String
  params : List (Option String)
  deriving DecidableEq, Repr

inductive Status where
  | commandOk | tuplesOk | fatalError
  deriving DecidableEq, Repr

/-- What comes back: the names of the result columns, and one list of cells for each row. -/
structure Result where
  status : Status
  message : String
  fields : List String
  tuples : List (List (Option String))
  deriving DecidableEq, Repr

namespace Result

def failed (message : String) : Result := ⟨.fatalError, message, [], []⟩

def tuplesOk (fields : List String) (tuples : List (List (Option String))) : Result :=
  ⟨.tuplesOk, "", fields, tuples⟩

/-- The answer to an accepted insertion. -/
def returned (column : String) (id : Int32) : Result := tuplesOk [column] [[some (keyText id)]]

theorem returned_injective {column : String} : Function.Injective (returned column) := by
  intro i j h
  have htuples := congrArg tuples h
  simp only [returned, tuplesOk, List.cons.injEq, Option.some.injEq, and_true] at htuples
  exact keyText_injective htuples

@[simp] theorem status_failed (message : String) : (failed message).status = .fatalError := rfl

@[simp] theorem status_returned (column : String) (id : Int32) :
    (returned column id).status = .tuplesOk := rfl

/-- Whole rows, in the physical order of the columns. -/
def ofRows (columns : List String) (rows : List Row) : Result :=
  tuplesOk columns (rows.map columns.map)

end Result

/-! ## Execution -/

/-- The server's choice: which key to give, or why to refuse. Only insertions look at it. -/
inductive Verdict where
  | accept (id : Int32)
  | reject (message : String)

/-- The value an operand stands for: nothing for a placeholder without a value. -/
def Operand.value (params : List (Option String)) : Operand → Option (Option String)
  | .param n => if n = 0 then none else params[n - 1]?
  | .number n => some (some (toString n))
  | .literal s => some (some s)

/-- Comparison with `=`: NULL on either side selects nothing. -/
def equals : Option String → Option String → Bool
  | some a, some b => a = b
  | _, _ => false

theorem equals_some_iff {v : Option String} {s : String} : equals v (some s) ↔ v = some s := by
  cases v <;> simp [equals]

/-- The rows a condition selects. Only equality is interpreted. -/
def Table.select (t : Table) (c : Condition) (params : List (Option String)) : Option (List Row) :=
  if c.operator = .eq ∧ c.column ∈ t.columns then
    (c.operand.value params).map fun v ↦ t.rows.filter fun r ↦ equals (r c.column) v
  else none

/-- What an insertion must look like to be accepted: its columns exist and leave the key to the
server, every placeholder has a value, and the key is asked back. -/
structure Table.Accepts (t : Table) (columns : List String) (ids : List ℕ)
    (params : List (Option String)) (returning : String) : Prop where
  returns_key : returning = t.key
  nodup : columns.Nodup
  known : ∀ c ∈ columns, c ∈ t.columns ∧ c ≠ t.key
  length_eq : ids.length = columns.length
  bound : ∀ n ∈ ids, 1 ≤ n ∧ n ≤ params.length

instance (t : Table) (columns : List String) (ids : List ℕ) (params : List (Option String))
    (returning : String) : Decidable (t.Accepts columns ids params returning) :=
  decidable_of_iff
    (returning = t.key ∧ columns.Nodup ∧ (∀ c ∈ columns, c ∈ t.columns ∧ c ≠ t.key) ∧
      ids.length = columns.length ∧ ∀ n ∈ ids, 1 ≤ n ∧ n ≤ params.length)
    ⟨fun ⟨h₁, h₂, h₃, h₄, h₅⟩ ↦ ⟨h₁, h₂, h₃, h₄, h₅⟩, fun ⟨h₁, h₂, h₃, h₄, h₅⟩ ↦
      ⟨h₁, h₂, h₃, h₄, h₅⟩⟩

/-- The values of the placeholders, column by column. -/
def cellsOf (columns : List String) (ids : List ℕ) (params : List (Option String)) :
    List (String × Option String) :=
  columns.zip (ids.map fun n ↦ params[n - 1]?.join)

def executeInsert (db : Db) (table : String) (columns : List String) (ids : List ℕ)
    (returning : String) (params : List (Option String)) : Verdict → Db × Result
  | .reject message => (db, .failed message)
  | .accept id =>
    if h : (db table).Accepts columns ids params returning ∧ (db table).Fresh id then
      (Function.update db table ((db table).insert id (cellsOf columns ids params) h.2),
        .returned returning id)
    else (db, .failed "insertion rejected")

def execute (db : Db) (q : Request) (v : Verdict) : Db × Result :=
  match parse q.text with
  | some (.selectAll t) => (db, .ofRows (db t).columns (db t).rows)
  | some (.selectWhere t c) =>
    (db, match (db t).select c q.params with
      | some rows => .ofRows (db t).columns rows
      | none => .failed "condition rejected")
  | some (.existsWhere t c) =>
    (db, match (db t).select c q.params with
      | some rows => .tuplesOk ["exists"] [[some (if rows = [] then "f" else "t")]]
      | none => .failed "condition rejected")
  | some (.insert t columns ids returning) =>
    executeInsert db t columns ids returning q.params v
  | none => (db, .failed "syntax error")

/-- What the server can do with a request. -/
def Step (db : Db) (q : Request) (db' : Db) (r : Result) : Prop := ∃ v, execute db q v = (db', r)

/-! ## Adding a row -/

/-- One more row in one table. A key that is already there changes nothing. -/
def addRow (db : Db) (table : String) (id : Int32) (cells : List (String × Option String)) : Db :=
  if h : (db table).Fresh id then Function.update db table ((db table).insert id cells h) else db

section AddRow

variable {db : Db} {table : String} {id : Int32} {cells : List (String × Option String)}

theorem addRow_rows (h : (db table).Fresh id) :
    (addRow db table id cells table).rows
      = (db table).rows ++ [newRow (db table).key id cells] := by
  rw [addRow, dif_pos h, Function.update_self, Table.insert_rows]

theorem addRow_of_ne {t : String} (ht : t ≠ table) : addRow db table id cells t = db t := by
  rw [addRow]
  split
  · exact Function.update_of_ne ht _ _
  · rfl

/-- What no insertion changes in a table is not changed in any. -/
theorem addRow_congr {α : Type} (f : Table → α)
    (hf : ∀ (t : Table) (h : t.Fresh id), f (t.insert id cells h) = f t) (t : String) :
    f (addRow db table id cells t) = f (db t) := by
  by_cases ht : t = table
  · subst ht
    rw [addRow]
    split
    · rw [Function.update_self, hf]
    · rfl
  · rw [addRow_of_ne ht]

@[simp] theorem addRow_key (t : String) : (addRow db table id cells t).key = (db t).key :=
  addRow_congr Table.key (fun _ _ ↦ rfl) t

@[simp] theorem addRow_columns (t : String) :
    (addRow db table id cells t).columns = (db t).columns :=
  addRow_congr Table.columns (fun _ _ ↦ rfl) t

end AddRow

/-! ## What each statement does -/

section Steps

variable {db db' : Db} {q : Request} {r : Result} {t : String}

/-- A request on which the server has no choice, and which changes nothing. -/
theorem step_iff_of_execute {r₀ : Result} (h : ∀ v, execute db q v = (db, r₀)) :
    Step db q db' r ↔ db' = db ∧ r = r₀ := by
  simp only [Step, h, Prod.mk.injEq, exists_const_iff]
  constructor
  · rintro ⟨-, rfl, rfl⟩
    exact ⟨rfl, rfl⟩
  · rintro ⟨rfl, rfl⟩
    exact ⟨⟨.reject ""⟩, rfl, rfl⟩

theorem step_selectAll_iff (h : parse q.text = some (.selectAll t)) :
    Step db q db' r ↔ db' = db ∧ r = .ofRows (db t).columns (db t).rows :=
  step_iff_of_execute fun _ ↦ by simp only [execute, h]

theorem select_eq {c : Condition} {params : List (Option String)} {v : Option String}
    {t : Table} (ho : c.operator = .eq) (hc : c.column ∈ t.columns)
    (hv : c.operand.value params = some v) :
    t.select c params = some (t.rows.filter fun r ↦ equals (r c.column) v) := by
  rw [Table.select, if_pos ⟨ho, hc⟩, hv, Option.map_some]

theorem step_selectWhere_iff {c : Condition} {rows : List Row}
    (h : parse q.text = some (.selectWhere t c)) (hsel : (db t).select c q.params = some rows) :
    Step db q db' r ↔ db' = db ∧ r = .ofRows (db t).columns rows :=
  step_iff_of_execute fun _ ↦ by simp only [execute, h, hsel]

theorem step_existsWhere_iff {c : Condition} {rows : List Row}
    (h : parse q.text = some (.existsWhere t c)) (hsel : (db t).select c q.params = some rows) :
    Step db q db' r ↔
      db' = db ∧ r = .tuplesOk ["exists"] [[some (if rows = [] then "f" else "t")]] :=
  step_iff_of_execute fun _ ↦ by simp only [execute, h, hsel]

theorem step_selectWhere_of_none {c : Condition} (hstep : Step db q db' r)
    (h : parse q.text = some (.selectWhere t c)) (hsel : (db t).select c q.params = none) :
    db' = db ∧ r = .failed "condition rejected" :=
  (step_iff_of_execute fun _ ↦ by simp only [execute, h, hsel]).mp hstep

theorem step_insert_iff {columns : List String} {ids : List ℕ} {returning : String}
    (h : parse q.text = some (.insert t columns ids returning)) :
    Step db q db' r ↔
      (∃ message, db' = db ∧ r = .failed message) ∨
        ∃ id, (db t).Accepts columns ids q.params returning ∧ (db t).Fresh id ∧
          db' = addRow db t id (cellsOf columns ids q.params) ∧ r = .returned returning id := by
  simp only [Step, execute, h]
  constructor
  · rintro ⟨v, hv⟩
    cases v with
    | reject message =>
      obtain ⟨rfl, rfl⟩ := Prod.mk.inj hv
      exact .inl ⟨message, rfl, rfl⟩
    | accept id =>
      rw [executeInsert] at hv
      split at hv
      · rename_i hok
        obtain ⟨rfl, rfl⟩ := Prod.mk.inj hv
        exact .inr ⟨id, hok.1, hok.2, by rw [addRow, dif_pos hok.2], rfl⟩
      · obtain ⟨rfl, rfl⟩ := Prod.mk.inj hv
        exact .inl ⟨_, rfl, rfl⟩
  · rintro (⟨message, rfl, rfl⟩ | ⟨id, hacc, hfresh, rfl, rfl⟩)
    · exact ⟨.reject message, rfl⟩
    · exact ⟨.accept id, by rw [executeInsert, dif_pos ⟨hacc, hfresh⟩, addRow, dif_pos hfresh]⟩

/-- When the `k`-th value is `$k`, the cells pair the columns with the values in order. -/
theorem cellsOf_range' (columns : List String) (params : List (Option String)) :
    cellsOf columns (List.range' 1 params.length) params = columns.zip params := by
  rw [cellsOf]
  congr 1
  refine List.ext_getElem (by simp) fun i hi hi' ↦ ?_
  simp [List.getElem?_eq_getElem hi']

end Steps

end Sql
