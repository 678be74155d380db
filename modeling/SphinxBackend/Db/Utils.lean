import SphinxBackend.Db.Column
import SphinxBackend.Error
import SphinxBackend.Sql.Database

/-!
# Values to text and back

`db_utils.h` and `db_utils.cpp`: the text of the values sent to the server, and the reading of a
`PGresult` into an entity. A result is read by name. `getColumnsId` finds the number of each of the
entity's columns among the result's once, and `getRow` then loads every row through these numbers;
a column that is not there has number `-1` and keeps its default.
-/

namespace Sphinx.Db

/-! ## Text to values -/

/-- `convert_to<std::int32_t>`. -/
def stoi (data : String) : Except Error Int32 :=
  match Text.scanInt data with
  | none => .error .invalidArgument
  | some n =>
    if Int32.minValue.toInt ≤ n ∧ n ≤ Int32.maxValue.toInt then .ok (Int32.ofInt n)
    else .error .outOfRange

def convertTo : (t : ColumnType) → String → Except Error t.Denote
  | .int32, data => stoi data
  | .string, data => .ok data

/-- `convert_to<bool>`: `data[0] == 't' || data[0] == '1'`. -/
def convertToBool (data : String) : Bool :=
  data.toList.head? = some 't' ∨ data.toList.head? = some '1'

theorem stoi_of_isDecimalOf {data : String} {v : Int32} (h : Text.IsDecimalOf data v.toInt) :
    stoi data = .ok v := by
  rw [stoi, Text.scanInt_of_isDecimalOf h]
  simp only [v.minValue_le_toInt, v.toInt_le, and_self, if_true, Int32.ofInt_toInt]

theorem stoi_toString (v : Int32) : stoi (toString v.toInt) = .ok v :=
  stoi_of_isDecimalOf (Text.isDecimalOf_toString _)

/-! ## Results -/

abbrev PGresult := Sql.Result

def pqNtuples (res : PGresult) : ℕ := res.tuples.length

/-- The number of the first result column with this name, or `-1`. The name is folded to lower case
first, as an identifier in a statement is; the name of a member has no quotes that would keep it. -/
def pqFnumber (res : PGresult) (name : String) : Int :=
  match res.fields.findIdx? (· = foldCase name) with
  | some i => i
  | none => -1

/-- The cell in a row and a column; `none` when there is no such cell. -/
def cell (res : PGresult) (row : ℕ) (col : Int) : Option (Option String) :=
  (res.tuples[row]?).bind fun tuple ↦ if col < 0 then none else tuple[col.toNat]?

def pqGetisnull (res : PGresult) (row : ℕ) (col : Int) : Bool := (cell res row col).join.isNone

/-- The text of a cell, empty for NULL. -/
def pqGetvalue (res : PGresult) (row : ℕ) (col : Int) : String := (cell res row col).join.getD ""

def getField (t : ColumnType) (res : PGresult) (row : ℕ) (col : Int) : Except Error t.Denote :=
  convertTo t (pqGetvalue res row col)

def getFieldOptional (t : ColumnType) (res : PGresult) (row : ℕ) (col : Int) :
    Except Error (Option t.Denote) :=
  if pqGetisnull res row col then .ok none else (getField t res row col).map some

/-- `get_field_c`, by whether the column is optional. -/
def getFieldC (t : ColumnType) : (opt : Bool) → PGresult → ℕ → Int → Except Error (ValueOf t opt)
  | true, res, row, col => getFieldOptional t res row col
  | false, res, row, col => getField t res row col

section Rows

variable {E : Type}

/-- The numbers are looked up by the column's own number. -/
def loadFieldFromRes (res : PGresult) (row : ℕ) (colsId : List Int) (entity : E) (a : Accessor E) :
    Except Error E :=
  match colsId[a.column.n]? with
  | none => .error .outOfBounds
  | some col =>
    if col ≠ -1 then (getFieldC a.column.type a.column.isOptional res row col).map (a.set entity)
    else .ok entity

variable [Struct E]

variable (E) in
/-- The number of each column of the entity among the columns of the result, in the order of the
accessors. -/
def getColumnsId (res : PGresult) : List Int :=
  (Struct.accessors (E := E)).map fun a ↦ pqFnumber res a.name

variable (E) in
def getRow (res : PGresult) (colsId : List Int) (row : ℕ) : Except Error E :=
  (Struct.accessors (E := E)).foldlM (loadFieldFromRes res row colsId) (Entity.init : E)

end Rows

/-! ## Reading the rows of a table -/

/-- What the content of a cell is in a column, by whether the column is optional. -/
def decodeCell (t : ColumnType) : (opt : Bool) → Option String → Except Error (ValueOf t opt)
  | true, none => .ok none
  | true, some data => (convertTo t data).map some
  | false, data => convertTo t (data.getD "")

theorem getFieldC_eq (t : ColumnType) (opt : Bool) (res : PGresult) (row : ℕ) (col : Int) :
    getFieldC t opt res row col = decodeCell t opt (cell res row col).join := by
  cases opt with
  | true =>
    rw [getFieldC, getFieldOptional, pqGetisnull, getField, pqGetvalue]
    cases (cell res row col).join <;> rfl
  | false => rw [getFieldC, getField, pqGetvalue, decodeCell]

/-- The text is one of the value: an integer in decimal, or the string itself. -/
def Denotes : (t : ColumnType) → String → t.Denote → Prop
  | .int32, data, v => Text.IsDecimalOf data v.toInt
  | .string, data, v => data = v

theorem denotes_format (t : ColumnType) (v : t.Denote) : Denotes t (t.format v) v := by
  cases t with
  | int32 => exact Text.isDecimalOf_toString _
  | string => rfl

/-- The content of a cell stands for the value of a column, NULL for an absent one. -/
def CellHolds {t : ColumnType} {opt : Bool} (data : Option String) (v : ValueOf t opt) : Prop :=
  Option.Rel (Denotes t) data v.toPlain

theorem cellHolds_toOptionalString {t : ColumnType} {opt : Bool} (v : ValueOf t opt) :
    CellHolds v.toOptionalString v := by
  rw [CellHolds, ValueOf.toOptionalString_eq]
  cases v.toPlain with
  | none => exact .none
  | some p => exact .some (denotes_format t p)

theorem convertTo_of_denotes {t : ColumnType} {data : String} {v : t.Denote}
    (h : Denotes t data v) : convertTo t data = .ok v := by
  cases t with
  | int32 => exact stoi_of_isDecimalOf h
  | string => exact congrArg _ h

/-- Decoding finds the value a cell stands for. -/
theorem decodeCell_of_cellHolds {t : ColumnType} {opt : Bool} {data : Option String}
    {v : ValueOf t opt} (h : CellHolds data v) : decodeCell t opt data = .ok v := by
  cases opt with
  | true =>
    change Option.Rel (Denotes t) data v at h
    cases h with
    | none => rfl
    | some h =>
      rw [decodeCell, convertTo_of_denotes h]
      rfl
  | false =>
    change Option.Rel (Denotes t) data (some v) at h
    cases h with
    | some h => exact convertTo_of_denotes h

/-- Decoding inverts encoding, absence and the empty string included. -/
theorem decodeCell_toOptionalString {t : ColumnType} {opt : Bool} (v : ValueOf t opt) :
    decodeCell t opt v.toOptionalString = .ok v :=
  decodeCell_of_cellHolds (cellHolds_toOptionalString v)

section Decode

variable {E : Type}

/-- What a row says about a column: its value, or nothing if the result has no such column. -/
def readColumn (res : PGresult) (row : ℕ) (colsId : List Int) (a : Accessor E) :
    Except Error (Option a.column.Value) :=
  match colsId[a.column.n]? with
  | none => .error .outOfBounds
  | some col =>
    if col ≠ -1 then (getFieldC a.column.type a.column.isOptional res row col).map some
    else .ok none

theorem loadFieldFromRes_eq (res : PGresult) (row : ℕ) (colsId : List Int) (entity : E)
    (a : Accessor E) : loadFieldFromRes res row colsId entity a
      = (readColumn res row colsId a).map (a.write entity) := by
  rw [loadFieldFromRes, readColumn]
  cases colsId[a.column.n]? with
  | none => rfl
  | some col =>
    by_cases hcol : col = -1
    · simp [hcol, Except.map, Accessor.write]
    · simp only [ne_eq, hcol, not_false_eq_true, if_true]
      cases getFieldC a.column.type a.column.isOptional res row col <;> rfl

section Struct

variable [Struct E]

theorem getRow_eq_load (res : PGresult) (colsId : List Int) (row : ℕ) :
    getRow E res colsId row = load (readColumn res row colsId) (Entity.init : E) := by
  have h : loadFieldFromRes res row colsId
      = fun (e : E) a ↦ (readColumn res row colsId a).map (a.write e) :=
    funext fun e ↦ funext fun a ↦ loadFieldFromRes_eq res row colsId e a
  rw [getRow, h, load]

/-- If the columns are numbered as they are listed, a column's own number is the place of its
number among those of the result. -/
theorem getColumnsId_getElem?_of_numbered
    (hn : (Struct.accessors (E := E)).map (·.column.n)
      = List.range (Struct.accessors (E := E)).length)
    (res : PGresult) {a : Accessor E} (ha : a ∈ Struct.accessors (E := E)) :
    (getColumnsId E res)[a.column.n]? = some (pqFnumber res a.name) := by
  obtain ⟨i, hi, rfl⟩ := List.mem_iff_getElem.mp ha
  have hi' := congrArg (·[i]?) hn
  simp only [List.getElem?_map, List.getElem?_eq_getElem hi, List.getElem?_range hi,
    Option.map_some, Option.some_inj] at hi'
  rw [hi', getColumnsId, List.getElem?_map, List.getElem?_eq_getElem hi, Option.map_some]

/-- What named cells say about a column. `PQfnumber` looks for its name in lower case. -/
def readNamed (cells : List (String × Option String)) (a : Accessor E) :
    Except Error (Option a.column.Value) :=
  match cells.lookup (foldCase a.name) with
  | some data => (decodeCell a.column.type a.column.isOptional data).map some
  | none => .ok none

/-- The number of a column leads to the cell under its name. -/
theorem readColumn_eq_readNamed
    (hn : (Struct.accessors (E := E)).map (·.column.n)
      = List.range (Struct.accessors (E := E)).length)
    {res : PGresult} {row : ℕ} {tuple : List (Option String)}
    (hrow : res.tuples[row]? = some tuple) (hlen : tuple.length = res.fields.length)
    {a : Accessor E} (ha : a ∈ Struct.accessors (E := E)) :
    readColumn res row (getColumnsId E res) a = readNamed (res.fields.zip tuple) a := by
  rw [readColumn, getColumnsId_getElem?_of_numbered hn res ha, readNamed, Collections.lookup_zip,
    pqFnumber]
  cases hfield : res.fields.findIdx? (· = foldCase a.name) with
  | none => rfl
  | some i =>
    obtain ⟨hlt, -⟩ := List.findIdx?_eq_some_iff_getElem.mp hfield
    have hi : i < tuple.length := hlen ▸ hlt
    have hcell : cell res row (i : Int) = some tuple[i] := by
      rw [cell, hrow, Option.bind_some, if_neg (by omega), Int.toNat_natCast,
        List.getElem?_eq_getElem hi]
    have hne : (i : Int) ≠ -1 := by omega
    simp only [ne_eq, hne, not_false_eq_true, if_true, Option.bind_some,
      List.getElem?_eq_getElem hi]
    rw [getFieldC_eq, hcell]
    rfl

variable (E) in
/-- The entity that named cells decode to. -/
def decodeNamed (cells : List (String × Option String)) : Except Error E :=
  load (readNamed cells) Entity.init

/-- **A row is decoded by name**, whatever the numbers of the columns are. -/
theorem getRow_eq_decodeNamed
    (hn : (Struct.accessors (E := E)).map (·.column.n)
      = List.range (Struct.accessors (E := E)).length)
    {res : PGresult} {row : ℕ} {tuple : List (Option String)}
    (hrow : res.tuples[row]? = some tuple) (hlen : tuple.length = res.fields.length) :
    getRow E res (getColumnsId E res) row = decodeNamed E (res.fields.zip tuple) := by
  rw [getRow_eq_load, decodeNamed]
  exact load_congr fun a ha ↦ readColumn_eq_readNamed hn hrow hlen ha

variable (E) in
/-- The entity a whole row decodes to. -/
def decodeRow (r : Sql.Row) : Except Error E :=
  load (fun a ↦ (decodeCell a.column.type a.column.isOptional (r a.name)).map some) Entity.init

/-- The entity of a row has the values that the cells stand for. -/
theorem get_of_decodeRow {r : Sql.Row} {e : E} (h : decodeRow E r = .ok e) {a : Accessor E}
    (ha : a ∈ Struct.accessors (E := E)) {v : a.column.Value} (hv : CellHolds (r a.name) v) :
    a.get e = v := by
  obtain ⟨w, hw, hget⟩ := exists_of_load h ha
  rw [decodeCell_of_cellHolds hv] at hw
  obtain rfl := Except.ok.inj hw
  exact hget

/-- An entity with the columns of `e` that is otherwise as a new one. -/
def columnsOnly (e : E) : E := writeAll (fun a ↦ some (a.get e)) Entity.init

/-- The row holds the columns of the entity. -/
def Holds (r : Sql.Row) (e : E) : Prop :=
  ∀ a ∈ Struct.accessors (E := E), r a.name = (a.get e).toOptionalString

theorem Holds.decodeRow {r : Sql.Row} {e : E} (h : Holds r e) :
    decodeRow E r = .ok (columnsOnly e) := by
  refine load_eq_ok (fun a ha ↦ ?_) _
  rw [h a ha, decodeCell_toOptionalString]
  rfl

end Struct

variable [Entity E]

/-- Reading a row of a selection of whole rows is decoding it, whatever the physical order of the
columns and whatever other columns there are. -/
theorem getRow_ofRows {columns : List String} {rows : List Sql.Row} {r : Sql.Row} {row : ℕ}
    (hrow : rows[row]? = some r)
    (hcolumns : ∀ a ∈ Struct.accessors (E := E), a.name ∈ columns) :
    getRow E (.ofRows columns rows) (getColumnsId E (.ofRows columns rows)) row
      = decodeRow E r := by
  have htuple : (Sql.Result.ofRows columns rows).tuples[row]? = some (columns.map r) := by
    change (rows.map columns.map)[row]? = _
    rw [List.getElem?_map, hrow, Option.map_some]
  rw [getRow_eq_decodeNamed Entity.numbered htuple (List.length_map _), decodeNamed, decodeRow]
  refine load_congr fun a ha ↦ ?_
  have hlookup : (columns.zip (columns.map r)).lookup (foldCase a.name) = some (r a.name) := by
    rw [Entity.lowercase a ha]
    exact Collections.lookup_zip_map r (hcolumns a ha)
  rw [readNamed, show (Sql.Result.ofRows columns rows).fields = columns from rfl, hlookup]

end Decode

/-! ## Values to text -/

/-- `std::vector<std::optional<std::string>>`. -/
abbrev ValueList := List (Option String)

def makeValueList (args : List Member) : ValueList := args.map fun m ↦ m.value.toOptionalString

theorem makeValueList_getValuesToInsert {E : Type} [Struct E] (e : E) :
    makeValueList (getValuesToInsert e)
      = (getInsertColumns E).map fun a ↦ (a.get e).toOptionalString := by
  rw [makeValueList, getValuesToInsert_eq, List.map_map]
  rfl

end Sphinx.Db
