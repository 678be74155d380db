import SphinxBackend.Sql.Database

/-!
# Table definitions

What `CREATE TABLE` says about a row: the type of each column, which columns may be NULL, and a
`CHECK`. A check is a formula over the row in three values, and the row is refused only if the
formula is false. What bounds the length of a text, and what compares one row with others, is left
out, so a definition here admits every row that the server would. References are kept apart, as a
property of all tables.
-/

namespace Sql

/-! ## Three values -/

/-- `none` is the third value, unknown. -/
abbrev Truth := Option Bool

namespace Truth

def and : Truth → Truth → Truth
  | some false, _ => some false
  | _, some false => some false
  | some true, some true => some true
  | _, _ => none

def or : Truth → Truth → Truth
  | some true, _ => some true
  | _, some true => some true
  | some false, some false => some false
  | _, _ => none

end Truth

/-- `v IN (values)`. -/
def isIn (v : Option String) (values : List String) : Truth := v.map fun s ↦ values.contains s

/-- `v NOT IN (values)`. -/
def isNotIn (v : Option String) (values : List String) : Truth :=
  v.map fun s ↦ !values.contains s

/-! ## Columns -/

inductive CellType where
  | integer
  | text
  | enum (values : List String)
  deriving DecidableEq, Repr

/-- The texts of the values of a type. No text has a NUL. -/
def CellType.HasText : CellType → String → Prop
  | integer, s => ∃ n : Int32, s = keyText n
  | text, s => '\x00' ∉ s.toList
  | enum values, s => s ∈ values

structure ColumnDefinition where
  name : String
  type : CellType
  nullable : Bool
  deriving DecidableEq, Repr

/-- What a column may contain. -/
def ColumnDefinition.Admits (c : ColumnDefinition) : Option String → Prop
  | none => c.nullable
  | some s => c.type.HasText s

structure Definition where
  columns : List ColumnDefinition
  check : Row → Truth

/-- The definition lets the row into the table. -/
structure Definition.Admits (d : Definition) (r : Row) : Prop where
  column : ∀ c ∈ d.columns, c.Admits (r c.name)
  check : d.check r ≠ some false

/-- A column that is not nullable is not NULL. -/
theorem Definition.Admits.isSome {d : Definition} {r : Row} (h : d.Admits r) {c : ColumnDefinition}
    (hc : c ∈ d.columns) (hnull : c.nullable = false) : (r c.name).isSome := by
  have hadmits := h.column c hc
  cases hcell : r c.name with
  | some s => rfl
  | none =>
    rw [hcell, ColumnDefinition.Admits, hnull] at hadmits
    exact absurd hadmits (by simp)

/-! ## References -/

end Sql
