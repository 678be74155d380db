import Mathlib.Data.List.Nodup
import SphinxBackend.Collections.Fallible
import SphinxBackend.Sql.Statement

/-!
# Columns and entities

The compile-time description of an entity: `model_column.h`, `model_column_traits.h` and
`model_meta.h`. A column has a number, a type and traits, and the traits decide the type of the
value it holds: an optional column holds an `Option`. What the reflection library makes of a
struct is a list of accessors, each a name with a pointer to the member, in declaration order;
every function over an entity is a traversal of that list.

`Struct` is any entity type declared that way, with any columns. Its laws say what C++ gives for
free: the members have different names, writing one of them is seen by reading it and by reading no
other, and a value-initialised object has nothing in it. Most templates ask for no more. `Entity`
is a struct that fits a table: the member `id` is its only primary key, and its names are those of
an unquoted statement.
-/

namespace Sphinx.Db

/-! ## Columns -/

/-- The member types in use. -/
inductive ColumnType where
  | int32
  | string
  deriving DecidableEq, Repr

@[reducible] def ColumnType.Denote : ColumnType → Type
  | int32 => Int32
  | string => String

/-- The value of a value-initialised object. -/
def ColumnType.zero : (t : ColumnType) → t.Denote
  | int32 => (0 : Int32)
  | string => ""

/-- `"{}"` in a format string. -/
def ColumnType.format : (t : ColumnType) → t.Denote → String
  | int32, v => toString v.toInt
  | string, v => v

inductive Trait where
  | primarykey | optional | autoincrement | foreignkey
  deriving DecidableEq, Repr

structure Column where
  n : ℕ
  type : ColumnType
  traits : List Trait
  deriving DecidableEq, Repr

/-- `ForeignKey<N, ParentTable, PK, Entity, Traits...>`: the type is that of the key referred to. -/
def foreignKey (n : ℕ) (pk : Column) (traits : List Trait) : Column :=
  ⟨n, pk.type, .foreignkey :: traits⟩

namespace Column

def isPrimarykey (c : Column) : Bool := c.traits.contains .primarykey

def isOptional (c : Column) : Bool := c.traits.contains .optional

def isForeignkey (c : Column) : Bool := c.traits.contains .foreignkey

end Column

/-- The type of a column's value: `std::optional<type>` or `type`. -/
@[reducible] def ValueOf (t : ColumnType) : Bool → Type
  | true => Option t.Denote
  | false => t.Denote

abbrev Column.Value (c : Column) : Type := ValueOf c.type c.isOptional

namespace ValueOf

/-- `member.value = {}`. -/
def empty : {t : ColumnType} → {opt : Bool} → ValueOf t opt
  | _, true => none
  | t, false => t.zero

/-- `member.value = v` for a `v` of the column's plain type. -/
def ofPlain : {t : ColumnType} → {opt : Bool} → t.Denote → ValueOf t opt
  | _, true, v => some v
  | _, false, v => v

/-- The plain value, if there is one. -/
def toPlain : {t : ColumnType} → {opt : Bool} → ValueOf t opt → Option t.Denote
  | _, true, v => v
  | _, false, v => some v

/-- `to_optional_string`, by its two overloads. -/
def toOptionalString : {t : ColumnType} → {opt : Bool} → ValueOf t opt → Option String
  | t, true, v => v.map t.format
  | t, false, v => some (t.format v)

theorem toOptionalString_eq {t : ColumnType} {opt : Bool} (v : ValueOf t opt) :
    v.toOptionalString = v.toPlain.map t.format := by
  cases opt <;> rfl

/-- A text is its own text. -/
theorem toOptionalString_optional (v : ValueOf .string true) : v.toOptionalString = v := by
  cases v <;> rfl

theorem toPlain_injective {t : ColumnType} {opt : Bool} :
    Function.Injective (toPlain : ValueOf t opt → Option t.Denote) := by
  intro v w h
  cases opt with
  | true => exact h
  | false => exact Option.some.inj h

@[simp] theorem toPlain_ofPlain {t : ColumnType} {opt : Bool} (v : t.Denote) :
    (ofPlain v : ValueOf t opt).toPlain = some v := by
  cases opt <;> rfl

/-- Only an optional column can be without a plain value. -/
theorem eq_empty_of_toPlain {t : ColumnType} {opt : Bool} {v : ValueOf t opt}
    (h : v.toPlain = none) : opt = true ∧ empty = v := by
  cases opt with
  | true => exact ⟨rfl, Eq.symm h⟩
  | false => exact absurd h (by simp [toPlain])

end ValueOf

/-! ## Structs -/

/-- What the reflection of a struct holds for one member: its name and a pointer to it. -/
structure Accessor (E : Type) where
  name : String
  column : Column
  get : E → column.Value
  set : E → column.Value → E

/-- An entity type: a struct declared with `BOOST_HANA_DEFINE_STRUCT`, and the name given to its
table. -/
class Struct (E : Type) where
  /-- `EntityName<E>`. -/
  entityName : String
  /-- `hana::accessors<E>()`, in declaration order. -/
  accessors : List (Accessor E)
  names_nodup : (accessors.map (·.name)).Nodup
  get_set : ∀ a ∈ accessors, ∀ e v, a.get (a.set e v) = v
  get_set_of_ne : ∀ a ∈ accessors, ∀ b ∈ accessors, a.name ≠ b.name →
    ∀ e v, b.get (a.set e v) = b.get e
  /-- `E{}`. -/
  init : E
  get_init : ∀ a ∈ accessors, a.get init = .empty

/-- One of `hana::members(entity)`. -/
structure Member where
  column : Column
  value : column.Value

section Meta

variable (E : Type) [Struct E]

/-- `hana::accessors<E>()` filtered by the declared type of the member. -/
def getInsertColumns : List (Accessor E) :=
  (Struct.accessors (E := E)).filter fun a ↦ !a.column.isPrimarykey

/-- The first primary-key column; a `static_assert` makes sure there is one. -/
def getIdColumnHanaPair : Option (Accessor E) :=
  (Struct.accessors (E := E)).find? fun a ↦ a.column.isPrimarykey

def getIdColumnName : String := ((getIdColumnHanaPair E).map (·.name)).getD ""

/-- The first column with number `n`; a `static_assert` makes sure there is one. -/
def getNthColumnHanaPair (n : ℕ) : Option (Accessor E) :=
  (Struct.accessors (E := E)).find? fun a ↦ a.column.n = n

def getNthColumnName (n : ℕ) : String := ((getNthColumnHanaPair E n).map (·.name)).getD ""

variable {E}

def members (entity : E) : List Member :=
  (Struct.accessors (E := E)).map fun a ↦ ⟨a.column, a.get entity⟩

/-- The values of the members that are not primary keys, as a tuple. -/
def getValuesToInsert (entity : E) : List Member :=
  (members entity).filter fun m ↦ !m.column.isPrimarykey

/-- The names come from one traversal and the values from another; both keep the same columns. -/
theorem getValuesToInsert_eq (entity : E) :
    getValuesToInsert entity = (getInsertColumns E).map fun a ↦ ⟨a.column, a.get entity⟩ := by
  rw [getValuesToInsert, members, getInsertColumns, List.filter_map]
  rfl

theorem mem_accessors_of_mem_insertColumns {a : Accessor E} (h : a ∈ getInsertColumns E) :
    a ∈ Struct.accessors (E := E) := (List.mem_filter.mp h).1

theorem insertColumns_names_nodup : ((getInsertColumns E).map (·.name)).Nodup :=
  (Struct.names_nodup (E := E)).sublist (List.filter_sublist.map _)

end Meta

/-! ## Traversals that write columns

Reading a row and decoding a document both visit the columns in order and write some of them. What
is written to a column depends on the column alone, so the result can be read off column by
column, and the traversal fails with the error of the first column that fails. -/

section Load

variable {E ε : Type}

/-- Write a column, or leave it as it is. -/
def Accessor.write (a : Accessor E) (entity : E) : Option a.column.Value → E
  | some v => a.set entity v
  | none => entity

/-- `member_ptr(entity).value = v` for an integer; the column must be one. -/
def Accessor.assign (a : Accessor E) (v : Int32) (entity : E) : E :=
  if h : a.column.type = .int32 then
    a.set entity (ValueOf.ofPlain (h ▸ v : a.column.type.Denote))
  else entity

variable [Struct E]

/-- Visit the columns in order and write each as `f` says. -/
def load (f : (a : Accessor E) → Except ε (Option a.column.Value)) (entity : E) : Except ε E :=
  (Struct.accessors (E := E)).foldlM (fun e a ↦ (f a).map (a.write e)) entity

/-- The same without failures. -/
def writeAll (v : (a : Accessor E) → Option a.column.Value) (entity : E) : E :=
  (Struct.accessors (E := E)).foldl (fun e a ↦ a.write e (v a)) entity

theorem load_eq_ok {f : (a : Accessor E) → Except ε (Option a.column.Value)}
    {v : (a : Accessor E) → Option a.column.Value}
    (h : ∀ a ∈ Struct.accessors (E := E), f a = .ok (v a)) (entity : E) :
    load f entity = .ok (writeAll v entity) := by
  rw [load, writeAll]
  generalize Struct.accessors (E := E) = l at h
  induction l generalizing entity with
  | nil => rfl
  | cons a l ih =>
    rw [List.foldlM_cons, h a List.mem_cons_self, List.foldl_cons]
    exact ih _ fun b hb ↦ h b (List.mem_cons_of_mem a hb)

theorem load_congr {f g : (a : Accessor E) → Except ε (Option a.column.Value)} {entity : E}
    (h : ∀ a ∈ Struct.accessors (E := E), f a = g a) : load f entity = load g entity := by
  rw [load, load]
  generalize Struct.accessors (E := E) = l at h
  induction l generalizing entity with
  | nil => rfl
  | cons a l ih =>
    rw [List.foldlM_cons, List.foldlM_cons, h a List.mem_cons_self]
    exact congrArg _ (funext fun e ↦ ih fun b hb ↦ h b (List.mem_cons_of_mem a hb))

theorem errorOf_load (f : (a : Accessor E) → Except ε (Option a.column.Value)) (entity : E) :
    Collections.errorOf (load f entity)
      = (Struct.accessors (E := E)).findSome? fun a ↦ Collections.errorOf (f a) :=
  Collections.errorOf_foldlM (fun _ a _ ↦ Collections.errorOf_map _ (f a)) entity

theorem load_exists_ok {f : (a : Accessor E) → Except ε (Option a.column.Value)}
    (h : ∀ a ∈ Struct.accessors (E := E), ∃ v, f a = .ok v) (entity : E) :
    ∃ e, load f entity = .ok e := by
  rw [← Collections.errorOf_eq_none_iff, errorOf_load, List.findSome?_eq_none_iff]
  exact fun a ha ↦ Collections.errorOf_eq_none_iff.mpr (h a ha)

theorem get_write_of_ne {a b : Accessor E} (ha : a ∈ Struct.accessors (E := E))
    (hb : b ∈ Struct.accessors (E := E)) (hne : a.name ≠ b.name) (entity : E)
    (v : Option a.column.Value) : b.get (a.write entity v) = b.get entity := by
  cases v with
  | none => rfl
  | some v => exact Struct.get_set_of_ne a ha b hb hne entity v

theorem get_write_self {a : Accessor E} (ha : a ∈ Struct.accessors (E := E)) (entity : E)
    (v : Option a.column.Value) : a.get (a.write entity v) = v.getD (a.get entity) := by
  cases v with
  | none => rfl
  | some v => exact Struct.get_set a ha entity v

/-- After the traversal every column holds what was written to it, or what it held before. -/
theorem get_writeAll (v : (a : Accessor E) → Option a.column.Value) (entity : E)
    {b : Accessor E} (hb : b ∈ Struct.accessors (E := E)) :
    b.get (writeAll v entity) = (v b).getD (b.get entity) := by
  -- a stretch of the traversal without this column's name leaves the column alone
  have hrest (l : List (Accessor E)) (hl : ∀ a ∈ l, a ∈ Struct.accessors (E := E))
      (hnot : b.name ∉ l.map (·.name)) (e : E) :
      b.get (l.foldl (fun e a ↦ a.write e (v a)) e) = b.get e := by
    induction l generalizing e with
    | nil => rfl
    | cons a l ih =>
      rw [List.map_cons, List.mem_cons, not_or] at hnot
      rw [List.foldl_cons, ih (fun c hc ↦ hl c (List.mem_cons_of_mem a hc)) hnot.2,
        get_write_of_ne (hl a List.mem_cons_self) hb (Ne.symm hnot.1)]
  obtain ⟨l₁, l₂, hsplit⟩ := List.append_of_mem hb
  have hnd := Struct.names_nodup (E := E)
  rw [hsplit, List.map_append, List.map_cons, List.nodup_append, List.nodup_cons] at hnd
  have hmem₁ : ∀ a ∈ l₁, a ∈ Struct.accessors (E := E) := fun a ha ↦ by
    rw [hsplit]
    exact List.mem_append_left _ ha
  have hmem₂ : ∀ a ∈ l₂, a ∈ Struct.accessors (E := E) := fun a ha ↦ by
    rw [hsplit]
    exact List.mem_append_right _ (List.mem_cons_of_mem b ha)
  have hnot₁ : b.name ∉ l₁.map (·.name) := fun h ↦
    hnd.2.2 _ h _ List.mem_cons_self rfl
  rw [writeAll, hsplit, List.foldl_append, List.foldl_cons, hrest l₂ hmem₂ hnd.2.1.1,
    get_write_self hb, hrest l₁ hmem₁ hnot₁]

/-- A traversal that succeeds has written to each column what was to be written there. -/
theorem exists_of_load {f : (a : Accessor E) → Except ε (Option a.column.Value)} {e e' : E}
    (h : load f e = .ok e') {b : Accessor E} (hb : b ∈ Struct.accessors (E := E)) :
    ∃ v, f b = .ok v ∧ b.get e' = v.getD (b.get e) := by
  have hnone := Collections.errorOf_eq_none_iff.mpr ⟨e', h⟩
  rw [errorOf_load, List.findSome?_eq_none_iff] at hnone
  choose v hv using fun a ha ↦ Collections.errorOf_eq_none_iff.mp (hnone a ha)
  classical
  have hwrite := load_eq_ok (f := f)
    (v := fun a ↦ if ha : a ∈ Struct.accessors then v a ha else none)
    (fun a ha ↦ by rw [dif_pos ha]; exact hv a ha) e
  rw [h] at hwrite
  refine ⟨v b hb, hv b hb, ?_⟩
  rw [Except.ok.inj hwrite, get_writeAll _ _ hb, dif_pos hb]

end Load

/-! ## Entities -/

/-- The accessor of the member `id`, declared as `Column<0, E, std::int32_t, primarykey_tag>`. -/
def idAccessor {E : Type} (get : E → Int32) (set : E → Int32 → E) : Accessor E where
  name := "id"
  column := ⟨0, .int32, [.primarykey]⟩
  get := get
  set := set

/-- `pg_tolower` on every character: an unquoted name as the server spells it. -/
def foldCase (name : String) : String := String.ofList (name.toList.map Char.toLower)

/-- A struct that is stored in a table. -/
class Entity (E : Type) extends Struct E where
  id : E → Int32
  setId : E → Int32 → E
  /-- The member `id` is the only primary key. -/
  primary : (accessors.filter fun a ↦ a.column.isPrimarykey) = [idAccessor id setId]
  insertColumns_ne_nil : (accessors.filter fun a ↦ !a.column.isPrimarykey) ≠ []
  /-- The columns are numbered in declaration order. -/
  numbered : accessors.map (·.column.n) = List.range accessors.length
  entityName_identifier : Sql.IsIdentifier entityName
  identifiers : ∀ a ∈ accessors, Sql.IsIdentifier a.name
  lowercase : ∀ a ∈ accessors, foldCase a.name = a.name

namespace Entity

export Struct (entityName init)

end Entity

section Entity

variable {E : Type} [Entity E]

theorem idAccessor_mem :
    idAccessor (Entity.id (E := E)) Entity.setId ∈ Struct.accessors (E := E) := by
  have h : idAccessor (Entity.id (E := E)) Entity.setId
      ∈ (Struct.accessors (E := E)).filter fun a ↦ a.column.isPrimarykey := by
    rw [Entity.primary]
    exact List.mem_singleton.mpr rfl
  exact (List.mem_filter.mp h).1

theorem getIdColumnHanaPair_eq :
    getIdColumnHanaPair E = some (idAccessor Entity.id Entity.setId) := by
  rw [getIdColumnHanaPair, ← List.head?_filter, Entity.primary, List.head?_cons]

theorem getIdColumnName_eq : getIdColumnName E = "id" := by
  rw [getIdColumnName, getIdColumnHanaPair_eq]
  rfl

/-- A member is the primary key or one of the columns to insert. -/
theorem mem_accessors_iff {a : Accessor E} :
    a ∈ Struct.accessors (E := E) ↔
      a = idAccessor Entity.id Entity.setId ∨ a ∈ getInsertColumns E := by
  constructor
  · intro h
    cases hpk : a.column.isPrimarykey with
    | true =>
      have hmem : a ∈ (Struct.accessors (E := E)).filter fun a ↦ a.column.isPrimarykey :=
        List.mem_filter.mpr ⟨h, hpk⟩
      rw [Entity.primary] at hmem
      exact .inl (List.mem_singleton.mp hmem)
    | false => exact .inr (List.mem_filter.mpr ⟨h, by simp [hpk]⟩)
  · rintro (rfl | h)
    · exact idAccessor_mem
    · exact mem_accessors_of_mem_insertColumns h

theorem name_ne_id {a : Accessor E} (h : a ∈ getInsertColumns E) : a.name ≠ "id" := by
  intro hname
  have heq : a = idAccessor Entity.id Entity.setId :=
    List.inj_on_of_nodup_map (Struct.names_nodup (E := E)) (mem_accessors_of_mem_insertColumns h)
      idAccessor_mem hname
  have hpk : (!a.column.isPrimarykey) = true := (List.mem_filter.mp h).2
  rw [heq] at hpk
  simp [idAccessor, Column.isPrimarykey] at hpk

/-- Equal in every column that is not a primary key. -/
def SameColumns (e e' : E) : Prop := ∀ a ∈ getInsertColumns E, a.get e' = a.get e

theorem SameColumns.trans {e e' e'' : E} (h : SameColumns e e') (h' : SameColumns e' e'') :
    SameColumns e e'' := fun a ha ↦ (h' a ha).trans (h a ha)

@[simp] theorem id_setId (e : E) (i : Int32) : Entity.id (Entity.setId e i) = i :=
  Struct.get_set _ idAccessor_mem e i

/-- Writing `id` leaves every other column alone. -/
theorem sameColumns_setId (e : E) (i : Int32) : SameColumns e (Entity.setId e i) := fun a h ↦
  Struct.get_set_of_ne _ idAccessor_mem a (mem_accessors_of_mem_insertColumns h)
    (Ne.symm (name_ne_id h)) e i

end Entity

end Sphinx.Db
