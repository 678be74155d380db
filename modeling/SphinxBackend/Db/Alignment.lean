import SphinxBackend.Db.Connection
import SphinxBackend.Db.Record

/-!
# The text of an insertion and its values

Three traversals make an insertion: one writes the names of the columns, one the placeholders, and
one collects the values. Each leaves out the primary keys in its own way, and nothing but that
keeps them in step. Here they are compared item by item, for every struct, with any number of
columns and the keys anywhere among them.
-/

namespace Sphinx.Db

/-- The text between the commas. -/
def items (s : String) : List String := (s.split ',').toList.map (·.copy)

theorem items_intercalate {ws : List String} (hne : ws ≠ []) (h : ∀ w ∈ ws, ',' ∉ w.toList) :
    items (",".intercalate ws) = ws := by
  have hsplit := String.toList_split_intercalate h
  rwa [if_neg hne] at hsplit

theorem comma_notMem_of_isIdentifier {s : String} (h : Sql.IsIdentifier s) : ',' ∉ s.toList :=
  fun hmem ↦ absurd (h.2 ',' hmem) (by decide)

theorem ne_empty_of_isIdentifier {s : String} (h : Sql.IsIdentifier s) : s ≠ "" := by
  rintro rfl
  exact h.1 rfl

/-- The text of the insertion names the columns that are no primary keys, numbers as many
placeholders, and asks for a primary key; and the values are those of the named columns. -/
structure Aligned {E : Type} [Struct E] (entity : E) (fieldList fieldIds key : String) : Prop where
  text : prepareInsertQuery E = "INSERT INTO " ++ Struct.entityName E ++ " (" ++ fieldList
    ++ ") VALUES (" ++ fieldIds ++ ") RETURNING " ++ key
  /-- In declaration order. -/
  fields : items fieldList
    = ((Struct.accessors (E := E)).filter fun a ↦ !a.column.isPrimarykey).map (·.name)
  /-- Each once. -/
  nodup : (items fieldList).Nodup
  placeholders : items fieldIds
    = (List.range' 1 (items fieldList).length).map fun j ↦ "$" ++ toString j
  ne_empty : ∀ item ∈ items fieldList ++ items fieldIds, item ≠ ""
  values : makeValueList (getValuesToInsert entity)
    = ((Struct.accessors (E := E)).filter fun a ↦ !a.column.isPrimarykey).map
        fun a ↦ (a.get entity).toPlain.map a.column.type.format
  key : ∃ a ∈ Struct.accessors (E := E), a.column.isPrimarykey ∧ a.name = key

/-- **The text of an insertion and its values are aligned**, for every schema. -/
theorem exists_aligned {E : Type} [Struct E]
    (hnames : ∀ a ∈ Struct.accessors (E := E), Sql.IsIdentifier a.name)
    (hkey : ∃ a ∈ Struct.accessors (E := E), a.column.isPrimarykey)
    (hcolumn : ∃ a ∈ Struct.accessors (E := E), a.column.isPrimarykey = false) (entity : E) :
    ∃ fieldList fieldIds key, Aligned entity fieldList fieldIds key := by
  obtain ⟨c, hc, hcpk⟩ := hcolumn
  have hmem : c ∈ getInsertColumns E := List.mem_filter.mpr ⟨hc, by simp [hcpk]⟩
  have hne : getInsertColumns E ≠ [] := List.ne_nil_of_mem hmem
  have hidentifiers : ∀ w ∈ (getInsertColumns E).map (·.name), Sql.IsIdentifier w := by
    intro w hw
    obtain ⟨a, ha, rfl⟩ := List.mem_map.mp hw
    exact hnames a (mem_accessors_of_mem_insertColumns ha)
  have hplaceholders : ∀ w ∈ (List.range' 1 (getInsertColumns E).length).map Sql.placeholder,
      Sql.IsIdentifier w := by
    intro w hw
    obtain ⟨j, -, rfl⟩ := List.mem_map.mp hw
    exact Sql.isIdentifier_placeholder j
  have hfields : items (",".intercalate ((getInsertColumns E).map (·.name)))
      = (getInsertColumns E).map (·.name) :=
    items_intercalate (by simpa using hne) fun w hw ↦
      comma_notMem_of_isIdentifier (hidentifiers w hw)
  have hids : items (",".intercalate
      ((List.range' 1 (getInsertColumns E).length).map Sql.placeholder))
      = (List.range' 1 (getInsertColumns E).length).map Sql.placeholder :=
    items_intercalate (by simpa using hne) fun w hw ↦
      comma_notMem_of_isIdentifier (hplaceholders w hw)
  refine ⟨_, ",".intercalate ((List.range' 1 (getInsertColumns E).length).map Sql.placeholder),
    getIdColumnName E, ?_, hfields, ?_, ?_, ?_, ?_, ?_⟩
  · exact prepareInsertQuery_eq_of_ne_nil E hne
  · rw [hfields]
    exact insertColumns_names_nodup
  · rw [hids, hfields, List.length_map]
    rfl
  · rw [hfields, hids]
    intro item hitem
    rcases List.mem_append.mp hitem with hitem | hitem
    · exact ne_empty_of_isIdentifier (hidentifiers item hitem)
    · exact ne_empty_of_isIdentifier (hplaceholders item hitem)
  · rw [makeValueList_getValuesToInsert]
    exact List.map_congr_left fun a _ ↦ ValueOf.toOptionalString_eq _
  · have hfound : (getIdColumnHanaPair E).isSome := List.find?_isSome.mpr hkey
    obtain ⟨a, ha⟩ := Option.isSome_iff_exists.mp hfound
    have hpk := List.find?_some (p := fun a : Accessor E ↦ a.column.isPrimarykey) ha
    refine ⟨a, List.mem_of_find?_eq_some ha, hpk, ?_⟩
    rw [getIdColumnName, ha]
    rfl

/-- Two keys, neither in front, and enough columns for placeholders of two digits. -/
def wideSchema : Schema where
  entityName := "wide"
  columns := [("c1", ⟨0, .string, []⟩), ("key1", ⟨1, .int32, [.primarykey]⟩),
    ("c2", ⟨2, .int32, [.foreignkey]⟩), ("c3", ⟨3, .string, [.optional]⟩),
    ("c4", ⟨4, .int32, [.optional]⟩), ("c5", ⟨5, .string, []⟩), ("c6", ⟨6, .string, []⟩),
    ("key2", ⟨7, .string, [.primarykey]⟩), ("c7", ⟨8, .int32, [.foreignkey, .optional]⟩),
    ("c8", ⟨9, .string, []⟩), ("c9", ⟨10, .string, []⟩), ("c10", ⟨11, .string, []⟩),
    ("c11", ⟨12, .int32, []⟩)]
  names_nodup := by decide

example : prepareInsertQuery wideSchema.Record
    = "INSERT INTO wide (c1,c2,c3,c4,c5,c6,c7,c8,c9,c10,c11) "
      ++ "VALUES ($1,$2,$3,$4,$5,$6,$7,$8,$9,$10,$11) RETURNING key1" := by decide

/-- An empty text, optionals that are there and one that is not, and a negative reference. -/
def wideRecord : wideSchema.Record
  | ⟨0, _⟩ => ""
  | ⟨1, _⟩ => (4 : Int32)
  | ⟨2, _⟩ => (-5 : Int32)
  | ⟨3, _⟩ => some ""
  | ⟨4, _⟩ => none
  | ⟨7, _⟩ => "k"
  | ⟨8, _⟩ => some (-2 : Int32)
  | ⟨12, _⟩ => (12 : Int32)
  | ⟨5, _⟩ | ⟨6, _⟩ | ⟨9, _⟩ | ⟨10, _⟩ | ⟨11, _⟩ => "a,b"

theorem exists_aligned_wide :
    ∃ fieldList fieldIds key, Aligned wideRecord fieldList fieldIds key :=
  exists_aligned (by decide) (by decide) (by decide) wideRecord

end Sphinx.Db
