import SphinxBackend.Backend.Rows
import SphinxBackend.Db.Selection
import SphinxBackend.Sql.Comparison

/-!
# A condition in two renderings

`condition::str` either refers to a placeholder, to which `get_all_where` binds the value, or puts
the value into the text between single quotes, as it is. Only a single quote in the value tells the
two apart. Without one the text is the same predicate on the same value. With one it may be no
predicate, or none on this value: quotes that happen to be doubled stand for one each, and every
operator notices the difference in some table.
-/

namespace Sphinx.Backend

open Db Sql

section Entity

variable {E : Type} [Entity E]

/-- `condition(column, operator, value)`. -/
def conditionOn (a : Accessor E) (o : Operator) (value : a.column.type.Denote) : Db.Condition E :=
  ⟨a.column.n, o, a.column.type, value⟩

/-- The call of `get_all_where`: the value is bound to the placeholder. -/
def boundCall (c : Db.Condition E) : Call :=
  callOf ("SELECT * FROM " ++ Entity.entityName E ++ " WHERE " ++ c.str "$1")
    [some (c.type.format c.value)]

theorem getAllWhere_eq (c : Db.Condition E) :
    getAllWhere c = .call (boundCall c) fun res ↦ .ofExcept (getRows E res) := rfl

/-- The same selection with the value in the text. -/
def inlinedCall (c : Db.Condition E) : Call :=
  callOf ("SELECT * FROM " ++ Entity.entityName E ++ " WHERE " ++ c.str) []

/-- The text with the value in it is one predicate on a literal, and selects what the placeholder
does, whatever is in the table. -/
structure MeansSame (S : Comparison) (c : Db.Condition E) : Prop where
  onePredicate : ∃ s, readCondition c.str
    = some ⟨getNthColumnName E c.n, c.operator, .literal s⟩
  sameRows : ∀ (types : String → String → CellType) (db : Sql.Db),
    stores (types (Entity.entityName E) (getNthColumnName E c.n)) c.type →
    HasColumns E (db (Entity.entityName E)) →
    (db (Entity.entityName E)).Typed (getNthColumnName E c.n)
      (types (Entity.entityName E) (getNthColumnName E c.n)) →
    S.rows types db (inlinedCall c).request = S.rows types db (boundCall c).request

/-- The columns have different numbers, so a number leads back to its column. -/
theorem getNthColumnName_eq {a : Accessor E} (ha : a ∈ Struct.accessors (E := E)) :
    getNthColumnName E a.column.n = a.name := by
  have hnd : ((Struct.accessors (E := E)).map (·.column.n)).Nodup := by
    rw [Entity.numbered]
    exact List.nodup_range
  rw [getNthColumnName, getNthColumnHanaPair]
  cases hfind : (Struct.accessors (E := E)).find? fun b ↦ b.column.n = a.column.n with
  | none => exact absurd (decide_eq_true rfl) (List.find?_eq_none.mp hfind a ha)
  | some b =>
    have hn : b.column.n = a.column.n := by simpa using List.find?_some hfind
    rw [List.inj_on_of_nodup_map hnd (List.mem_of_find?_eq_some hfind) ha hn]
    rfl

section Condition

variable {a : Accessor E} {o : Operator} {value : a.column.type.Denote}

theorem readCondition_str_iff (ha : a ∈ Struct.accessors (E := E)) (c : Sql.Condition) :
    readCondition (conditionOn a o value).str = some c ↔
      ∃ s, (a.column.type.format value).toList = quote s ∧
        c = ⟨a.name, o, .literal (String.ofList s)⟩ := by
  have hstr : (conditionOn a o value).str
      = a.name ++ " " ++ o.text ++ " '" ++ a.column.type.format value ++ "'" := by
    rw [Condition.str, if_pos rfl, conditionOn, getNthColumnName_eq ha]
  rw [hstr]
  exact readCondition_quoted_iff (Entity.identifiers a ha) o _ c

/-- What the server makes of the value in the text. -/
theorem rows_inlinedCall (S : Comparison) (types : String → String → CellType) (db : Sql.Db)
    {c : Sql.Condition} (h : readCondition (conditionOn a o value).str = some c) :
    S.rows types db (inlinedCall (conditionOn a o value)).request
      = S.select (types (Entity.entityName E) c.column) (db (Entity.entityName E)) c [] := by
  have hparse : parse (inlinedCall (conditionOn a o value)).request.text
      = some (.selectWhere (Entity.entityName E) c) := by
    refine (parse_selectWhere_append Entity.entityName_identifier _).trans ?_
    rw [h, Option.map_some]
  exact Comparison.rows_of_parse hparse

/-- What the server makes of the value bound to the placeholder. -/
theorem rows_boundCall (S : Comparison) (types : String → String → CellType) (db : Sql.Db)
    (ha : a ∈ Struct.accessors (E := E)) (hnul : '\x00' ∉ (a.column.type.format value).toList) :
    S.rows types db (boundCall (conditionOn a o value)).request
      = S.select (types (Entity.entityName E) a.name) (db (Entity.entityName E))
          ⟨a.name, o, .literal (a.column.type.format value)⟩ [] := by
  have hname : getNthColumnName E (conditionOn a o value).n = a.name := getNthColumnName_eq ha
  have hparse := parse_getAllWhere (conditionOn a o value) (hname ▸ Entity.identifiers a ha)
  rw [hname] at hparse
  have hread : Text.cString (a.column.type.format value) = a.column.type.format value :=
    Text.cString_eq_self_iff.mpr hnul
  have hrows : S.rows types db (boundCall (conditionOn a o value)).request
      = S.select (types (Entity.entityName E) a.name) (db (Entity.entityName E))
          ⟨a.name, o, .param 1⟩ [some (Text.cString (a.column.type.format value))] :=
    Comparison.rows_of_parse hparse
  rw [hrows, hread]
  exact Comparison.select_congr rfl rfl rfl

/-- For `=` these are the rows that `get_all_where` is known to select. -/
theorem rows_boundCall_eq_rowsWhere (S : Comparison) {types : String → String → CellType}
    {db : Sql.Db} (ha : a ∈ Struct.accessors (E := E))
    (hnul : '\x00' ∉ (a.column.type.format value).toList)
    (hcolumns : HasColumns E (db (Entity.entityName E)))
    (htyped : (db (Entity.entityName E)).Typed a.name (types (Entity.entityName E) a.name))
    (hvalue : (types (Entity.entityName E) a.name).HasText (a.column.type.format value)) :
    S.rows types db (boundCall (conditionOn a .eq value)).request
      = some (rowsWhere (db (Entity.entityName E)) a.name (a.column.type.format value)) := by
  rw [rows_boundCall S types db ha hnul, Comparison.select_eq_table_select rfl rfl hvalue htyped,
    select_eq rfl (hcolumns a ha) rfl, rowsWhere, Text.cString_eq_self_iff.mpr hnul]

end Condition

/-! ## Values with quotes -/

/-- A table of the entity with one row, with a text in one of its columns. -/
def oneRowTable (E : Type) [Entity E] (column cell : String) : Table where
  columns := (Struct.accessors (E := E)).map (·.name)
  key := "id"
  rows := [newRow "id" 1 [(column, some cell)]]
  columns_nodup := Struct.names_nodup
  key_mem := List.mem_map_of_mem idAccessor_mem
  keys := by
    intro r hr
    rw [List.mem_singleton.mp hr]
    exact ⟨1, newRow_key _ _ _⟩
  keys_nodup := List.nodup_singleton _

/-- A text column is not the key. -/
theorem name_ne_id_of_type {a : Accessor E} (ha : a ∈ Struct.accessors (E := E))
    (htype : a.column.type = .string) : a.name ≠ "id" := by
  rcases mem_accessors_iff.mp ha with rfl | hins
  · exact absurd htype (by simp [idAccessor])
  · exact name_ne_id hins

variable {a : Accessor E} {o : Operator} {value : a.column.type.Denote}

/-- An integer is written with digits and a minus sign. -/
theorem notMem_format {t : ColumnType} (ht : t = .int32) (v : t.Denote) {c : Char}
    (hd : c.isDigit = false) (hm : c ≠ '-') : c ∉ (t.format v).toList := by
  subst ht
  exact Text.notMem_toString hd hm _

/-- Only a text can have a quote in it. -/
theorem type_eq_string {t : ColumnType} {v : t.Denote} (hq : '\'' ∈ (t.format v).toList) :
    t = .string := by
  cases ht : t with
  | int32 => exact absurd hq (notMem_format ht v (by decide) (by decide))
  | string => rfl

/-- A literal on which the text is a predicate has one quote for two of the value, and some row
has a cell for which the comparisons with the two come out differently. -/
theorem MeansSame.notMem_quote {S : Comparison} (ha : a ∈ Struct.accessors (E := E))
    (hnul : '\x00' ∉ (a.column.type.format value).toList)
    (h : MeansSame S (conditionOn a o value)) : '\'' ∉ (a.column.type.format value).toList := by
  intro hq
  have htype : a.column.type = .string := type_eq_string hq
  have hname : getNthColumnName E (conditionOn a o value).n = a.name := getNthColumnName_eq ha
  obtain ⟨s, hs⟩ := h.onePredicate
  obtain ⟨w, hw, hc⟩ := (readCondition_str_iff ha _).mp hs
  rw [hc] at hs
  have hquote : (a.column.type.format value).toList = quote (String.ofList w).toList := by
    rw [String.toList_ofList, hw]
  obtain ⟨cell, hcell, hne⟩ := Comparison.exists_differs S o hnul hquote hq
  -- the cell in a table that is otherwise empty
  have hrow : newRow "id" 1 [(a.name, some cell)] a.name = some cell := by
    rw [newRow_of_ne (name_ne_id_of_type ha htype), List.lookup_cons_self]
    rfl
  have hmem : a.name ∈ (oneRowTable E a.name cell).columns := List.mem_map_of_mem ha
  have hstores : stores .text a.column.type := by
    rw [htype]
    rfl
  have htyped : (oneRowTable E a.name cell).Typed
      (getNthColumnName E (conditionOn a o value).n) .text := by
    intro r hr u hu
    rw [List.mem_singleton.mp hr, hname, hrow] at hu
    rwa [← Option.some.inj hu]
  have hsame := h.sameRows (fun _ _ ↦ .text) (fun _ ↦ oneRowTable E a.name cell) hstores
    (fun b hb ↦ List.mem_map_of_mem hb) htyped
  rw [rows_inlinedCall S _ _ hs, rows_boundCall S _ _ ha hnul] at hsame
  have haccepts {u : String} (hu : CellType.text.HasText u) : S.accepts .text o u :=
    S.accepts_of_hasText hu fun _ ↦ rfl
  exact hne (Comparison.holds_eq_of_select_eq hmem rfl hrow (haccepts hnul)
    (haccepts (Comparison.hasText_of_quote hquote hnul)) hsame)

theorem meansSame_of_notMem_quote (S : Comparison) (ha : a ∈ Struct.accessors (E := E))
    (hnul : '\x00' ∉ (a.column.type.format value).toList)
    (hq : '\'' ∉ (a.column.type.format value).toList) : MeansSame S (conditionOn a o value) := by
  have hname : getNthColumnName E (conditionOn a o value).n = a.name := getNthColumnName_eq ha
  have hread : readCondition (conditionOn a o value).str
      = some ⟨a.name, o, .literal (a.column.type.format value)⟩ := by
    refine (readCondition_str_iff ha _).mpr ⟨(a.column.type.format value).toList, ?_, ?_⟩
    · rw [quote_eq_self_iff.mpr hq]
    · rw [String.ofList_toList]
  refine ⟨⟨a.column.type.format value, by rw [hname]; exact hread⟩, fun types db _ _ _ ↦ ?_⟩
  rw [rows_inlinedCall S types db hread, rows_boundCall S types db ha hnul]

/-- An integer column needs no care. -/
theorem meansSame_of_int32 (S : Comparison) (ha : a ∈ Struct.accessors (E := E))
    (ht : a.column.type = .int32) : MeansSame S (conditionOn a o value) :=
  meansSame_of_notMem_quote S ha (notMem_format ht value (by decide) (by decide))
    (notMem_format ht value (by decide) (by decide))

/-- **The two renderings mean the same exactly if there is no quote in the value.** -/
theorem meansSame_iff (S : Comparison) {a : Accessor E} (ha : a ∈ Struct.accessors (E := E))
    (o : Operator) (value : a.column.type.Denote)
    (hnul : '\x00' ∉ (a.column.type.format value).toList) :
    MeansSame S (conditionOn a o value) ↔ '\'' ∉ (a.column.type.format value).toList :=
  ⟨fun h ↦ h.notMem_quote ha hnul, meansSame_of_notMem_quote S ha hnul⟩

end Entity

/-- The accessor of `username`. -/
def usernameAccessor : Accessor Model.User :=
  ⟨"username", Model.User.usernameColumn, Model.User.username, fun e v ↦ { e with username := v }⟩

theorem meansSame_username :
    MeansSame codePointComparison (conditionOn usernameAccessor .like "O_B%") ∧
      ¬MeansSame codePointComparison (conditionOn usernameAccessor .like "O''B%") := by
  have hmem : usernameAccessor ∈ Struct.accessors (E := Model.User) :=
    .tail _ (.tail _ (.tail _ (.head _)))
  have h (value : String) := meansSame_iff codePointComparison hmem .like value
  exact ⟨(h "O_B%" (by decide)).mpr (by decide), fun hsame ↦
    (h "O''B%" (by decide)).mp hsame (by decide)⟩

/-- The quote in the name ends the literal, and the one after it begins another. -/
theorem not_meansSame_obrien :
    ¬MeansSame codePointComparison (conditionOn usernameAccessor .eq "O'Brien") := by
  intro h
  obtain ⟨s, hs⟩ := h.onePredicate
  have hnone : readCondition (conditionOn usernameAccessor .eq "O'Brien").str = none := by decide
  rw [hnone] at hs
  exact absurd hs (by simp)

end Sphinx.Backend
