import SphinxBackend.Collections.AssocList
import SphinxBackend.Db.Column
import SphinxBackend.Json.Value

/-!
# Entities as JSON

`json_serializer.h`. Both directions visit the columns in order. Encoding starts from a null value
and emplaces one member for each column. Decoding starts from an entity whose integers nobody has
set, and treats a column by its traits: a primary key is looked at only to warn about it, an
optional column or a foreign key may be missing or null, and any other column is read without
asking whether it is there.
-/

namespace Sphinx.Json

open Sphinx.Db Nlohmann

section Encode

variable {E : Type}

/-- The JSON value of a plain value. -/
def ofValue : (t : ColumnType) → t.Denote → Json
  | .int32, v => .numberInteger (Int32.toInt64 v)
  | .string, v => .string v

/-- An absent value is null. -/
def columnToJson (a : Accessor E) (entity : E) : Json :=
  match (a.get entity).toPlain with
  | some v => ofValue a.column.type v
  | none => .null

variable [Struct E]

def toJson (entity : E) : Except Error Json :=
  (Struct.accessors (E := E)).foldlM
    (fun data a ↦ data.emplace a.name (columnToJson a entity)) .null

/-- `to_json` of a vector: the elements are pushed to the back of a null value. -/
def toJsonVector (c : List E) : Except Error Json :=
  c.foldlM (fun json entity ↦ toJson entity >>= json.pushBack) .null

end Encode

section Decode

/-- `get<type>`. -/
def getAs : (t : ColumnType) → Json → Except Error t.Denote
  | .int32, data => data.getInt32
  | .string, data => data.getString

/-- `data.count(name) == 0 || data[name].is_null()`. -/
def isAbsent (data : Json) (name : String) : Except Error Bool :=
  if data.count name = 0 then .ok true else (data.at_ name).map Json.isNull

variable {E : Type}

/-- `data[name].get<type>()`. -/
def getValue (data : Json) (a : Accessor E) : Except Error a.column.type.Denote :=
  data.at_ a.name >>= getAs a.column.type

/-- What the decoder assigns to a column; nothing to a primary key. -/
def columnFromJson (data : Json) (a : Accessor E) : Except Error (Option a.column.Value) :=
  if a.column.isPrimarykey then
    isAbsent data a.name >>= fun absent ↦
      -- The value is an argument of the warning, so it is read.
      if absent then .ok none else (getValue data a).map fun _ ↦ none
  else if a.column.isOptional || a.column.isForeignkey then
    isAbsent data a.name >>= fun absent ↦
      if absent then .ok (some .empty) else (getValue data a).map fun v ↦ some (.ofPlain v)
  else (getValue data a).map fun v ↦ some (.ofPlain v)

variable [Struct E]

/-- `E entity;`: the strings are empty and the optionals absent, but the integers are whatever was
in memory. -/
def uninitialised (junk : Int32) : E :=
  (Struct.accessors (E := E)).foldl
    (fun e a ↦ if a.column.isOptional then e else a.assign junk e) Entity.init

def fromJson (junk : Int32) (data : Json) : Except Error E :=
  load (columnFromJson data) (uninitialised junk)

end Decode

/-! ## The document of an entity -/

section Document

section Struct

variable {E : Type} [Struct E]

/-- The object with one member for each column. -/
def document (entity : E) : Json :=
  .object ((Struct.accessors (E := E)).map fun a ↦ (a.name, columnToJson a entity))

/-- Without a column the value stays null. -/
theorem toJson_eq_of_ne_nil (h : Struct.accessors (E := E) ≠ []) (entity : E) :
    toJson entity = .ok (document entity) :=
  Json.foldlM_emplace_null Accessor.name (fun a ↦ columnToJson a entity) h Struct.names_nodup

theorem member_document (entity : E) {a : Accessor E} (ha : a ∈ Struct.accessors (E := E)) :
    (document entity).member a.name = some (columnToJson a entity) :=
  Collections.lookup_map_of_mem (fun a ↦ columnToJson a entity) Struct.names_nodup ha

theorem member_document_of_ne (entity : E) {name : String}
    (h : ∀ a ∈ Struct.accessors (E := E), a.name ≠ name) :
    (document entity).member name = none := by
  refine Collections.lookup_map_of_notMem (fun a ↦ columnToJson a entity) fun hmem ↦ ?_
  obtain ⟨a, ha, hname⟩ := List.mem_map.mp hmem
  exact h a ha hname

end Struct

variable {E : Type} [Entity E]

theorem accessors_ne_nil : Struct.accessors (E := E) ≠ [] :=
  List.ne_nil_of_mem (idAccessor_mem (E := E))

theorem toJson_eq (entity : E) : toJson entity = .ok (document entity) :=
  toJson_eq_of_ne_nil accessors_ne_nil entity

theorem foldlM_pushBack (c : List E) (elements : List Json) :
    c.foldlM (fun (json : Json) entity ↦ toJson entity >>= json.pushBack) (.array elements)
      = .ok (.array (elements ++ c.map document)) := by
  induction c generalizing elements with
  | nil => rw [List.map_nil, List.append_nil]; rfl
  | cons e c ih =>
    have hrest := ih (elements ++ [document e])
    rw [List.append_assoc] at hrest
    rw [List.foldlM_cons, toJson_eq]
    exact hrest

/-- An empty vector leaves the null value as it is; any other makes an array of it. -/
theorem toJsonVector_eq (c : List E) :
    toJsonVector c = .ok (if c = [] then .null else .array (c.map document)) := by
  cases c with
  | nil => rfl
  | cons e c =>
    rw [toJsonVector, List.foldlM_cons, toJson_eq, if_neg (by simp)]
    exact foldlM_pushBack c [document e]

end Document

/-! ## Decoding inverts encoding -/

section RoundTrip

theorem getAs_ofValue (t : ColumnType) (v : t.Denote) : getAs t (ofValue t v) = .ok v := by
  cases t with
  | int32 =>
    change Except.ok (Int32.ofInt (Int32.toInt64 v).toInt) = _
    rw [Int32.toInt_toInt64, Int32.ofInt_toInt]
  | string => rfl

theorem isNull_ofValue (t : ColumnType) (v : t.Denote) : (ofValue t v).isNull = false := by
  cases t <;> rfl

theorem isAbsent_of_member {data value : Json} {name : String} (h : data.member name = some value) :
    isAbsent data name = .ok value.isNull := by
  have hcount : data.count name ≠ 0 := fun hzero ↦ by
    rw [Json.count_eq_zero_iff.mp hzero] at h
    exact absurd h (by simp)
  rw [isAbsent, if_neg hcount, Json.at_of_member h]
  rfl

theorem isAbsent_of_not_member {data : Json} {name : String} (h : data.member name = none) :
    isAbsent data name = .ok true := if_pos (Json.count_eq_zero_iff.mpr h)

variable {E : Type}

/-- Decoding a column looks at the member of its name, and at whether there are members at all. -/
theorem columnFromJson_congr {data data' : Json} {a : Accessor E}
    (hobject : data'.isObject = data.isObject)
    (hmember : data'.member a.name = data.member a.name) :
    columnFromJson data' a = columnFromJson data a := by
  have hat : data'.at_ a.name = data.at_ a.name := by
    cases h : data.member a.name with
    | some value => rw [Json.at_of_member h, Json.at_of_member (hmember.trans h)]
    | none => rw [Json.at_of_not_member h, Json.at_of_not_member (hmember.trans h), hobject]
  have habsent : isAbsent data' a.name = isAbsent data a.name := by
    cases h : data.member a.name with
    | some value => rw [isAbsent_of_member h, isAbsent_of_member (hmember.trans h)]
    | none => rw [isAbsent_of_not_member h, isAbsent_of_not_member (hmember.trans h)]
  rw [columnFromJson, columnFromJson, getValue, getValue, hat, habsent]

/-- A column that may be missing is read alike if it is missing and if it is null. -/
theorem columnFromJson_of_null {data data' : Json} {a : Accessor E}
    (hmayMiss : (a.column.isOptional || a.column.isForeignkey) = true)
    (hnull : data.member a.name = some .null) (hnone : data'.member a.name = none) :
    columnFromJson data' a = columnFromJson data a := by
  rw [columnFromJson, columnFromJson, isAbsent_of_member hnull, isAbsent_of_not_member hnone,
    hmayMiss]
  cases a.column.isPrimarykey <;> rfl

/-- The member the encoder writes for a column is read back as the column's value, by whichever
branch the decoder takes for it. -/
theorem columnFromJson_of_member {data : Json} {a : Accessor E} {entity : E}
    (h : data.member a.name = some (columnToJson a entity)) :
    columnFromJson data a
      = .ok (if a.column.isPrimarykey then none else some (a.get entity)) := by
  have hvalue (v : a.column.type.Denote) (hv : (a.get entity).toPlain = some v) :
      getValue data a = .ok v := by
    rw [getValue, Json.at_of_member h, columnToJson, hv]
    exact getAs_ofValue _ v
  have hplain (v : a.column.type.Denote) (hv : (a.get entity).toPlain = some v) :
      (ValueOf.ofPlain v : a.column.Value) = a.get entity :=
    ValueOf.toPlain_injective (by rw [ValueOf.toPlain_ofPlain, hv])
  cases hv : (a.get entity).toPlain with
  | some v =>
    have habsent : isAbsent data a.name = .ok false := by
      rw [isAbsent_of_member h, columnToJson, hv]
      exact congrArg _ (isNull_ofValue _ v)
    rw [columnFromJson, habsent, hvalue v hv, ← hplain v hv]
    cases a.column.isPrimarykey <;> cases (a.column.isOptional || a.column.isForeignkey) <;> rfl
  | none =>
    -- only an optional column can be empty, so the decoder asks before it reads
    have habsent : isAbsent data a.name = .ok true := by
      rw [isAbsent_of_member h, columnToJson, hv]
      rfl
    obtain ⟨hopt, hempty⟩ := ValueOf.eq_empty_of_toPlain hv
    have hmayMiss : (a.column.isOptional || a.column.isForeignkey) = true := by simp [hopt]
    rw [columnFromJson, habsent, hmayMiss, ← hempty]
    cases a.column.isPrimarykey <;> rfl

variable [Entity E]

/-- The entity read back: the columns of the original, and a primary key nobody has set. -/
theorem fromJson_document (junk : Int32) (entity : E) :
    fromJson junk (document entity) = .ok (writeAll
      (fun a ↦ if a.column.isPrimarykey then none else some (a.get entity))
      (uninitialised junk)) :=
  load_eq_ok (fun _ ha ↦ columnFromJson_of_member (member_document entity ha)) _

theorem sameColumns_of_fromJson {junk : Int32} {entity e' : E}
    (h : fromJson junk (document entity) = .ok e') : SameColumns entity e' := by
  rw [fromJson_document] at h
  rw [← Except.ok.inj h]
  intro a ha
  have hpk : a.column.isPrimarykey = false := by simpa using (List.mem_filter.mp ha).2
  rw [get_writeAll _ _ (mem_accessors_of_mem_insertColumns ha), hpk]
  rfl

end RoundTrip

end Sphinx.Json
