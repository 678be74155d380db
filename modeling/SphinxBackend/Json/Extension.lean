import SphinxBackend.Db.Record
import SphinxBackend.Json.Serializer

/-!
# Documents with further members

What the encoder writes is read back by the decoder, whatever else stands in the object. Encoding
knows two kinds of columns and decoding four, and this holds for any number of columns of any kinds.
The one exception is a struct without columns: nothing is emplaced in its value, which stays null
and is no object.
-/

namespace Sphinx.Json

open Sphinx.Db Nlohmann

section RoundTrip

variable {E : Type} [Struct E]

/-- An object that has the members of another one under these names, and any under others. -/
structure Extends (names : List String) (members : List (String × Json)) (data : Json) : Prop where
  isObject : data.isObject
  member : ∀ name ∈ names, data.member name = members.lookup name

/-- The entity is written as an object with one member for each column, and read back from every
extension of it, but for its primary keys. -/
def RoundTrips (entity : E) : Prop :=
  ∃ members, toJson entity = .ok (.object members) ∧
    members.map Prod.fst = (Struct.accessors (E := E)).map (·.name) ∧
    ∀ junk data, Extends ((Struct.accessors (E := E)).map (·.name)) members data →
      ∃ e' : E, fromJson junk data = .ok e' ∧
        ∀ a ∈ Struct.accessors (E := E), a.column.isPrimarykey = false → a.get e' = a.get entity

/-- Members whose names are not those of columns are not looked at. -/
theorem extends_append {names : List String} {members others : List (String × Json)}
    (h : ∀ p ∈ others, p.1 ∉ names) : Extends names members (.object (members ++ others)) := by
  refine ⟨rfl, fun name hname ↦ ?_⟩
  have hother : others.lookup name = none := by
    rw [List.lookup_eq_none_iff]
    intro p hp
    have hne : name ≠ p.1 := fun heq ↦ h p hp (heq ▸ hname)
    simpa using hne
  rw [Json.member, List.lookup_append, hother, Option.or_none]

/-- **Decoding inverts encoding** for every struct that has a column. -/
theorem roundTrips (hne : Struct.accessors (E := E) ≠ []) (entity : E) : RoundTrips entity := by
  refine ⟨_, toJson_eq_of_ne_nil hne entity, ?_, fun junk data hdata ↦ ?_⟩
  · rw [List.map_map]
    rfl
  -- every column reads the member that was written for it
  have hread : ∀ a ∈ Struct.accessors (E := E), columnFromJson data a
      = .ok (if a.column.isPrimarykey then none else some (a.get entity)) := by
    intro a ha
    refine columnFromJson_of_member ?_
    rw [hdata.member a.name (List.mem_map_of_mem ha)]
    exact member_document entity ha
  refine ⟨_, load_eq_ok hread (uninitialised junk), fun a ha hpk ↦ ?_⟩
  rw [get_writeAll _ _ ha, hpk]
  rfl

end RoundTrip

/-- Without columns the document is null. -/
theorem not_roundTrips_without_columns :
    ¬∀ (S : Schema) (entity : S.Record), RoundTrips entity := by
  intro h
  obtain ⟨members, hmembers, -⟩ := h ⟨"empty", [], .nil⟩ Struct.init
  exact absurd (Except.ok.inj hmembers) (by simp)

/-- Each kind of column. -/
def kindsSchema : Schema where
  entityName := "kinds"
  columns := [("key", ⟨0, .int32, [.primarykey]⟩), ("name", ⟨1, .string, []⟩),
    ("note", ⟨2, .string, [.optional]⟩), ("parent", ⟨3, .int32, [.foreignkey]⟩),
    ("other", ⟨4, .int32, [.foreignkey, .optional]⟩)]
  names_nodup := by decide

/-- An empty text, an optional that is there and one that is not, and a negative reference. -/
def kindsRecord : kindsSchema.Record
  | ⟨0, _⟩ => (7 : Int32)
  | ⟨1, _⟩ => ""
  | ⟨2, _⟩ => some ""
  | ⟨3, _⟩ => (-3 : Int32)
  | ⟨4, _⟩ => none

theorem roundTrips_kinds :
    ∃ members, toJson kindsRecord = .ok (.object members) ∧
      ∃ e : kindsSchema.Record,
        fromJson 7 (.object (members ++ [("color", .string "red"), ("size", .null)])) = .ok e ∧
          ∀ a ∈ Struct.accessors (E := kindsSchema.Record), a.column.isPrimarykey = false →
            a.get e = a.get kindsRecord := by
  obtain ⟨members, hmembers, hnames, hread⟩ :=
    roundTrips (E := kindsSchema.Record) (by decide) kindsRecord
  have hothers : ∀ p ∈ [("color", Json.string "red"), ("size", .null)],
      p.1 ∉ (Struct.accessors (E := kindsSchema.Record)).map (·.name) := by
    simp only [List.forall_mem_cons]
    decide
  exact ⟨members, hmembers, hread 7 _ (extends_append hothers)⟩

end Sphinx.Json
