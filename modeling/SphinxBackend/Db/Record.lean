import Mathlib.Data.List.FinRange
import SphinxBackend.Db.Column

/-!
# Every schema is that of a struct

A schema is a table name with a list of columns that have different names. `Schema.Record` is the
struct declared with these columns: one value for each, and the accessors in the order of the list.
So what holds of every `Struct` holds of every schema, and a schema can be written down to try it.
-/

namespace Sphinx.Db

structure Schema where
  entityName : String
  columns : List (String × Column)
  names_nodup : (columns.map Prod.fst).Nodup

namespace Schema

variable (S : Schema)

/-- The struct with these columns. -/
def Record : Type := (i : Fin S.columns.length) → (S.columns.get i).2.Value

def accessor (i : Fin S.columns.length) : Accessor S.Record where
  name := (S.columns.get i).1
  column := (S.columns.get i).2
  get e := e i
  set e v := Function.update e i v

def accessors : List (Accessor S.Record) := (List.finRange S.columns.length).map S.accessor

/-- The accessors show the columns of the schema, in order. -/
theorem map_accessors : S.accessors.map (fun a ↦ (a.name, a.column)) = S.columns := by
  rw [accessors, List.map_map]
  exact List.map_get_finRange S.columns

instance : Struct S.Record where
  entityName := S.entityName
  accessors := S.accessors
  names_nodup := by
    have hnames : S.accessors.map (·.name) = S.columns.map Prod.fst := by
      conv_rhs => rw [← S.map_accessors, List.map_map]
      rfl
    rw [hnames]
    exact S.names_nodup
  get_set := by
    intro a ha e v
    obtain ⟨i, -, rfl⟩ := List.mem_map.mp ha
    exact Function.update_self i v e
  get_set_of_ne := by
    intro a ha b hb hne e v
    obtain ⟨i, -, rfl⟩ := List.mem_map.mp ha
    obtain ⟨j, -, rfl⟩ := List.mem_map.mp hb
    have hij : j ≠ i := by
      rintro rfl
      exact hne rfl
    exact Function.update_of_ne hij v e
  init := fun _ ↦ .empty
  get_init := by
    intro a ha
    obtain ⟨i, -, rfl⟩ := List.mem_map.mp ha
    rfl

end Schema

end Sphinx.Db
