import Mathlib.Data.List.Nodup
import Mathlib.Order.Defs.PartialOrder

/-!
# Registries

A registry is a list of values in which each has a key of its own. Values are added at the end and
stay as they are, so one registry is a later state of another exactly when the other is its
beginning: that is the order on registries here. What is in a registry stays in it.
-/

namespace Collections

/-- Values with pairwise different keys. -/
structure Registry {V K : Type} (key : V → K) where
  entries : List V
  nodup : (entries.map key).Nodup

namespace Registry

variable {V K : Type} {key : V → K} {r s : Registry key} {v w : V} {k : K}

@[ext] theorem ext (h : r.entries = s.entries) : r = s := by
  cases r; cases s; cases h; rfl

instance : PartialOrder (Registry key) where
  le r s := r.entries <+: s.entries
  le_refl r := List.prefix_refl r.entries
  le_trans _ _ _ h h' := List.IsPrefix.trans h h'
  le_antisymm _ _ h h' := ext (h.eq_of_length (Nat.le_antisymm h.length_le h'.length_le))

theorem le_def : r ≤ s ↔ r.entries <+: s.entries := Iff.rfl

theorem mem_of_le (h : r ≤ s) (hv : v ∈ r.entries) : v ∈ s.entries :=
  (le_def.mp h).subset hv

/-- A key stands for one value. -/
theorem eq_of_key (hv : v ∈ r.entries) (hw : w ∈ r.entries) (h : key v = key w) : v = w :=
  List.inj_on_of_nodup_map r.nodup hv hw h

/-! ## Adding -/

/-- No value has this key. -/
def Fresh (r : Registry key) (k : K) : Prop := ∀ v ∈ r.entries, key v ≠ k

def add (r : Registry key) (v : V) (h : r.Fresh (key v)) : Registry key where
  entries := r.entries ++ [v]
  nodup := by
    rw [List.map_append, List.map_singleton]
    refine List.nodup_append.mpr ⟨r.nodup, List.nodup_singleton _, ?_⟩
    intro a ha b hb
    obtain ⟨w, hw, rfl⟩ := List.mem_map.mp ha
    rw [List.mem_singleton.mp hb]
    exact h w hw

theorem le_add (h : r.Fresh (key v)) : r ≤ r.add v h := List.prefix_append _ _

/-! ## Looking up -/

variable [DecidableEq K]

/-- The value under a key. -/
def find (r : Registry key) (k : K) : Option V := r.entries.find? fun v ↦ key v = k

theorem mem_of_find (h : r.find k = some v) : v ∈ r.entries ∧ key v = k :=
  ⟨List.mem_of_find?_eq_some h, by simpa using List.find?_some (p := fun v ↦ key v = k) h⟩

theorem find_eq_some_iff : r.find k = some v ↔ v ∈ r.entries ∧ key v = k := by
  refine ⟨mem_of_find, ?_⟩
  rintro ⟨hv, rfl⟩
  cases hfind : r.find (key v) with
  | none => exact absurd (decide_eq_true rfl) (List.find?_eq_none.mp hfind v hv)
  | some w =>
    obtain ⟨hw, hkey⟩ := mem_of_find hfind
    rw [eq_of_key hw hv hkey]

theorem find_eq_none_iff : r.find k = none ↔ r.Fresh k := by
  rw [find, List.find?_eq_none]
  exact forall₂_congr fun v _ ↦ not_congr decide_eq_true_iff

end Registry

end Collections
