import Mathlib.Data.List.Nodup

/-!
# Association lists

Records and objects are read by name from a list of pairs `(name a, value a)` with pairwise
distinct names. Looking up the name of `a` then gives the value of `a`, whatever comes before it.

A list of keys with a list of values is such a list once they are paired. Searching the keys for a
place and reading the values there is looking up in it (`lookup_zip`).
-/

namespace Collections

variable {α β γ : Type} [BEq β] [LawfulBEq β]

theorem lookup_map_of_mem {l : List α} {name : α → β} (value : α → γ)
    (hnd : (l.map name).Nodup) {a : α} (ha : a ∈ l) :
    (l.map fun x ↦ (name x, value x)).lookup (name a) = some (value a) := by
  induction l with
  | nil => exact absurd ha List.not_mem_nil
  | cons b l ih =>
    rw [List.map_cons, List.nodup_cons] at hnd
    rw [List.map_cons, List.lookup_cons]
    rcases List.mem_cons.mp ha with rfl | hmem
    · rw [beq_self_eq_true]
    · have hne : name a ≠ name b := fun h ↦ hnd.1 (h ▸ List.mem_map_of_mem hmem)
      rw [beq_eq_false_iff_ne.mpr hne]
      exact ih hnd.2 hmem

theorem lookup_map_of_notMem {l : List α} {name : α → β} (value : α → γ) {k : β}
    (hk : k ∉ l.map name) : (l.map fun x ↦ (name x, value x)).lookup k = none := by
  rw [List.lookup_eq_none_iff]
  intro p hp
  obtain ⟨a, ha, rfl⟩ := List.mem_map.mp hp
  have hne : k ≠ name a := fun h ↦ hk (h ▸ List.mem_map_of_mem ha)
  simpa using hne

omit [BEq β] [LawfulBEq β] in
/-- The elements with a key are one, if the keys are distinct. -/
theorem filter_eq_singleton {l : List α} {key : α → β} (hnd : (l.map key).Nodup) {a : α}
    (ha : a ∈ l) {p : α → Bool} (hp : ∀ x ∈ l, p x ↔ key x = key a) : l.filter p = [a] := by
  induction l with
  | nil => exact absurd ha List.not_mem_nil
  | cons b l ih =>
    rw [List.map_cons, List.nodup_cons] at hnd
    have hrest : ∀ x ∈ l, p x ↔ key x = key a := fun x hx ↦ hp x (List.mem_cons_of_mem b hx)
    by_cases hb : key b = key a
    · have hnone : l.filter p = [] := by
        refine List.filter_eq_nil_iff.mpr fun x hx hpx ↦ hnd.1 ?_
        rw [hb, ← (hrest x hx).mp hpx]
        exact List.mem_map_of_mem hx
      have hab : a = b := by
        rcases List.mem_cons.mp ha with hab | hmem
        · exact hab
        · exact absurd (hb ▸ List.mem_map_of_mem hmem) hnd.1
      rw [List.filter_cons_of_pos ((hp b List.mem_cons_self).mpr hb), hnone, hab]
    · have hmem : a ∈ l := List.mem_of_ne_of_mem (fun h ↦ hb (h ▸ rfl)) ha
      rw [List.filter_cons_of_neg fun h ↦ hb ((hp b List.mem_cons_self).mp h)]
      exact ih hnd.2 hmem hrest

theorem lookup_zip [DecidableEq β] (ks : List β) (vs : List γ) (k : β) :
    (ks.zip vs).lookup k = (ks.findIdx? (· = k)).bind (vs[·]?) := by
  induction ks generalizing vs with
  | nil => rfl
  | cons a ks ih =>
    cases vs with
    | nil =>
      rw [List.zip_nil_right, List.lookup_nil]
      cases (a :: ks).findIdx? (· = k) <;> rfl
    | cons v vs =>
      rw [List.zip_cons_cons, List.lookup_cons, List.findIdx?_cons]
      by_cases h : a = k
      · simp [h]
      · have hne : (k == a) = false := beq_eq_false_iff_ne.mpr (Ne.symm h)
        rw [hne, ih, if_neg (by simpa using h)]
        cases ks.findIdx? (· = k) <;> rfl

/-- A key stands in a list of pairs with the value it is mapped to. -/
theorem lookup_zip_map (f : β → γ) {ks : List β} {k : β} (hk : k ∈ ks) :
    (ks.zip (ks.map f)).lookup k = some (f k) := by
  induction ks with
  | nil => exact absurd hk List.not_mem_nil
  | cons a ks ih =>
    rw [List.map_cons, List.zip_cons_cons, List.lookup_cons]
    cases h : k == a with
    | true => rw [eq_of_beq h]
    | false => exact ih (List.mem_of_ne_of_mem (ne_of_beq_false h) hk)

/-- A pair put at the end is found under its own key only. -/
theorem lookup_append_singleton_of_ne (l : List (β × γ)) {k key : β} (v : γ) (h : k ≠ key) :
    (l ++ [(key, v)]).lookup k = l.lookup k := by
  have hnone : [(key, v)].lookup k = none := by
    rw [List.lookup_cons, beq_eq_false_iff_ne.mpr h]
    rfl
  rw [List.lookup_append, hnone, Option.or_none]

/-- With distinct keys, looking up does not depend on the order. -/
theorem lookup_eq_some_iff {l : List (β × γ)} (hnd : (l.map Prod.fst).Nodup) {k : β} {v : γ} :
    l.lookup k = some v ↔ (k, v) ∈ l := by
  induction l with
  | nil => simp
  | cons p l ih =>
    obtain ⟨a, b⟩ := p
    rw [List.map_cons, List.nodup_cons] at hnd
    rw [List.lookup_cons, List.mem_cons, Prod.mk.injEq]
    cases h : k == a with
    | true =>
      obtain rfl := eq_of_beq h
      have hnot : (k, v) ∉ l := fun hmem ↦ hnd.1 (List.mem_map.mpr ⟨_, hmem, rfl⟩)
      simp [hnot, eq_comm]
    | false =>
      have hne : k ≠ a := ne_of_beq_false h
      simp [hne, ih hnd.2]

theorem lookup_eq_of_perm {l l' : List (β × γ)} (h : l.Perm l') (hnd : (l.map Prod.fst).Nodup)
    (k : β) : l.lookup k = l'.lookup k := by
  refine Option.ext fun v ↦ ?_
  rw [lookup_eq_some_iff hnd, lookup_eq_some_iff ((h.map Prod.fst).nodup_iff.mp hnd), h.mem_iff]

/-! ## Replacing a value -/

/-- The value under a key is replaced; a key that is not there is put at the end. -/
def put (key : β) (v : γ) : List (β × γ) → List (β × γ)
  | [] => [(key, v)]
  | (k, w) :: l => if k == key then (key, v) :: l else (k, w) :: put key v l

theorem lookup_put_self (key : β) (v : γ) (l : List (β × γ)) :
    (put key v l).lookup key = some v := by
  induction l with
  | nil => simp [put]
  | cons p l ih =>
    obtain ⟨k, w⟩ := p
    rw [put]
    cases h : k == key with
    | true => simp
    | false =>
      have hne : (key == k) = false := beq_eq_false_iff_ne.mpr (ne_of_beq_false h).symm
      simp [List.lookup_cons, hne, ih]

theorem lookup_put_of_ne {key k : β} (v : γ) (l : List (β × γ)) (hne : k ≠ key) :
    (put key v l).lookup k = l.lookup k := by
  have hfalse : (k == key) = false := beq_eq_false_iff_ne.mpr hne
  induction l with
  | nil => simp [put, List.lookup_cons, hfalse]
  | cons p l ih =>
    obtain ⟨k', w⟩ := p
    rw [put]
    cases h : k' == key with
    | true =>
      obtain rfl := eq_of_beq h
      simp [List.lookup_cons, hfalse]
    | false => simp [List.lookup_cons, ih]

end Collections
