import Mathlib.Data.List.Basic

/-!
# Splitting a list at a separator

Fields that are joined with separators can be told apart again if no field contains what would end
it early. Two splits of a list at the same separator are one split, or one comes after the other
(`eq_or_exists_or_exists`). A stretch without the separator comes before every split
(`exists_append_of_notMem`), so a first field without it leaves only later splits
(`eq_or_exists_of_notMem`).
-/

namespace Collections

variable {α : Type} {a : α} {l l' r r' : List α}

/-- Two splits at a separator are one, or the left part of one contains the separator of the
other. -/
theorem eq_or_exists_or_exists (h : l ++ a :: r = l' ++ a :: r') :
    (l' = l ∧ r' = r) ∨ (∃ m, l' = l ++ a :: m ∧ r = m ++ a :: r') ∨
      ∃ m, l = l' ++ a :: m ∧ r' = m ++ a :: r := by
  rcases List.append_eq_append_iff.mp h with ⟨m, hl, hr⟩ | ⟨m, hl, hr⟩
  · cases m with
    | nil => exact .inl ⟨by rw [hl, List.append_nil], (List.cons.inj hr).2.symm⟩
    | cons b m =>
      obtain ⟨rfl, hrest⟩ := List.cons.inj hr
      exact .inr (.inl ⟨m, hl, hrest⟩)
  · cases m with
    | nil => exact .inl ⟨by rw [hl, List.append_nil], (List.cons.inj hr).2⟩
    | cons b m =>
      obtain ⟨rfl, hrest⟩ := List.cons.inj hr
      exact .inr (.inr ⟨m, hl, hrest⟩)

/-- A stretch without the separator comes before it. -/
theorem exists_append_of_notMem (ha : a ∉ l) (h : l ++ r = l' ++ a :: r') :
    ∃ m, l' = l ++ m ∧ r = m ++ a :: r' := by
  rcases List.append_eq_append_iff.mp h with ⟨m, hl', hr⟩ | ⟨m, hl, hr⟩
  · exact ⟨m, hl', hr⟩
  · cases m with
    | nil => exact ⟨[], by simpa using hl.symm, hr.symm⟩
    | cons b m =>
      -- the separator would be inside of the stretch
      obtain ⟨rfl, -⟩ := List.cons.inj hr
      rw [hl] at ha
      exact absurd (List.mem_append_right _ List.mem_cons_self) ha

/-- The first separator gives a split, and all others come later. -/
theorem eq_or_exists_of_notMem (ha : a ∉ l) (h : l ++ a :: r = l' ++ a :: r') :
    (l' = l ∧ r' = r) ∨ ∃ m, l' = l ++ a :: m ∧ r = m ++ a :: r' := by
  rcases eq_or_exists_or_exists h with heq | hlater | ⟨m, hl, -⟩
  · exact .inl heq
  · exact .inr hlater
  · rw [hl] at ha
    exact absurd (List.mem_append_right _ List.mem_cons_self) ha

end Collections
