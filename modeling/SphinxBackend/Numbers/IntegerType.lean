import Mathlib.Init

/-!
# Integer types of a fixed width

A machine integer type stands for an interval of the integers. Any integer can be converted to it,
and what lies outside of the interval wraps around: the conversion never fails, and it is exact for
the integers of the interval and for no others (`toInt_ofInt_iff`).
-/

namespace Numbers

/-- An integer type with its range and the conversion into it. -/
class IntegerType (α : Type) where
  toInt : α → Int
  ofInt : Int → α
  minValue : Int
  maxValue : Int
  minValue_le_toInt : ∀ a, minValue ≤ toInt a
  toInt_le_maxValue : ∀ a, toInt a ≤ maxValue
  toInt_ofInt : ∀ n, minValue ≤ n → n ≤ maxValue → toInt (ofInt n) = n

section Fits

variable (α : Type) [IntegerType α]

/-- The integer is in the range of the type. -/
def Fits (n : Int) : Prop := IntegerType.minValue α ≤ n ∧ n ≤ IntegerType.maxValue α

instance (n : Int) : Decidable (Fits α n) := inferInstanceAs (Decidable (_ ∧ _))

variable {α}

theorem fits_toInt (a : α) : Fits α (IntegerType.toInt a) :=
  ⟨IntegerType.minValue_le_toInt a, IntegerType.toInt_le_maxValue a⟩

/-- **A conversion is exact exactly within the range.** -/
theorem toInt_ofInt_iff {n : Int} :
    IntegerType.toInt (IntegerType.ofInt n : α) = n ↔ Fits α n := by
  constructor
  · intro h
    have hfits := fits_toInt (IntegerType.ofInt n : α)
    rwa [h] at hfits
  · rintro ⟨hmin, hmax⟩
    exact IntegerType.toInt_ofInt n hmin hmax

end Fits

/-- Every value is what its integer converts to, so a value is known from its integer. -/
class ExactIntegerType (α : Type) [IntegerType α] : Prop where
  ofInt_toInt : ∀ a : α, IntegerType.ofInt (IntegerType.toInt a) = a

theorem toInt_injective {α : Type} [IntegerType α] [ExactIntegerType α] :
    Function.Injective (IntegerType.toInt : α → Int) := fun a b h ↦ by
  rw [← ExactIntegerType.ofInt_toInt a, h, ExactIntegerType.ofInt_toInt]

/-! ## The types -/

/-- Reduction modulo the size of an unsigned type leaves its own integers alone. -/
private theorem emod_eq_self_of_bounds {n : Int} {size : Nat} (hmin : 0 ≤ n)
    (hmax : n ≤ (size : Int) - 1) : n % size = n ∧ n.toNat < size :=
  ⟨Int.emod_eq_of_lt hmin (by omega), by omega⟩

instance : IntegerType Int32 where
  toInt := Int32.toInt
  ofInt := Int32.ofInt
  minValue := Int32.minValue.toInt
  maxValue := Int32.maxValue.toInt
  minValue_le_toInt := Int32.minValue_le_toInt
  toInt_le_maxValue := Int32.toInt_le
  toInt_ofInt n hmin hmax := by
    have hlt : n < Int32.maxValue.toInt + 1 := by omega
    exact Int32.toInt_ofInt_of_le hmin hlt

instance : ExactIntegerType Int32 where
  ofInt_toInt := Int32.ofInt_toInt

instance : IntegerType Int64 where
  toInt := Int64.toInt
  ofInt := Int64.ofInt
  minValue := Int64.minValue.toInt
  maxValue := Int64.maxValue.toInt
  minValue_le_toInt := Int64.minValue_le_toInt
  toInt_le_maxValue := Int64.toInt_le
  toInt_ofInt n hmin hmax := by
    have hlt : n < Int64.maxValue.toInt + 1 := by omega
    exact Int64.toInt_ofInt_of_le hmin hlt

instance : ExactIntegerType Int64 where
  ofInt_toInt := Int64.ofInt_toInt

instance : IntegerType UInt16 where
  toInt n := n.toNat
  ofInt := UInt16.ofInt
  minValue := 0
  maxValue := UInt16.size - 1
  minValue_le_toInt n := Int.natCast_nonneg _
  toInt_le_maxValue n := by
    have hlt := n.toNat_lt
    simp only [UInt16.size]
    omega
  toInt_ofInt n hmin hmax := by
    obtain ⟨hmod, hlt⟩ := emod_eq_self_of_bounds hmin hmax
    have hof : UInt16.ofInt n = UInt16.ofNat (n % UInt16.size).toNat := rfl
    rw [hof, hmod, UInt16.toNat_ofNat_of_lt' hlt, Int.toNat_of_nonneg hmin]

instance : ExactIntegerType UInt16 where
  ofInt_toInt n := UInt16.toNat_inj.mp (Int.natCast_inj.mp (toInt_ofInt_iff.mpr (fits_toInt n)))

instance : IntegerType UInt64 where
  toInt n := n.toNat
  ofInt := UInt64.ofInt
  minValue := 0
  maxValue := UInt64.size - 1
  minValue_le_toInt n := Int.natCast_nonneg _
  toInt_le_maxValue n := by
    have hlt := n.toNat_lt
    simp only [UInt64.size]
    omega
  toInt_ofInt n hmin hmax := by
    obtain ⟨hmod, hlt⟩ := emod_eq_self_of_bounds hmin hmax
    have hof : UInt64.ofInt n = UInt64.ofNat (n % UInt64.size).toNat := rfl
    rw [hof, hmod, UInt64.toNat_ofNat_of_lt' hlt, Int.toNat_of_nonneg hmin]

instance : ExactIntegerType UInt64 where
  ofInt_toInt n := UInt64.toNat_inj.mp (Int.natCast_inj.mp (toInt_ofInt_iff.mpr (fits_toInt n)))

end Numbers
