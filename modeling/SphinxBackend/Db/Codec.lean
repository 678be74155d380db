import SphinxBackend.Db.Utils
import SphinxBackend.Numbers.IntegerType

/-!
# Integers to text and back, at every width

`db_utils.h` prints a value of any type with `to_optional_string`, and `db_utils.cpp` specialises
`convert_to` for three integer types. The columns in use need only `std::int32_t`; here are all
three, each with the function of the standard library that it calls.

The two signed readers accept exactly the integers of their type. The unsigned one looks at the
magnitude alone: a minus sign negates the value in the arithmetic of the type, as `strtoull` does,
so it reads more texts than are printed. What is printed is in the range of the type at every
width, the most negative value included, and comes back unchanged.
-/

namespace Sphinx.Db

open Numbers

/-! ## `convert_to` -/

/-- A reader of the standard library that throws if the integer is not of the type. -/
def stoSigned (α : Type) [IntegerType α] (data : String) : Except Error α :=
  match Text.scanInt data with
  | none => .error .invalidArgument
  | some n => if Fits α n then .ok (IntegerType.ofInt n) else .error .outOfRange

theorem stoi_eq (data : String) : stoi data = stoSigned Int32 data := rfl

def stoll (data : String) : Except Error Int64 := stoSigned Int64 data

/-- The magnitude has to fit; a minus sign then negates modulo `2 ^ 64`. -/
def stoull (data : String) : Except Error UInt64 :=
  match Text.scanInt data with
  | none => .error .invalidArgument
  | some n => if n.natAbs < UInt64.size then .ok (UInt64.ofInt n) else .error .outOfRange

example : (stoull "-1").toOption = some 18446744073709551615 := by decide

/-- The specialisations of `convert_to` for integers. -/
class ConvertTo (α : Type) where
  convertTo : String → Except Error α

instance : ConvertTo Int32 := ⟨stoi⟩

instance : ConvertTo Int64 := ⟨stoll⟩

instance : ConvertTo UInt64 := ⟨stoull⟩

theorem stoSigned_of_isDecimalOf {α : Type} [IntegerType α] [ExactIntegerType α] {data : String}
    {v : α} (h : Text.IsDecimalOf data (IntegerType.toInt v)) : stoSigned α data = .ok v := by
  have hread : stoSigned α data = if Fits α (IntegerType.toInt v)
      then .ok (IntegerType.ofInt (IntegerType.toInt v)) else .error .outOfRange := by
    rw [stoSigned, Text.scanInt_of_isDecimalOf h]
  rw [hread, if_pos (fits_toInt v), ExactIntegerType.ofInt_toInt]

theorem stoull_of_isDecimalOf {data : String} {v : UInt64}
    (h : Text.IsDecimalOf data (IntegerType.toInt v)) : stoull data = .ok v := by
  have hread : stoull data = if (IntegerType.toInt v).natAbs < UInt64.size
      then .ok (UInt64.ofInt (IntegerType.toInt v)) else .error .outOfRange := by
    rw [stoull, Text.scanInt_of_isDecimalOf h]
  have hfits : (IntegerType.toInt v).natAbs < UInt64.size := by
    rw [show IntegerType.toInt v = (v.toNat : Int) from rfl, Int.natAbs_natCast]
    exact v.toNat_lt
  rw [hread, if_pos hfits]
  exact congrArg _ (ExactIntegerType.ofInt_toInt v)

/-! ## `to_optional_string` -/

/-- The overloads of `to_optional_string`. -/
class ToOptionalString (α : Type) where
  toOptionalString : α → Option String

export ToOptionalString (toOptionalString)

/-- `w.write("{}", data)`. -/
instance {α : Type} [IntegerType α] : ToOptionalString α where
  toOptionalString data := some (toString (IntegerType.toInt data))

instance {α : Type} [ToOptionalString α] : ToOptionalString (Option α) where
  toOptionalString
    | some value => toOptionalString value
    | none => none

theorem toOptionalString_eq {α : Type} [IntegerType α] (v : α) :
    toOptionalString v = some (toString (IntegerType.toInt v)) := rfl

/-- An integer column has the text of its type. -/
example (v : ValueOf .int32 false) : v.toOptionalString = toOptionalString (v : Int32) := rfl

/-! ## Exactness -/

/-- A reader that finds the integer in every text of it. -/
def ReadsDecimals (α : Type) [IntegerType α] [ConvertTo α] : Prop :=
  ∀ (data : String) (v : α), Text.IsDecimalOf data (IntegerType.toInt v) →
    ConvertTo.convertTo data = .ok v

/-- What is printed is read back as the value it was printed from. -/
structure ExactCodec (α : Type) [ToOptionalString α] [ConvertTo α] : Prop where
  /-- The reader has the address of the text, and sees it up to the first NUL. -/
  convertTo_text : ∀ v : α, ∃ text, toOptionalString v = some text
    ∧ ConvertTo.convertTo (Text.cString text) = .ok v
    ∧ ConvertTo.convertTo text = .ok v
  toOptionalString_some : ∀ v : α, toOptionalString (some v) = toOptionalString v
  toOptionalString_injective : Function.Injective (toOptionalString : α → Option String)

theorem ReadsDecimals.exactCodec {α : Type} [IntegerType α] [ExactIntegerType α] [ConvertTo α]
    (h : ReadsDecimals α) : ExactCodec α where
  convertTo_text v := by
    have hread := h _ v (Text.isDecimalOf_toString _)
    exact ⟨_, toOptionalString_eq v, by rw [Text.cString_toString, hread], hread⟩
  toOptionalString_some _ := rfl
  toOptionalString_injective v w hvw :=
    toInt_injective (Text.toString_injective (Option.some.inj hvw))

theorem readsDecimals_int32 : ReadsDecimals Int32 := fun data _ h ↦
  (stoi_eq data).trans (stoSigned_of_isDecimalOf h)

theorem readsDecimals_int64 : ReadsDecimals Int64 := fun _ _ h ↦ stoSigned_of_isDecimalOf h

theorem readsDecimals_uint64 : ReadsDecimals UInt64 := fun _ _ h ↦ stoull_of_isDecimalOf h

/-- **The text of an integer is exact at every width.** -/
theorem exactCodec_int32_int64_uint64 :
    ExactCodec Int32 ∧ ExactCodec Int64 ∧ ExactCodec UInt64 :=
  ⟨readsDecimals_int32.exactCodec, readsDecimals_int64.exactCodec,
    readsDecimals_uint64.exactCodec⟩

end Sphinx.Db
