import Mathlib.Data.List.Nodup
import SphinxBackend.Error
import SphinxBackend.Numbers.IntegerType

/-!
# JSON values

The part of `nlohmann::json` the backend uses. A number is kept as the parser stored it: signed or
unsigned in 64 bits, or floating point, here by its exact value. Reading it at another type is a
`static_cast`: an integer wraps around, and a floating-point number loses its fraction, which is
undefined if the rest does not fit. Reading a value of another kind throws.

The const `operator[]` has three outcomes. On an object that has the key it gives the value, on
anything but an object it throws, and on an object without the key it has none: the library asserts
the key in debug builds and dereferences the end iterator otherwise.

Members are kept in the order in which they were put in, and the first of a name counts.
-/

namespace Nlohmann

open Sphinx Numbers

inductive Json where
  | null
  | boolean (b : Bool)
  | numberInteger (n : Int64)
  | numberUnsigned (n : UInt64)
  | numberFloat (x : Rat)
  | string (s : String)
  | array (elements : List Json)
  | object (members : List (String × Json))

namespace Json

def isNull : Json → Bool
  | null => true
  | _ => false

def count : Json → String → ℕ
  | object members, key => if (members.lookup key).isSome then 1 else 0
  | _, _ => 0

/-- The const `operator[]`. -/
def at_ : Json → String → Except Error Json
  | object members, key =>
    match members.lookup key with
    | some value => .ok value
    | none => .error .missingKey
  | _, _ => .error .typeError

/-- `static_cast<std::int32_t>`: modulo `2 ^ 32`. -/
def castInt (n : Int) : Int32 := Int32.ofInt n

/-- The fraction is cut off. -/
def integerPart (x : Rat) : Int := x.num.tdiv x.den

/-- A floating-point number whose integer part is not in the range of the type. -/
def exceeds (α : Type) [IntegerType α] : Json → Bool
  | numberFloat x => !decide (Fits α (integerPart x))
  | _ => false

/-- `static_cast` of a floating-point number to an integer type. -/
def castFloat (α : Type) [IntegerType α] (x : Rat) : Except Error α :=
  if Fits α (integerPart x) then .ok (IntegerType.ofInt (integerPart x))
  else .error .unrepresentable

/-- `get<std::int32_t>`. -/
def getInt32 : Json → Except Error Int32
  | numberUnsigned n => .ok (castInt n.toNat)
  | numberInteger n => .ok (castInt n.toInt)
  | numberFloat x => castFloat Int32 x
  | boolean b => .ok (if b then 1 else 0)
  | _ => .error .typeError

/-- `static_cast<std::uint16_t>`: modulo `2 ^ 16`. -/
def castUInt16 (n : Int) : UInt16 := UInt16.ofInt n

/-- `get<std::uint16_t>`. -/
def getUInt16 : Json → Except Error UInt16
  | numberUnsigned n => .ok (castUInt16 n.toNat)
  | numberInteger n => .ok (castUInt16 n.toInt)
  | numberFloat x => castFloat UInt16 x
  | boolean b => .ok (if b then 1 else 0)
  | _ => .error .typeError

/-- `get<std::string>`. -/
def getString : Json → Except Error String
  | string s => .ok s
  | _ => .error .typeError

/-- A null value becomes an object first; a key that is there already is left alone. -/
def emplace : Json → String → Json → Except Error Json
  | null, key, value => .ok (object [(key, value)])
  | object members, key, value =>
    .ok (if (members.lookup key).isSome then object members else object (members ++ [(key, value)]))
  | _, _, _ => .error .typeError

/-- A null value becomes an array first. -/
def pushBack : Json → Json → Except Error Json
  | null, value => .ok (array [value])
  | array elements, value => .ok (array (elements ++ [value]))
  | _, _ => .error .typeError

/-- The `operator[]` of a path, given by its tokens, on a value that is not const: a null value
becomes an object first, and a member that is not there is created as a null value. None of the
tokens in use is a number, so the elements of an array are out of reach. -/
def atPointer : Json → List String → Except Error Json
  | data, [] => .ok data
  | object members, token :: path => ((members.lookup token).getD null).atPointer path
  | null, _ :: path => null.atPointer path
  | _, _ :: _ => .error .typeError

/-! ## Integers -/

/-- The integer that a number stored as one stands for. -/
def integer : Json → Option Int
  | numberUnsigned n => some n.toNat
  | numberInteger n => some n.toInt
  | _ => none

theorem getInt32_of_integer {data : Json} {n : Int} (h : data.integer = some n) :
    data.getInt32 = .ok (castInt n) := by
  cases data with
  | numberUnsigned m | numberInteger m =>
    rw [← Option.some.inj h]
    rfl
  | _ => exact absurd h (by simp [integer])

theorem getUInt16_of_integer {data : Json} {n : Int} (h : data.integer = some n) :
    data.getUInt16 = .ok (castUInt16 n) := by
  cases data with
  | numberUnsigned m | numberInteger m =>
    rw [← Option.some.inj h]
    rfl
  | _ => exact absurd h (by simp [integer])

theorem isNull_of_integer {data : Json} {n : Int} (h : data.integer = some n) :
    data.isNull = false := by
  cases data with
  | null => exact absurd h (by simp [integer])
  | _ => rfl

/-! ## Members -/

/-- The member of that name, if the value is an object that has one. -/
def member : Json → String → Option Json
  | object members, key => members.lookup key
  | _, _ => none

def isObject : Json → Bool
  | object _ => true
  | _ => false

theorem count_eq_zero_iff {data : Json} {key : String} :
    data.count key = 0 ↔ data.member key = none := by
  cases data with
  | object members =>
    rw [count, member]
    cases members.lookup key <;> simp
  | _ => exact iff_of_true rfl rfl

theorem at_of_member {data value : Json} {key : String} (h : data.member key = some value) :
    data.at_ key = .ok value := by
  cases data with
  | object members =>
    rw [member] at h
    rw [at_, h]
  | _ => exact absurd h (by simp [member])

theorem at_of_not_member {data : Json} {key : String} (h : data.member key = none) :
    data.at_ key = .error (if data.isObject then .missingKey else .typeError) := by
  cases data with
  | object members =>
    rw [member] at h
    rw [at_, h]
    rfl
  | _ => rfl

/-! ## Building values -/

/-- Emplacing members of pairwise different names one after the other lists them. -/
theorem foldlM_emplace {α : Type} (name : α → String) (value : α → Json) {l : List α}
    {members : List (String × Json)} (hnd : (members.map Prod.fst ++ l.map name).Nodup) :
    l.foldlM (fun data x ↦ data.emplace (name x) (value x)) (object members)
      = .ok (object (members ++ l.map fun x ↦ (name x, value x))) := by
  induction l generalizing members with
  | nil => rw [List.map_nil, List.append_nil]; rfl
  | cons x l ih =>
    have hnew : members.lookup (name x) = none := by
      rw [List.lookup_eq_none_iff]
      intro p hp
      have hne : p.1 ≠ name x := fun h ↦ (List.nodup_append.mp hnd).2.2 p.1
        (List.mem_map_of_mem hp) (name x) List.mem_cons_self h
      simpa using Ne.symm hne
    have hstep : (object members).emplace (name x) (value x)
        = .ok (object (members ++ [(name x, value x)])) := by
      rw [emplace, hnew]
      rfl
    have hnd_rest : ((members ++ [(name x, value x)]).map Prod.fst ++ l.map name).Nodup := by
      simpa using hnd
    have hrest := ih hnd_rest
    rw [List.append_assoc] at hrest
    rw [List.foldlM_cons, hstep]
    exact hrest

theorem foldlM_emplace_null {α : Type} (name : α → String) (value : α → Json) {l : List α}
    (hne : l ≠ []) (hnd : (l.map name).Nodup) :
    l.foldlM (fun data x ↦ data.emplace (name x) (value x)) null
      = .ok (object (l.map fun x ↦ (name x, value x))) := by
  cases l with
  | nil => exact absurd rfl hne
  | cons x l =>
    rw [List.foldlM_cons]
    have hnd_rest : ([(name x, value x)].map Prod.fst ++ l.map name).Nodup := by simpa using hnd
    exact foldlM_emplace name value hnd_rest

end Json

end Nlohmann
