import Mathlib.Data.List.TakeWhile
import Mathlib.Logic.Function.Basic

/-!
# Text at the boundary of a program

Two ways in which a value loses or keeps its meaning on the way through text.

The first is decimal notation. Printing an integer is `toString`; reading one back is `scanInt`,
which follows the C library: white space is skipped, a sign may follow, and the longest run of
digits after it counts. The two are inverse (`scanInt_toString`), so printing is injective and the
text of an integer has the shape `[-]digits`.

The second is the C string. A `String` knows its length, but a reader who is given only the address
of the first character stops at the first NUL. `cString` is what that reader sees, and it is the
whole text exactly when no NUL occurs in it (`cString_eq_self_iff`).

One character stands for one byte; the code points up to `255` are the bytes, so a statement about
every `String` covers every byte string.
-/

namespace Text

/-! ## Decimal integers -/

/-- The characters `isspace` skips. -/
def isSpace (c : Char) : Bool := c = ' ' || ('\t' ≤ c && c ≤ '\r')

/-- The value of the longest run of digits, if there is at least one. -/
def scanDigits (cs : List Char) : Option ℕ :=
  match cs.takeWhile Char.isDigit with
  | [] => none
  | d :: ds => some (Nat.ofDigitChars 10 (d :: ds) 0)

/-- The integer at the start of a list of characters: a sign, then digits. -/
def scanSigned : List Char → Option Int
  | '-' :: cs => (scanDigits cs).map fun n : ℕ ↦ -Int.ofNat n
  | '+' :: cs => (scanDigits cs).map Int.ofNat
  | cs => (scanDigits cs).map Int.ofNat

/-- The integer at the start of a text, as the `strtol` family reads it. -/
def scanInt (s : String) : Option Int := scanSigned (s.toList.dropWhile isSpace)

theorem isDigit_of_mem_toDigits {n : ℕ} {c : Char} (h : c ∈ Nat.toDigits 10 n) : c.isDigit :=
  Nat.isDigit_of_mem_toDigits (by decide) (by decide) h

theorem scanDigits_of_forall {ds : List Char} (hne : ds ≠ []) (h : ∀ c ∈ ds, c.isDigit) :
    scanDigits ds = some (Nat.ofDigitChars 10 ds 0) := by
  rw [scanDigits, List.takeWhile_eq_self_iff.mpr h]
  cases ds with
  | nil => exact absurd rfl hne
  | cons d ds => rfl

theorem scanDigits_toDigits (n : ℕ) : scanDigits (Nat.toDigits 10 n) = some n := by
  rw [scanDigits_of_forall Nat.toDigits_ne_nil fun c hc ↦ isDigit_of_mem_toDigits hc,
    Nat.ofDigitChars_ten_toDigits]

/-- A text of digits is not white space and carries no sign. -/
private theorem scanSigned_digits {cs : List Char} (h : ∀ c ∈ cs, c.isDigit) :
    scanSigned (cs.dropWhile isSpace) = (scanDigits cs).map Int.ofNat := by
  cases cs with
  | nil => rfl
  | cons c cs =>
    have hc : c.isDigit := h c List.mem_cons_self
    have hrange : 48 ≤ c.toNat ∧ c.toNat ≤ 57 := by
      simpa [Char.isDigit, UInt32.le_iff_toNat_le] using hc
    have hspace : isSpace c = false := by
      have h1 : c ≠ ' ' := by rintro rfl; exact absurd hrange.1 (by decide)
      have h2 : ¬c ≤ '\r' := by
        intro hle
        have : c.toNat ≤ 13 := hle
        omega
      simp [isSpace, h1, h2]
    have hminus : c ≠ '-' := by rintro rfl; exact absurd hrange.1 (by decide)
    have hplus : c ≠ '+' := by rintro rfl; exact absurd hrange.1 (by decide)
    rw [List.dropWhile_cons_of_neg (by simp [hspace])]
    unfold scanSigned
    split
    · rename_i heq; exact absurd (List.cons.inj heq).1 hminus
    · rename_i heq; exact absurd (List.cons.inj heq).1 hplus
    · rfl

/-- The characters of a printed integer. -/
theorem toList_toString (n : Int) :
    (toString n).toList =
      if 0 ≤ n then Nat.toDigits 10 n.toNat else '-' :: Nat.toDigits 10 (-n).toNat := by
  rw [Int.toString_eq_repr, Int.repr_eq_if]
  split <;> simp

/-- The text writes the integer in decimal: digits, with a minus sign in front if it is negative.
The digits may begin with zeros. -/
def IsDecimalOf (s : String) (n : Int) : Prop :=
  ∃ ds : List Char, ds ≠ [] ∧ (∀ c ∈ ds, c.isDigit) ∧
    (s.toList = ds ∧ n = Int.ofNat (Nat.ofDigitChars 10 ds 0) ∨
      s.toList = '-' :: ds ∧ n = -Int.ofNat (Nat.ofDigitChars 10 ds 0))

theorem isDecimalOf_toString (n : Int) : IsDecimalOf (toString n) n := by
  rw [IsDecimalOf, toList_toString]
  by_cases hn : 0 ≤ n
  · refine ⟨_, Nat.toDigits_ne_nil, fun c hc ↦ isDigit_of_mem_toDigits hc, .inl ⟨if_pos hn, ?_⟩⟩
    rw [Nat.ofDigitChars_ten_toDigits, Int.ofNat_eq_natCast, Int.toNat_of_nonneg hn]
  · refine ⟨_, Nat.toDigits_ne_nil, fun c hc ↦ isDigit_of_mem_toDigits hc, .inr ⟨if_neg hn, ?_⟩⟩
    rw [Nat.ofDigitChars_ten_toDigits, Int.ofNat_eq_natCast, Int.toNat_of_nonneg (by omega),
      Int.neg_neg]

/-- **Decimal text is read as the integer it writes.** -/
theorem scanInt_of_isDecimalOf {s : String} {n : Int} (h : IsDecimalOf s n) :
    scanInt s = some n := by
  obtain ⟨ds, hne, hds, ⟨hs, rfl⟩ | ⟨hs, rfl⟩⟩ := h
  · rw [scanInt, hs, scanSigned_digits hds, scanDigits_of_forall hne hds, Option.map_some]
  · rw [scanInt, hs, List.dropWhile_cons_of_neg (by decide), scanSigned,
      scanDigits_of_forall hne hds, Option.map_some]

/-- Reading back a printed integer gives the integer. -/
theorem scanInt_toString (n : Int) : scanInt (toString n) = some n :=
  scanInt_of_isDecimalOf (isDecimalOf_toString n)

theorem toString_injective : Function.Injective (toString : Int → String) := fun m n h ↦ by
  have := scanInt_toString m
  rw [h, scanInt_toString n] at this
  exact (Option.some.inj this).symm

/-- An optional minus sign followed by digits. -/
def IsDecimal (s : String) : Prop :=
  ∃ ds : List Char, ds ≠ [] ∧ (∀ c ∈ ds, c.isDigit) ∧ (s.toList = ds ∨ s.toList = '-' :: ds)

theorem isDecimal_toString (n : Int) : IsDecimal (toString n) := by
  rw [IsDecimal, toList_toString]
  by_cases hn : 0 ≤ n
  · exact ⟨_, Nat.toDigits_ne_nil, fun c hc ↦ isDigit_of_mem_toDigits hc, .inl (if_pos hn)⟩
  · exact ⟨_, Nat.toDigits_ne_nil, fun c hc ↦ isDigit_of_mem_toDigits hc, .inr (if_neg hn)⟩

theorem notMem_toString {c : Char} (hd : c.isDigit = false) (hm : c ≠ '-') (n : Int) :
    c ∉ (toString n).toList := by
  obtain ⟨ds, -, hds, h | h⟩ := isDecimal_toString n
  · rw [h]
    intro hc
    exact absurd (hds c hc) (by simp [hd])
  · rw [h, List.mem_cons, not_or]
    exact ⟨hm, fun hc ↦ absurd (hds c hc) (by simp [hd])⟩

/-! ## C strings -/

/-- The text a reader sees who stops at the first NUL. -/
def cString (s : String) : String := String.ofList (s.toList.takeWhile (· ≠ '\x00'))

theorem cString_eq_self_iff {s : String} : cString s = s ↔ '\x00' ∉ s.toList := by
  rw [cString, ← String.toList_inj, String.toList_ofList, List.takeWhile_eq_self_iff]
  constructor
  · intro h hmem
    exact absurd (h _ hmem) (by simp)
  · intro h c hc
    rw [decide_eq_true_eq]
    rintro rfl
    exact h hc

/-- Nobody sees a NUL at the end. -/
theorem cString_append_nul (s : String) : cString (s ++ "\x00") = cString s := by
  have hlist (l : List Char) :
      (l ++ ['\x00']).takeWhile (· ≠ '\x00') = l.takeWhile (· ≠ '\x00') := by
    induction l with
    | nil => rfl
    | cons c l ih => rw [List.cons_append, List.takeWhile_cons, List.takeWhile_cons, ih]
  rw [cString, String.toList_append, show "\x00".toList = ['\x00'] from rfl, hlist, cString]

/-- Nothing is cut off a text, if there is one. -/
theorem map_cString_eq_self_iff {o : Option String} :
    o.map cString = o ↔ ∀ s, o = some s → '\x00' ∉ s.toList := by
  cases o with
  | none => simp
  | some s => simp [cString_eq_self_iff]

theorem cString_toString (n : Int) : cString (toString n) = toString n :=
  cString_eq_self_iff.mpr (notMem_toString (by decide) (by decide) n)

end Text
