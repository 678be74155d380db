import Mathlib.Data.List.Infix
import SphinxBackend.Sql.Quoting

/-!
# Patterns

The patterns of `LIKE`: a percent sign stands for any text, an underscore for any character, and a
character after a backslash for itself, as every other character does. A pattern must not end with
the backslash. `Reads` relates a text to the pattern it is the text of and `Matches` a pattern to
the texts it stands for; `readPattern` and `Pattern.matchesText` compute the one and the other.

A pattern cannot be matched by a text with fewer of some character than the pattern has
(`Matches.count_le`), and it is matched by the text with just the characters it asks for
(`matches_sample`). Doubling the quotes in a pattern therefore changes its meaning.
-/

namespace Sql

/-! ## Reading -/

inductive PatternPart where
  | anything
  | anyChar
  | char (c : Char)
  deriving DecidableEq, Repr

abbrev Pattern := List PatternPart

theorem char_beq (c d : Char) : (PatternPart.char c == .char d) = (c == d) := by
  rw [Bool.eq_iff_iff, beq_iff_eq, beq_iff_eq, PatternPart.char.injEq]

/-- A character that is not escaped. -/
def readPart (c : Char) : PatternPart :=
  if c = '%' then .anything else if c = '_' then .anyChar else .char c

/-- The text is that of a pattern. -/
inductive Reads : List Char → Pattern → Prop
  | nil : Reads [] []
  | escaped {cs : List Char} {p : Pattern} (c : Char) (h : Reads cs p) :
    Reads ('\\' :: c :: cs) (.char c :: p)
  | plain {cs : List Char} {p : Pattern} {c : Char} (hc : c ≠ '\\') (h : Reads cs p) :
    Reads (c :: cs) (readPart c :: p)

/-- The parts of a pattern, unless it ends with an escape. -/
def readPattern : List Char → Option Pattern
  | [] => some []
  | c :: cs =>
    if c = '\\' then
      match cs with
      | [] => none
      | d :: ds => (readPattern ds).map (.char d :: ·)
    else (readPattern cs).map (readPart c :: ·)

example : readPattern "a%\\_".toList = some [.char 'a', .anything, .char '_'] := by decide

theorem readPattern_escaped (c : Char) (cs : List Char) :
    readPattern ('\\' :: c :: cs) = (readPattern cs).map (.char c :: ·) := rfl

theorem readPattern_plain {c : Char} (h : c ≠ '\\') (cs : List Char) :
    readPattern (c :: cs) = (readPattern cs).map (readPart c :: ·) := by
  rw [readPattern.eq_def]
  exact if_neg h

theorem readPattern_eq_some_iff {cs : List Char} {p : Pattern} :
    readPattern cs = some p ↔ Reads cs p := by
  constructor
  · intro h
    induction cs using readPattern.induct generalizing p with
    | case1 =>
      rw [← Option.some.inj h]
      exact .nil
    | case2 => exact absurd h (by simp [readPattern])
    | case3 c cs ih =>
      rw [readPattern_escaped, Option.map_eq_some_iff] at h
      obtain ⟨p, hp, rfl⟩ := h
      exact .escaped c (ih hp)
    | case4 c cs hc ih =>
      rw [readPattern_plain hc, Option.map_eq_some_iff] at h
      obtain ⟨p, hp, rfl⟩ := h
      exact .plain hc (ih hp)
  · intro h
    induction h with
    | nil => rfl
    | escaped c _ ih => rw [readPattern_escaped, ih, Option.map_some]
    | plain hc _ ih => rw [readPattern_plain hc, ih, Option.map_some]

/-- A pattern that is not complete lacks only what its last backslash escapes. -/
theorem exists_of_readPattern_eq_none {cs : List Char} (h : readPattern cs = none) :
    ∃ ds p, cs = ds ++ ['\\'] ∧ Reads ds p := by
  induction cs using readPattern.induct with
  | case1 => exact absurd h (by simp [readPattern])
  | case2 => exact ⟨[], [], rfl, .nil⟩
  | case3 c cs ih =>
    rw [readPattern_escaped, Option.map_eq_none_iff] at h
    obtain ⟨ds, p, rfl, hp⟩ := ih h
    exact ⟨'\\' :: c :: ds, _, rfl, .escaped c hp⟩
  | case4 c cs hc ih =>
    rw [readPattern_plain hc, Option.map_eq_none_iff] at h
    obtain ⟨ds, p, rfl, hp⟩ := ih h
    exact ⟨c :: ds, _, rfl, .plain hc hp⟩

theorem Reads.append_escape {cs : List Char} {p : Pattern} (h : Reads cs p) :
    readPattern (cs ++ ['\\']) = none := by
  induction h with
  | nil => rfl
  | escaped c _ ih =>
    rw [List.cons_append, List.cons_append, readPattern_escaped, ih, Option.map_none]
  | plain hc _ ih => rw [List.cons_append, readPattern_plain hc, ih, Option.map_none]

theorem readPart_of_notMem {c : Char} (h : c ∉ ['%', '_']) : readPart c = .char c := by
  simp only [List.mem_cons, List.not_mem_nil, or_false, not_or] at h
  rw [readPart, if_neg h.1, if_neg h.2]

theorem eq_of_readPart {c d : Char} (h : readPart c = .char d) : c = d := by
  unfold readPart at h
  split at h
  · exact absurd h (by simp)
  · split at h
    · exact absurd h (by simp)
    · exact PatternPart.char.inj h

/-- An ordinary character stands in the pattern as often as it is written. -/
theorem Reads.count {q : Char} (hq : q ∉ ['\\', '%', '_']) {cs : List Char} {p : Pattern}
    (h : Reads cs p) : p.count (.char q) = cs.count q := by
  induction h with
  | nil => rfl
  | escaped c _ ih =>
    have hescape : ('\\' == q) = false := by
      rw [beq_eq_false_iff_ne]
      rintro rfl
      exact hq List.mem_cons_self
    rw [List.count_cons, List.count_cons, List.count_cons, ih, hescape, char_beq]
    simp
  | @plain _ _ c _ _ ih =>
    have hpart : (readPart c == .char q) = (c == q) := by
      rw [Bool.eq_iff_iff, beq_iff_eq, beq_iff_eq]
      constructor
      · exact eq_of_readPart
      · rintro rfl
        exact readPart_of_notMem fun hmem ↦ hq (List.mem_cons_of_mem _ hmem)
    rw [List.count_cons, List.count_cons, ih, hpart]

/-- A character that a pattern asks for is written in it. -/
theorem Reads.mem {cs : List Char} {p : Pattern} (h : Reads cs p) {c : Char}
    (hc : .char c ∈ p) : c ∈ cs := by
  induction h with
  | nil => exact absurd hc List.not_mem_nil
  | escaped d _ ih =>
    rcases List.mem_cons.mp hc with hd | hc
    · rw [PatternPart.char.inj hd]
      exact List.mem_cons_of_mem _ List.mem_cons_self
    · exact List.mem_cons_of_mem _ (List.mem_cons_of_mem _ (ih hc))
  | plain _ _ ih =>
    rcases List.mem_cons.mp hc with hd | hc
    · rw [← eq_of_readPart hd.symm]
      exact List.mem_cons_self
    · exact List.mem_cons_of_mem _ (ih hc)

/-- Doubling quotes leaves a pattern complete. -/
theorem Reads.exists_quote {cs : List Char} {p : Pattern} (h : Reads cs p) :
    ∃ p', Reads (quote cs) p' := by
  induction h with
  | nil => exact ⟨[], .nil⟩
  | @escaped cs _ c _ ih =>
    obtain ⟨p', hp'⟩ := ih
    have hcons : quote ('\\' :: c :: cs) = '\\' :: (quote [c] ++ quote cs) :=
      congrArg ('\\' :: ·) (quote_append [c] cs)
    rw [hcons]
    by_cases hq : c = '\''
    · -- the backslash escapes the first of the two quotes
      subst hq
      exact ⟨_, .escaped '\'' (.plain (by decide) hp')⟩
    · rw [quote_singleton_of_ne hq]
      exact ⟨_, .escaped c hp'⟩
  | @plain cs _ c hc _ ih =>
    obtain ⟨p', hp'⟩ := ih
    have hcons : quote (c :: cs) = quote [c] ++ quote cs := quote_append [c] cs
    rw [hcons]
    by_cases hq : c = '\''
    · subst hq
      exact ⟨_, .plain hc (.plain hc hp')⟩
    · rw [quote_singleton_of_ne hq]
      exact ⟨_, .plain hc hp'⟩

/-! ## Matching -/

/-- The pattern stands for the text. -/
inductive Matches : Pattern → List Char → Prop
  | nil : Matches [] []
  | anything {p : Pattern} {t : List Char} (u : List Char) (h : Matches p t) :
    Matches (.anything :: p) (u ++ t)
  | anyChar {p : Pattern} {t : List Char} (c : Char) (h : Matches p t) :
    Matches (.anyChar :: p) (c :: t)
  | char {p : Pattern} {t : List Char} (c : Char) (h : Matches p t) :
    Matches (.char c :: p) (c :: t)

/-- Whether the pattern stands for the text. -/
def Pattern.matchesText : Pattern → List Char → Bool
  | [], t => t.isEmpty
  | .anything :: p, t => t.tails.any (Pattern.matchesText p)
  | .anyChar :: p, t => t.tail?.any (Pattern.matchesText p)
  | .char c :: p, t => t.head? = some c && Pattern.matchesText p t.tail

theorem matchesText_iff {p : Pattern} {t : List Char} : p.matchesText t ↔ Matches p t := by
  induction p generalizing t with
  | nil =>
    rw [Pattern.matchesText, List.isEmpty_iff]
    constructor
    · rintro rfl
      exact .nil
    · rintro ⟨⟩
      rfl
  | cons a p ih =>
    cases a with
    | anything =>
      rw [Pattern.matchesText, List.any_eq_true]
      constructor
      · rintro ⟨t', htail, hmatch⟩
        obtain ⟨u, rfl⟩ := (List.mem_tails _ _).mp htail
        exact .anything u (ih.mp hmatch)
      · rintro (⟨⟩ | ⟨u, hmatch⟩)
        exact ⟨_, (List.mem_tails _ _).mpr ⟨u, rfl⟩, ih.mpr hmatch⟩
    | anyChar =>
      rw [Pattern.matchesText]
      cases t with
      | nil => exact iff_of_false (by simp) (by rintro ⟨⟩)
      | cons c t =>
        rw [List.tail?_cons, Option.any_some, ih]
        constructor
        · exact .anyChar c
        · rintro ⟨⟩
          assumption
    | char c =>
      rw [Pattern.matchesText, Bool.and_eq_true, decide_eq_true_eq]
      cases t with
      | nil => exact iff_of_false (by simp) (by rintro ⟨⟩)
      | cons d t =>
        rw [List.head?_cons, List.tail_cons, Option.some_inj, ih]
        constructor
        · rintro ⟨rfl, hmatch⟩
          exact .char d hmatch
        · rintro ⟨⟩
          exact ⟨rfl, by assumption⟩

instance (p : Pattern) (t : List Char) : Decidable (Matches p t) :=
  decidable_of_iff _ matchesText_iff

theorem Matches.append {p p' : Pattern} {t t' : List Char} (h : Matches p t)
    (h' : Matches p' t') : Matches (p ++ p') (t ++ t') := by
  induction h with
  | nil => exact h'
  | anything u _ ih =>
    rw [List.append_assoc]
    exact .anything u ih
  | anyChar c _ ih => exact .anyChar c ih
  | char c _ ih => exact .char c ih

/-- A text that two patterns stand for together has a part for each. -/
theorem Matches.exists_of_append {p p' : Pattern} {t : List Char} (h : Matches (p ++ p') t) :
    ∃ u u', t = u ++ u' ∧ Matches p u ∧ Matches p' u' := by
  induction p generalizing t with
  | nil => exact ⟨[], t, rfl, .nil, h⟩
  | cons a p ih =>
    cases h with
    | anything w h =>
      obtain ⟨u, u', rfl, hu, hu'⟩ := ih h
      exact ⟨w ++ u, u', (List.append_assoc ..).symm, .anything w hu, hu'⟩
    | anyChar c h =>
      obtain ⟨u, u', rfl, hu, hu'⟩ := ih h
      exact ⟨c :: u, u', rfl, .anyChar c hu, hu'⟩
    | char c h =>
      obtain ⟨u, u', rfl, hu, hu'⟩ := ih h
      exact ⟨c :: u, u', rfl, .char c hu, hu'⟩

/-- A text has every character at least as often as the pattern asks for it. -/
theorem Matches.count_le {p : Pattern} {t : List Char} (h : Matches p t) (q : Char) :
    p.count (.char q) ≤ t.count q := by
  induction h with
  | nil => exact Nat.le_refl _
  | anything u _ ih =>
    rw [List.count_cons_of_ne (by simp), List.count_append]
    omega
  | anyChar c _ ih =>
    rw [List.count_cons_of_ne (by simp), List.count_cons]
    omega
  | char c _ ih =>
    rw [List.count_cons, List.count_cons, char_beq]
    omega

/-- The characters a pattern asks for, and one more for each that it leaves open. -/
def sample : Pattern → List Char
  | [] => []
  | .anything :: p => sample p
  | .anyChar :: p => 'a' :: sample p
  | .char c :: p => c :: sample p

theorem matches_sample (p : Pattern) : Matches p (sample p) := by
  induction p with
  | nil => exact .nil
  | cons a p ih =>
    cases a with
    | anything => exact .anything [] ih
    | anyChar => exact .anyChar 'a' ih
    | char c => exact .char c ih

theorem count_sample {q : Char} (hq : q ≠ 'a') (p : Pattern) :
    (sample p).count q = p.count (.char q) := by
  induction p with
  | nil => rfl
  | cons a p ih =>
    cases a with
    | anything => rw [sample, ih, List.count_cons_of_ne (by simp)]
    | anyChar => rw [sample, List.count_cons_of_ne (Ne.symm hq), ih,
        List.count_cons_of_ne (by simp)]
    | char c => rw [sample, List.count_cons, List.count_cons, ih, char_beq]

theorem mem_sample {p : Pattern} {c : Char} (h : c ∈ sample p) : c = 'a' ∨ .char c ∈ p := by
  induction p with
  | nil => exact absurd h List.not_mem_nil
  | cons a p ih =>
    have hrest (hc : c ∈ sample p) : c = 'a' ∨ PatternPart.char c ∈ a :: p :=
      (ih hc).imp_right (List.mem_cons_of_mem _)
    cases a with
    | anything => exact hrest h
    | anyChar =>
      rcases List.mem_cons.mp h with hc | hc
      · exact .inl hc
      · exact hrest hc
    | char d =>
      rcases List.mem_cons.mp h with rfl | hc
      · exact .inr List.mem_cons_self
      · exact hrest hc

end Sql
