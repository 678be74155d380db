import SphinxBackend.Text.Encoding

/-!
# A lexer for SQL text

Words (keywords, identifiers, numbers and placeholders such as `$1`), single-character symbols, and
quoted literals. A literal ends at the first quote that is not doubled, and a doubled quote inside
it stands for one; a backslash is an ordinary character.

The lexer is a left fold over the characters, so the state after a text is the state after its
beginning, fed the rest (`feed_append`). That is how the tokens of a text with variable parts are
computed: the fixed parts by evaluation, the variable ones by `feed_word` and `feed_quoted`.
-/

namespace Sql

/-! ## The automaton -/

inductive Token where
  | word (s : String)
  | symbol (c : Char)
  | literal (s : String)
  deriving DecidableEq, Repr

/-- What the characters since the last token are the beginning of. The characters of an unfinished
token are kept in reverse. -/
inductive Mode where
  | blank
  | word (rev : List Char)
  | quoted (rev : List Char)
  /-- A quote inside a literal: its end, or the first half of a doubled quote. -/
  | quoteSeen (rev : List Char)
  deriving DecidableEq, Repr

/-- The finished tokens, last one first, and the unfinished one. -/
abbrev LexState := List Token × Mode

def isWordChar (c : Char) : Bool := c.isAlphanum || c = '_' || c = '$'

/-- Read `c` with no token in progress. -/
def startToken (ts : List Token) (c : Char) : LexState :=
  if Text.isSpace c then (ts, .blank)
  else if isWordChar c then (ts, .word [c])
  else if c = '\'' then (ts, .quoted [])
  else (.symbol c :: ts, .blank)

def step : LexState → Char → LexState
  | (ts, .blank), c => startToken ts c
  | (ts, .word rev), c =>
    if isWordChar c then (ts, .word (c :: rev))
    else startToken (.word (String.ofList rev.reverse) :: ts) c
  | (ts, .quoted rev), c => if c = '\'' then (ts, .quoteSeen rev) else (ts, .quoted (c :: rev))
  | (ts, .quoteSeen rev), c =>
    if c = '\'' then (ts, .quoted ('\'' :: rev))
    else startToken (.literal (String.ofList rev.reverse) :: ts) c

def feed (st : LexState) (cs : List Char) : LexState := cs.foldl step st

/-- The tokens, unless a literal is not closed. -/
def finish : LexState → Option (List Token)
  | (ts, .blank) => some ts.reverse
  | (ts, .word rev) => some (.word (String.ofList rev.reverse) :: ts).reverse
  | (_, .quoted _) => none
  | (ts, .quoteSeen rev) => some (.literal (String.ofList rev.reverse) :: ts).reverse

def lex (s : String) : Option (List Token) := finish (feed ([], .blank) s.toList)

example : lex "a <= 'it''s'" =
    some [.word "a", .symbol '<', .symbol '=', .literal "it's"] := by decide

/-! ## Feeding the variable parts -/

theorem feed_append (st : LexState) (cs ds : List Char) :
    feed st (cs ++ ds) = feed (feed st cs) ds := List.foldl_append

theorem feed_word (ts : List Token) (rev : List Char) {w : List Char}
    (hw : ∀ c ∈ w, isWordChar c) : feed (ts, .word rev) w = (ts, .word (w.reverse ++ rev)) := by
  induction w generalizing rev with
  | nil => rfl
  | cons c w ih =>
    have hc : step (ts, .word rev) c = (ts, .word (c :: rev)) :=
      if_pos (hw c List.mem_cons_self)
    rw [feed, List.foldl_cons, hc, ← feed, ih _ fun d hd ↦ hw d (List.mem_cons_of_mem c hd),
      List.reverse_cons, List.append_assoc, List.singleton_append]

private theorem le_toNat_of_isWordChar {c : Char} (h : isWordChar c) : 36 ≤ c.toNat := by
  have hbound {d : Char} (hd : 36 ≤ d.toNat) (hle : d.val ≤ c.val) : 36 ≤ c.toNat :=
    hd.trans (UInt32.le_iff_toNat_le.mp hle)
  rw [isWordChar, Bool.or_eq_true, Bool.or_eq_true, decide_eq_true_eq, decide_eq_true_eq] at h
  rcases h with (halnum | rfl) | rfl
  · change (c.isUpper || c.isLower || c.isDigit) = true at halnum
    rw [Bool.or_eq_true, Bool.or_eq_true] at halnum
    rcases halnum with (hupper | hlower) | hdigit
    · change decide ('A'.val ≤ c.val ∧ c.val ≤ 'Z'.val) = true at hupper
      exact hbound (by decide) (of_decide_eq_true hupper).1
    · change (decide ('a'.val ≤ c.val) && decide (c.val ≤ 'z'.val)) = true at hlower
      rw [Bool.and_eq_true] at hlower
      exact hbound (by decide) (of_decide_eq_true hlower.1)
    · change (decide ('0'.val ≤ c.val) && decide (c.val ≤ '9'.val)) = true at hdigit
      rw [Bool.and_eq_true] at hdigit
      exact hbound (by decide) (of_decide_eq_true hdigit.1)
  · decide
  · decide

private theorem isSpace_eq_false_of_isWordChar {c : Char} (h : isWordChar c) :
    Text.isSpace c = false := by
  have hc := le_toNat_of_isWordChar h
  have h1 : c ≠ ' ' := by rintro rfl; exact absurd hc (by decide)
  have h2 : ¬c ≤ '\r' := by
    intro hle
    have : c.toNat ≤ 13 := hle
    omega
  simp [Text.isSpace, h1, h2]

/-- A word read from a blank is the token in progress. -/
theorem feed_word_of_blank (ts : List Token) {w : List Char} (hne : w ≠ [])
    (hw : ∀ c ∈ w, isWordChar c) : feed (ts, .blank) w = (ts, .word w.reverse) := by
  cases w with
  | nil => exact absurd rfl hne
  | cons c w =>
    have hc := hw c List.mem_cons_self
    have hstart : step (ts, .blank) c = (ts, .word [c]) := by
      change startToken ts c = _
      rw [startToken, isSpace_eq_false_of_isWordChar hc, if_neg (by decide), if_pos hc]
    rw [feed, List.foldl_cons, hstart, ← feed,
      feed_word ts [c] fun d hd ↦ hw d (List.mem_cons_of_mem c hd), List.reverse_cons]

/-- A literal's text, its quotes doubled. -/
def quote (s : List Char) : List Char := s.flatMap fun c ↦ if c = '\'' then ['\'', '\''] else [c]

theorem feed_quoted (ts : List Token) (rev s : List Char) :
    feed (ts, .quoted rev) (quote s) = (ts, .quoted (s.reverse ++ rev)) := by
  induction s generalizing rev with
  | nil => rfl
  | cons c s ih =>
    have hc : feed (ts, .quoted rev) (if c = '\'' then ['\'', '\''] else [c])
        = (ts, .quoted (c :: rev)) := by
      -- of a doubled quote the first ends the literal and the second takes that back
      by_cases h : c = '\''
      · subst h; rfl
      · rw [if_neg h]; exact if_neg h
    rw [quote, List.flatMap_cons, feed_append, hc, ← quote, ih, List.reverse_cons,
      List.append_assoc, List.singleton_append]

end Sql
