import Mathlib.Data.List.Induction
import SphinxBackend.Sql.Statement

/-!
# Text between two quotes

A text put between quotes as it is may end the literal early, leave it open, or be taken for
another one. `Inside` says what can have become of the literal at any point: it still stands, its
last quote is undecided, or it has ended and there is a token for it. From this the texts that make
exactly one literal are those in which every quote is doubled, and the literal then has one quote
for each two (`readCondition_quoted_iff`).

The rest carries this over to conditions. What comes before the literal in a statement does not
matter to the lexer (`feed_shift`), and a condition ends with its operand.
-/

namespace Sql

/-! ## What comes before -/

/-- The tokens that are finished already are kept. -/
theorem feed_shift (pre : List Token) (st : LexState) (cs : List Char) :
    feed (st.1 ++ pre, st.2) cs = ((feed st cs).1 ++ pre, (feed st cs).2) := by
  have hstart (ts : List Token) (c : Char) :
      startToken (ts ++ pre) c = ((startToken ts c).1 ++ pre, (startToken ts c).2) := by
    unfold startToken
    split
    · rfl
    · split
      · rfl
      · split <;> rfl
  have hstep (st : LexState) (c : Char) :
      step (st.1 ++ pre, st.2) c = ((step st c).1 ++ pre, (step st c).2) := by
    obtain ⟨ts, m⟩ := st
    cases m with
    | blank => exact hstart ts c
    | word rev =>
      by_cases hc : isWordChar c
      · simp [step, hc]
      · simp only [step, hc]
        exact hstart (.word (String.ofList rev.reverse) :: ts) c
    | quoted rev =>
      by_cases hc : c = '\'' <;> simp [step, hc]
    | quoteSeen rev =>
      by_cases hc : c = '\''
      · simp [step, hc]
      · simp only [step, hc]
        exact hstart (.literal (String.ofList rev.reverse) :: ts) c
  induction cs generalizing st with
  | nil => rfl
  | cons c cs ih =>
    rw [feed, List.foldl_cons, hstep, ← feed, ih (step st c)]
    rfl

theorem finish_shift (pre : List Token) (st : LexState) :
    finish (st.1 ++ pre, st.2) = (finish st).map (pre.reverse ++ ·) := by
  obtain ⟨ts, m⟩ := st
  cases m <;> simp [finish]

/-- A text after others that leave a blank adds its own tokens. -/
theorem lex_append {pre s : String} {ts : List Token}
    (hpre : feed ([], .blank) pre.toList = (ts, .blank)) :
    lex (pre ++ s) = (lex s).map (ts.reverse ++ ·) := by
  rw [lex, String.toList_append, feed_append, hpre]
  have hshift := feed_shift ts ([], .blank) s.toList
  rw [List.nil_append] at hshift
  rw [hshift, finish_shift, lex]

/-! ## Inside the quotes -/

@[simp] theorem quote_append (s t : List Char) : quote (s ++ t) = quote s ++ quote t :=
  List.flatMap_append

theorem quote_singleton_of_ne {c : Char} (h : c ≠ '\'') : quote [c] = [c] := by
  rw [quote, List.flatMap_singleton, if_neg h]

theorem mem_quote_iff {s : List Char} {c : Char} : c ∈ quote s ↔ c ∈ s := by
  have hone (d : Char) : c ∈ (if d = '\'' then ['\'', '\''] else [d]) ↔ c = d := by
    by_cases hd : d = '\''
    · simp [hd]
    · simp [hd]
  simp only [quote, List.mem_flatMap, hone, exists_eq_right']

theorem count_quote (s : List Char) : (quote s).count '\'' = 2 * s.count '\'' := by
  induction s with
  | nil => rfl
  | cons c s ih =>
    have hcons : quote (c :: s) = quote [c] ++ quote s := quote_append [c] s
    rw [hcons, List.count_append, ih, List.count_cons]
    by_cases hc : c = '\''
    · subst hc
      have htwo : (quote ['\'']).count '\'' = 2 := by decide
      rw [htwo, if_pos (by simp)]
      omega
    · rw [quote_singleton_of_ne hc, List.count_singleton, if_neg (by simpa using hc)]
      omega

theorem quote_eq_self_iff {s : List Char} : quote s = s ↔ '\'' ∉ s := by
  constructor
  · intro h
    have hcount := count_quote s
    rw [h] at hcount
    exact List.count_eq_zero.mp (by omega)
  · intro h
    induction s with
    | nil => rfl
    | cons c s ih =>
      rw [List.mem_cons, not_or] at h
      have hcons : quote (c :: s) = quote [c] ++ quote s := quote_append [c] s
      rw [hcons, quote_singleton_of_ne (Ne.symm h.1), ih h.2, List.singleton_append]

/-- What can have become of a literal after some text: it is open, its last quote may be its end,
or it has ended. -/
inductive Inside (ts : List Token) : List Char → LexState → Prop
  | opened (s : List Char) : Inside ts (quote s) (ts, .quoted s.reverse)
  | undecided (s : List Char) : Inside ts (quote s ++ ['\'']) (ts, .quoteSeen s.reverse)
  | ended (v : List Char) (x : String) (us : List Token) (m : Mode) :
    Inside ts v (us ++ .literal x :: ts, m)

theorem Inside.step {ts : List Token} {v : List Char} {st : LexState} (h : Inside ts v st)
    (c : Char) : Inside ts (v ++ [c]) (step st c) := by
  cases h with
  | opened s =>
    by_cases hc : c = '\''
    · subst hc
      exact .undecided s
    · have hstep : Sql.step (ts, .quoted s.reverse) c = (ts, .quoted (s ++ [c]).reverse) := by
        rw [List.reverse_append]
        exact if_neg hc
      have hquote : quote s ++ [c] = quote (s ++ [c]) := by
        rw [quote_append, quote_singleton_of_ne hc]
      rw [hstep, hquote]
      exact .opened (s ++ [c])
  | undecided s =>
    by_cases hc : c = '\''
    · subst hc
      have hstep : Sql.step (ts, .quoteSeen s.reverse) '\''
          = (ts, .quoted (s ++ ['\'']).reverse) := by
        rw [List.reverse_append]
        rfl
      rw [hstep, List.append_assoc, show ['\''] ++ ['\''] = quote ['\''] from rfl,
        ← quote_append]
      exact .opened (s ++ ['\''])
    · have hstep : Sql.step (ts, .quoteSeen s.reverse) c
          = feed (.literal (String.ofList s.reverse.reverse) :: ts, .blank) [c] := if_neg hc
      rw [hstep]
      have hshift := feed_shift (.literal (String.ofList s.reverse.reverse) :: ts) ([], .blank) [c]
      rw [List.nil_append] at hshift
      rw [hshift]
      exact .ended _ _ _ _
  | ended _ x us m =>
    have hstep : Sql.step (us ++ .literal x :: ts, m) c
        = feed (us ++ .literal x :: ts, m) [c] := rfl
    rw [hstep, feed_shift (.literal x :: ts) (us, m) [c]]
    exact .ended _ _ _ _

theorem inside_feed (ts : List Token) (v : List Char) :
    Inside ts v (feed (ts, .quoted []) v) := by
  induction v using List.reverseRecOn with
  | nil => exact .opened []
  | append_singleton v c ih =>
    rw [feed_append]
    exact ih.step c

/-- A closing quote finishes a literal that is open. -/
theorem finish_closed (ts : List Token) (s : List Char) :
    finish (step (ts, .quoted s.reverse) '\'')
      = some (ts.reverse ++ [.literal (String.ofList s)]) := by
  have hstep : step (ts, .quoted s.reverse) '\'' = (ts, .quoteSeen s.reverse) := rfl
  rw [hstep, finish, List.reverse_reverse, List.reverse_cons]

/-- After the closing quote there is one literal with the text, or none, or more than a literal. -/
theorem Inside.finish {ts : List Token} {v : List Char} {st : LexState} (h : Inside ts v st) :
    (∃ s, v = quote s ∧
      Sql.finish (Sql.step st '\'') = some (ts.reverse ++ [.literal (String.ofList s)])) ∨
    Sql.finish (Sql.step st '\'') = none ∨
    ∃ x us, us ≠ [] ∧ Sql.finish (Sql.step st '\'') = some (ts.reverse ++ .literal x :: us) := by
  cases h with
  | opened s => exact .inl ⟨s, rfl, finish_closed ts s⟩
  | undecided s => exact .inr (.inl rfl)
  | ended _ x us m =>
    cases m with
    | quoted rev =>
      refine .inr (.inr ⟨x, us.reverse ++ [.literal (String.ofList rev.reverse)], by simp, ?_⟩)
      have hstep : Sql.step (us ++ .literal x :: ts, .quoted rev) '\''
          = (us ++ .literal x :: ts, .quoteSeen rev) := rfl
      rw [hstep, Sql.finish]
      simp
    | _ => exact .inr (.inl rfl)

/-! ## Conditions -/

/-- A text that is one predicate. -/
def readCondition (s : String) : Option Condition := (lex s).bind parseCondition

/-- A condition on a literal ends with it. -/
theorem parseCondition_literal (c : String) (o : Operator) (x : String) (us : List Token) :
    parseCondition (.word c :: (o.tokens ++ .literal x :: us))
      = if us = [] then some ⟨c, o, .literal x⟩ else none := by
  have hop : parseOperator (o.tokens ++ .literal x :: us) = some (o, .literal x :: us) := by
    cases o <;> rfl
  rw [parseCondition, hop]
  cases us with
  | nil => rfl
  | cons u us => rfl

/-- **A text between quotes is the literal in which it stands for two quotes by one, if its quotes
are doubled, and makes no predicate otherwise.** -/
theorem readCondition_quoted_iff {column : String} (hcolumn : IsIdentifier column) (o : Operator)
    (v : String) (c : Condition) :
    readCondition (column ++ " " ++ o.text ++ " '" ++ v ++ "'") = some c ↔
      ∃ s, v.toList = quote s ∧ c = ⟨column, o, .literal (String.ofList s)⟩ := by
  have hop (us : List Token) : Lexes us o.text (o.tokens.reverse ++ us) := by
    cases o <;> rfl
  have hpre := (lexes_identifier [] hcolumn).append separates_space (hop _)
  have hopen : feed ([], .blank) (column ++ " " ++ o.text ++ " '").toList
      = (o.tokens.reverse ++ [.word column], .quoted []) := by
    rw [show " '" = " " ++ "'" by decide, ← String.append_assoc, String.toList_append, feed_append,
      String.toList_append, feed_append, separates_space _ _ hpre]
    rfl
  have hlex : lex (column ++ " " ++ o.text ++ " '" ++ v ++ "'")
      = finish (step (feed (o.tokens.reverse ++ [.word column], .quoted []) v.toList) '\'') := by
    rw [lex, String.toList_append, String.toList_append, feed_append, feed_append, hopen]
    rfl
  have htokens (us : List Token) : (o.tokens.reverse ++ [Token.word column]).reverse ++ us
      = .word column :: (o.tokens ++ us) := by simp
  rw [readCondition, hlex]
  constructor
  · intro h
    rcases (inside_feed (o.tokens.reverse ++ [.word column]) v.toList).finish with
      ⟨s, hv, hfinish⟩ | hfinish | ⟨x, us, hne, hfinish⟩
    · rw [hfinish, Option.bind_some, htokens, parseCondition_literal, if_pos rfl] at h
      exact ⟨s, hv, (Option.some.inj h).symm⟩
    · rw [hfinish] at h
      exact absurd h (by simp)
    · rw [hfinish, Option.bind_some, htokens, parseCondition_literal, if_neg hne] at h
      exact absurd h (by simp)
  · rintro ⟨s, hv, rfl⟩
    rw [hv, feed_quoted, List.append_nil]
    rw [finish_closed, Option.bind_some, htokens, parseCondition_literal, if_pos rfl]

/-- The condition of a selection is what stands after the table. -/
theorem parse_selectWhere_append {t : String} (ht : IsIdentifier t) (u : String) :
    parse ("SELECT * FROM " ++ t ++ " WHERE " ++ u) = (readCondition u).map (.selectWhere t) := by
  have htable := Lexes.prepend feed_select (lexes_identifier _ ht)
  have hpre : feed ([], .blank) ("SELECT * FROM " ++ t ++ " WHERE ").toList
      = ([.word "WHERE", .word t, .word "FROM", .symbol '*', .word "SELECT"], .blank) := by
    rw [String.toList_append, feed_append, separates_where _ _ htable]
    rfl
  rw [parse, lex_append hpre, readCondition]
  cases lex u with
  | none => rfl
  | some ts => simp [parseTokens]

end Sql
