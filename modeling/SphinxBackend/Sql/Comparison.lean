import Mathlib.Data.String.Basic
import SphinxBackend.Sql.Definition
import SphinxBackend.Sql.Like

/-!
# Comparisons

How a server compares the content of a column with a value that is given as text. The server is a
parameter: `Comparison` has what its manual says of the five operators, and leaves open what it
does not, the order of texts above all. A value may be refused, as one that is not of the column's
type or for want of such an operator, and a pattern may turn out to be incomplete in the middle of
a table; either way there are no rows.

`Comparison.select` extends what a table selects by `=` (`select_eq_table_select`) to all
operators. A text and the text with its quotes doubled are told apart by every operator, each in
some one row (`exists_differs`).
-/

namespace Sql

/-! ## Servers -/

/-- A comparison came out as the proposition is true or false. -/
def Answers (x : Option Bool) (p : Prop) : Prop := x = some true ∧ p ∨ x = some false ∧ ¬p

theorem answers_decide (p : Prop) [Decidable p] : Answers (some (decide p)) p := by
  by_cases h : p
  · exact .inl ⟨by rw [decide_eq_true h], h⟩
  · exact .inr ⟨by rw [decide_eq_false h], h⟩

theorem Answers.eq_true {x : Option Bool} {p : Prop} (h : Answers x p) (hp : p) :
    x = some true := by
  rcases h with ⟨hx, -⟩ | ⟨-, hnot⟩
  · exact hx
  · exact absurd hp hnot

theorem Answers.eq_false {x : Option Bool} {p : Prop} (h : Answers x p) (hp : ¬p) :
    x = some false := by
  rcases h with ⟨-, htrue⟩ | ⟨hx, -⟩
  · exact absurd htrue hp
  · exact hx

/-- Comparisons come out differently if one proposition is true and the other is not. -/
theorem Answers.ne {x y : Option Bool} {p q : Prop} (h : Answers x p) (h' : Answers y q)
    (hpq : ¬(p ↔ q)) : x ≠ y := by
  rintro rfl
  by_cases hp : p
  · have hq : ¬q := fun hq ↦ hpq (iff_of_true hp hq)
    exact absurd ((h.eq_true hp).symm.trans (h'.eq_false hq)) (by simp)
  · have hq : q := not_not.mp fun hq ↦ hpq (iff_of_false hp hq)
    exact absurd ((h.eq_false hp).symm.trans (h'.eq_true hq)) (by simp)

structure Comparison where
  /-- The text is one of a value that the operator can compare with the type. -/
  accepts : CellType → Operator → String → Bool
  /-- The outcome for a cell and a value; `none` is an error. -/
  holds : CellType → Operator → (cell value : String) → Option Bool
  /-- The order of texts, which never takes two of them for equal. -/
  collation : LinearOrder String
  accepts_of_hasText : ∀ {type o v}, type.HasText v → (o = .like → type = .text) →
    accepts type o v
  eq : ∀ {type s v}, type.HasText s → type.HasText v → Answers (holds type .eq s v) (s = v)
  neq : ∀ {type s v}, type.HasText s → type.HasText v → Answers (holds type .neq s v) (s ≠ v)
  lt : ∀ {s v}, CellType.text.HasText s → CellType.text.HasText v →
    Answers (holds .text .lt s v) (collation.lt s v)
  le : ∀ {s v}, CellType.text.HasText s → CellType.text.HasText v →
    Answers (holds .text .le s v) (collation.le s v)
  like : ∀ {s v p}, CellType.text.HasText s → Reads v.toList p →
    Answers (holds .text .like s v) (Matches p s.toList)
  /-- The end of an incomplete pattern is an error where it is reached with text left over, -/
  like_reached : ∀ {s v cs p}, CellType.text.HasText s → v.toList = cs ++ ['\\'] →
    Reads cs p → Matches (p ++ [.anyChar, .anything]) s.toList →
    holds .text .like s v = none
  /-- and not looked at where what comes before it does not match. -/
  like_unreached : ∀ {s v cs p}, CellType.text.HasText s → v.toList = cs ++ ['\\'] →
    Reads cs p → ¬Matches (p ++ [.anything]) s.toList →
    holds .text .like s v = some false

/-! ## Selections -/

/-- Keep the rows for which a comparison holds. An error in one row is one for all. -/
def filterRows (f : Row → Option Bool) : List Row → Option (List Row)
  | [] => some []
  | r :: rows => do
    let keep ← f r
    let kept ← filterRows f rows
    return if keep then r :: kept else kept

theorem filterRows_eq_filter {f : Row → Option Bool} {g : Row → Bool} {rows : List Row}
    (h : ∀ r ∈ rows, f r = some (g r)) : filterRows f rows = some (rows.filter g) := by
  induction rows with
  | nil => rfl
  | cons r rows ih =>
    rw [filterRows, h r List.mem_cons_self, ih fun s hs ↦ h s (List.mem_cons_of_mem r hs)]
    cases hg : g r <;> simp [hg]

/-- In a table of one row a selection shows the outcome for this row. -/
theorem filterRows_singleton_injective {f g : Row → Option Bool} {r : Row}
    (h : filterRows f [r] = filterRows g [r]) : f r = g r := by
  have hone (f : Row → Option Bool) :
      filterRows f [r] = (f r).map fun keep ↦ if keep then [r] else [] := by
    cases hf : f r with
    | none => simp [filterRows, hf]
    | some keep => simp [filterRows, hf]
  rw [hone, hone] at h
  refine Option.map_injective (fun a b hab ↦ ?_) h
  cases a <;> cases b <;> simp at hab ⊢

/-- The cells of a column are texts of its type. -/
def Table.Typed (t : Table) (column : String) (type : CellType) : Prop :=
  ∀ r ∈ t.rows, ∀ s, r column = some s → type.HasText s

namespace Comparison

variable (S : Comparison)

/-- The rows a condition selects from a table in which its column has this type. -/
def select (type : CellType) (t : Table) (c : Condition) (params : List (Option String)) :
    Option (List Row) :=
  if c.column ∈ t.columns then
    match c.operand.value params with
    | none => none
    | some none => some []
    | some (some v) =>
      if S.accepts type c.operator v then
        filterRows (fun r ↦ (r c.column).elim (some false) fun s ↦ S.holds type c.operator s v)
          t.rows
      else none
  else none

/-- What a request for rows that meet a condition returns, if it does. `types` gives the types of
the columns of each table. -/
def rows (types : String → String → CellType) (db : Db) (q : Request) : Option (List Row) :=
  match parse q.text with
  | some (.selectWhere t c) => S.select (types t c.column) (db t) c q.params
  | _ => none

variable {S}

theorem rows_of_parse {types : String → String → CellType} {db : Db} {q : Request} {t : String}
    {c : Condition} (h : parse q.text = some (.selectWhere t c)) :
    S.rows types db q = S.select (types t c.column) (db t) c q.params := by
  rw [rows, h]

/-- A selection depends on what the operand stands for, however it is given. -/
theorem select_congr {type : CellType} {t : Table} {c c' : Condition}
    {params params' : List (Option String)} (hcolumn : c.column = c'.column)
    (ho : c.operator = c'.operator) (hv : c.operand.value params = c'.operand.value params') :
    S.select type t c params = S.select type t c' params' := by
  rw [select, select, hcolumn, ho, hv]

/-- In a table of one row a selection shows whether the comparison holds for its cell. -/
theorem holds_eq_of_select_eq {type : CellType} {t : Table} {column s v w : String} {o : Operator}
    {r : Row} (hcolumn : column ∈ t.columns) (hrows : t.rows = [r]) (hcell : r column = some s)
    (hv : S.accepts type o v) (hw : S.accepts type o w)
    (h : S.select type t ⟨column, o, .literal w⟩ [] = S.select type t ⟨column, o, .literal v⟩ []) :
    S.holds type o s w = S.holds type o s v := by
  have hselect {u : String} (hu : S.accepts type o u) :
      S.select type t ⟨column, o, .literal u⟩ []
        = filterRows (fun r ↦ (r column).elim (some false) fun s ↦ S.holds type o s u) [r] := by
    rw [select, if_pos hcolumn, hrows]
    exact if_pos hu
  rw [hselect hv, hselect hw] at h
  have hrow := filterRows_singleton_injective h
  rwa [hcell] at hrow

/-- For `=` this is the selection of the table. -/
theorem select_eq_table_select {type : CellType} {t : Table} {c : Condition} {v : String}
    {params : List (Option String)} (ho : c.operator = .eq)
    (hv : c.operand.value params = some (some v)) (hvalue : type.HasText v)
    (hcells : t.Typed c.column type) : S.select type t c params = t.select c params := by
  rw [select, Table.select, hv, ho]
  by_cases hc : c.column ∈ t.columns
  · rw [if_pos hc, if_pos ⟨rfl, hc⟩, Option.map_some]
    have haccepts : S.accepts type .eq v = true := S.accepts_of_hasText hvalue (by simp)
    simp only [haccepts, if_true]
    refine filterRows_eq_filter fun r hr ↦ ?_
    cases hcell : r c.column with
    | none => rfl
    | some s =>
      have hanswer := S.eq (hcells r hr s hcell) hvalue
      by_cases hsv : s = v
      · rw [Option.elim_some, hanswer.eq_true hsv]
        simp [equals, hsv]
      · rw [Option.elim_some, hanswer.eq_false hsv]
        simp [equals, hsv]
  · rw [if_neg hc, if_neg fun h ↦ hc h.2]

/-! ## Texts with quotes -/

section Order

variable {α : Type} [LinearOrder α] {a b : α}

/-- The smaller of two elements is below one of them only. -/
theorem exists_lt_of_ne (h : a ≠ b) : ∃ x, (x = a ∨ x = b) ∧ ¬(x < a ↔ x < b) := by
  rcases lt_or_gt_of_ne h with hlt | hgt
  · exact ⟨a, .inl rfl, fun hiff ↦ lt_irrefl a (hiff.mpr hlt)⟩
  · exact ⟨b, .inr rfl, fun hiff ↦ lt_irrefl b (hiff.mp hgt)⟩

/-- The greater of two elements is not below the other. -/
theorem exists_le_of_ne (h : a ≠ b) : ∃ x, (x = a ∨ x = b) ∧ ¬(x ≤ a ↔ x ≤ b) := by
  rcases lt_or_gt_of_ne h with hlt | hgt
  · exact ⟨b, .inr rfl, fun hiff ↦ not_le_of_gt hlt (hiff.mpr le_rfl)⟩
  · exact ⟨a, .inl rfl, fun hiff ↦ not_le_of_gt hgt (hiff.mp le_rfl)⟩

end Order

section Quoted

variable {v w : String}

theorem hasText_of_quote (h : v.toList = quote w.toList)
    (hv : CellType.text.HasText v) : CellType.text.HasText w := by
  rw [CellType.HasText, h, mem_quote_iff] at hv
  exact hv

/-- What a pattern asks for has a NUL only if the pattern has. -/
private theorem hasText_sample {cs : List Char} {p : Pattern} (hp : Reads cs p)
    (hcs : '\x00' ∉ cs) : '\x00' ∉ sample p := by
  intro hmem
  rcases mem_sample hmem with ha | hchar
  · exact absurd ha (by decide)
  · exact hcs (hp.mem hchar)

/-- A text with just the quotes a pattern asks for has too few of them if they are doubled. -/
private theorem not_matches_sample {cs : List Char} {p p' : Pattern} (hp : Reads cs p)
    (hp' : Reads (quote cs) p') (hq : '\'' ∈ cs) {rest : Pattern} {t : List Char}
    (ht : t.count '\'' = 0) : ¬Matches (p' ++ rest) (sample p ++ t) := by
  intro hmatch
  have hle := hmatch.count_le '\''
  rw [List.count_append, List.count_append, count_sample (by decide), ht,
    hp.count (by decide), hp'.count (by decide), count_quote] at hle
  have hpos := List.count_pos_iff.mpr hq
  omega

theorem exists_differs_like (S : Comparison) (hv : CellType.text.HasText v)
    (h : v.toList = quote w.toList) (hq : '\'' ∈ w.toList) :
    ∃ s, CellType.text.HasText s ∧ S.holds .text .like s w ≠ S.holds .text .like s v := by
  have hw : CellType.text.HasText w := hasText_of_quote h hv
  cases hread : readPattern w.toList with
  | some p =>
    -- the text of just the characters that the one pattern asks for
    have hp : Reads w.toList p := readPattern_eq_some_iff.mp hread
    obtain ⟨p', hp'⟩ := hp.exists_quote
    have hs : CellType.text.HasText (String.ofList (sample p)) := by
      rw [CellType.HasText, String.toList_ofList]
      exact hasText_sample hp hw
    refine ⟨String.ofList (sample p), hs, (S.like hs hp).ne (S.like hs (h ▸ hp')) ?_⟩
    rw [String.toList_ofList]
    intro hiff
    have hnot : ¬Matches (p' ++ []) (sample p ++ []) :=
      not_matches_sample hp hp' hq List.count_nil
    exact hnot ((hiff.mp (matches_sample p)).append .nil)
  | none =>
    -- the same for what comes before the last backslash, and one character more
    obtain ⟨cs, p, hcs, hp⟩ := exists_of_readPattern_eq_none hread
    obtain ⟨p', hp'⟩ := hp.exists_quote
    have hquoted : v.toList = quote cs ++ ['\\'] := by
      rw [h, hcs, quote_append]
      rfl
    have hmem : '\'' ∈ cs := by
      rw [hcs, List.mem_append] at hq
      exact hq.resolve_right (by decide)
    have hs : CellType.text.HasText (String.ofList (sample p ++ ['a'])) := by
      rw [CellType.HasText, hcs] at hw
      rw [CellType.HasText, String.toList_ofList, List.mem_append, not_or]
      exact ⟨hasText_sample hp fun hnul ↦ hw (List.mem_append_left _ hnul), by decide⟩
    refine ⟨String.ofList (sample p ++ ['a']), hs, ?_⟩
    rw [S.like_reached hs hcs hp, S.like_unreached hs hquoted hp']
    · simp
    · rw [String.toList_ofList]
      exact not_matches_sample hp hp' hmem rfl
    · rw [String.toList_ofList]
      exact (matches_sample p).append (.anyChar 'a' (.anything [] .nil))

/-- **Every operator tells a text from the one with its quotes doubled, by some cell.** -/
theorem exists_differs (S : Comparison) (o : Operator) (hv : CellType.text.HasText v)
    (h : v.toList = quote w.toList) (hq : '\'' ∈ v.toList) :
    ∃ s, CellType.text.HasText s ∧ S.holds .text o s w ≠ S.holds .text o s v := by
  have hw : CellType.text.HasText w := hasText_of_quote h hv
  have hne : w ≠ v := by
    rintro rfl
    exact quote_eq_self_iff.mp h.symm hq
  cases o with
  | eq => exact ⟨w, hw, (S.eq hw hw).ne (S.eq hw hv) fun hiff ↦ hne (hiff.mp rfl)⟩
  | neq => exact ⟨v, hv, (S.neq hv hw).ne (S.neq hv hv) fun hiff ↦ hiff.mp hne.symm rfl⟩
  | lt =>
    obtain ⟨s, hs, hnot⟩ := @exists_lt_of_ne _ S.collation _ _ hne
    have htext : CellType.text.HasText s := hs.elim (fun h ↦ h ▸ hw) fun h ↦ h ▸ hv
    exact ⟨s, htext, (S.lt htext hw).ne (S.lt htext hv) hnot⟩
  | le =>
    obtain ⟨s, hs, hnot⟩ := @exists_le_of_ne _ S.collation _ _ hne
    have htext : CellType.text.HasText s := hs.elim (fun h ↦ h ▸ hw) fun h ↦ h ▸ hv
    exact ⟨s, htext, (S.le htext hw).ne (S.le htext hv) hnot⟩
  | like => exact exists_differs_like S hv h (mem_quote_iff.mp (h ▸ hq))

end Quoted

end Comparison

/-! ## A server -/

/-- Whether a value of the type comes before another. -/
def precedes : CellType → String → String → Bool
  | .integer, s, v => (Text.scanInt s).getD 0 < (Text.scanInt v).getD 0
  | .text, s, v => s < v
  | .enum values, s, v => values.idxOf s < values.idxOf v

/-- The outcome of `LIKE`. -/
def likeOutcome (s v : String) : Option Bool :=
  match readPattern v.toList with
  | some p => some (decide (Matches p s.toList))
  | none =>
    match readPattern v.toList.dropLast with
    | some p => if Matches (p ++ [.anyChar, .anything]) s.toList then none else some false
    | none => some false

theorem answers_likeOutcome {s v : String} {p : Pattern} (h : Reads v.toList p) :
    Answers (likeOutcome s v) (Matches p s.toList) := by
  rw [likeOutcome, readPattern_eq_some_iff.mpr h]
  exact answers_decide _

theorem likeOutcome_of_append_escape {s v : String} {cs : List Char} {p : Pattern}
    (hv : v.toList = cs ++ ['\\']) (h : Reads cs p) : likeOutcome s v
      = if Matches (p ++ [.anyChar, .anything]) s.toList then none else some false := by
  rw [likeOutcome, hv, h.append_escape, List.dropLast_concat]
  simp only [readPattern_eq_some_iff.mpr h]

theorem likeOutcome_of_not_matches {s v : String} {cs : List Char} {p : Pattern}
    (hv : v.toList = cs ++ ['\\']) (h : Reads cs p)
    (hnot : ¬Matches (p ++ [.anything]) s.toList) : likeOutcome s v = some false := by
  rw [likeOutcome_of_append_escape hv h, if_neg]
  intro hmore
  obtain ⟨u, u', hs, hu, -⟩ := Matches.exists_of_append hmore
  have hany := hu.append (.anything u' .nil)
  rw [List.append_nil, ← hs] at hany
  exact hnot hany

/-- A server that orders texts by code points. -/
def codePointComparison : Comparison where
  accepts
    | .integer, o, v => o ≠ .like && (Text.scanInt v).any fun n ↦ keyText (Int32.ofInt n) = v
    | .text, _, _ => true
    | .enum values, o, v => o ≠ .like && values.contains v
  holds
    | _, .eq, s, v => some (decide (s = v))
    | _, .neq, s, v => some (decide (s ≠ v))
    | type, .lt, s, v => some (precedes type s v)
    | type, .le, s, v => some (!precedes type v s)
    | _, .like, s, v => likeOutcome s v
  collation := inferInstance
  accepts_of_hasText := by
    intro type o v hv ho
    cases type with
    | integer =>
      obtain ⟨n, rfl⟩ := hv
      have hlike : o ≠ .like := fun h ↦ absurd (ho h) (by simp)
      have hscan : Text.scanInt (keyText n) = some n.toInt := Text.scanInt_toString _
      simp [hlike, hscan]
    | text => rfl
    | enum values =>
      have hlike : o ≠ .like := fun h ↦ absurd (ho h) (by simp)
      have hmem : v ∈ values := hv
      simp [hlike, hmem]
  eq _ _ := answers_decide _
  neq _ _ := answers_decide _
  lt _ _ := answers_decide _
  le {s v} _ _ := by
    have hanswer := answers_decide (s ≤ v)
    have hle : decide (s ≤ v) = !precedes .text v s := by
      rw [precedes, ← decide_not, decide_eq_decide, not_lt]
    rwa [hle] at hanswer
  like _ h := answers_likeOutcome h
  like_reached _ hv h hmatch := (likeOutcome_of_append_escape hv h).trans (if_pos hmatch)
  like_unreached _ hv h hnot := likeOutcome_of_not_matches hv h hnot

end Sql
