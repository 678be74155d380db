import SphinxBackend.Sql.Lexer

/-!
# Statements and their text

The statements a simple client sends: a whole table, the rows of a table meeting one condition,
whether there are any, and the insertion of one row. `parse` reads a statement off its text and
`Statement.render` writes it; `parse_render` says that reading inverts writing whenever the names
are identifiers. The two are used from opposite sides. A program that builds the text of
`Statement.render s` is known to have sent `s`, whatever it spliced together to get there.

Rendering doubles the quotes inside a literal, so the round trip holds for every literal.
-/

namespace Sql

/-! ## Syntax -/

inductive Operator where
  | lt | le | eq | neq | like
  deriving DecidableEq, Repr

def Operator.text : Operator → String
  | lt => "<"
  | le => "<="
  | eq => "="
  | neq => "<>"
  | like => "LIKE"

/-- The right-hand side of a comparison. -/
inductive Operand where
  /-- The value bound to placeholder `$n`. -/
  | param (n : ℕ)
  | number (n : Int)
  | literal (s : String)
  deriving DecidableEq, Repr

structure Condition where
  column : String
  operator : Operator
  operand : Operand
  deriving DecidableEq, Repr

inductive Statement where
  | selectAll (table : String)
  | selectWhere (table : String) (condition : Condition)
  | existsWhere (table : String) (condition : Condition)
  /-- One row: the columns, the placeholder for each, and the column to return. -/
  | insert (table : String) (columns : List String) (params : List ℕ) (returning : String)
  deriving DecidableEq, Repr

/-! ## Reading -/

/-- A whole text of digits. -/
def readNat (cs : List Char) : Option ℕ := if cs.all Char.isDigit then Text.scanDigits cs else none

/-- The number of a placeholder. -/
def readPlaceholder (s : String) : Option ℕ :=
  match s.toList with
  | '$' :: ds => readNat ds
  | _ => none

def parseOperand : List Token → Option Operand
  | [.word w] => (readPlaceholder w).map .param <|> (readNat w.toList).map fun n ↦ .number n
  | [.symbol '-', .word w] => (readNat w.toList).map fun n ↦ .number (-n)
  | [.literal s] => some (.literal s)
  | _ => none

def parseOperator : List Token → Option (Operator × List Token)
  | .symbol '=' :: ts => some (.eq, ts)
  | .symbol '<' :: .symbol '=' :: ts => some (.le, ts)
  | .symbol '<' :: .symbol '>' :: ts => some (.neq, ts)
  | .symbol '<' :: ts => some (.lt, ts)
  | .word "LIKE" :: ts => some (.like, ts)
  | _ => none

def parseCondition : List Token → Option Condition
  | .word c :: ts => do
    let (o, ts) ← parseOperator ts
    let v ← parseOperand ts
    return ⟨c, o, v⟩
  | _ => none

/-- Words separated by commas, up to the closing parenthesis. -/
def parseWords : List Token → Option (List String × List Token)
  | .word w :: .symbol ')' :: ts => some ([w], ts)
  | .word w :: .symbol ',' :: ts => (parseWords ts).map fun p ↦ (w :: p.1, p.2)
  | _ => none

def parseInsert (table : String) (ts : List Token) : Option Statement := do
  let (columns, ts) ← parseWords ts
  match ts with
  | .word "VALUES" :: .symbol '(' :: ts =>
    let (ids, ts) ← parseWords ts
    let params ← ids.mapM readPlaceholder
    match ts with
    | [.word "RETURNING", .word key] => return .insert table columns params key
    | _ => none
  | _ => none

def parseTokens : List Token → Option Statement
  | [.word "SELECT", .symbol '*', .word "FROM", .word t] => some (.selectAll t)
  | .word "SELECT" :: .symbol '*' :: .word "FROM" :: .word t :: .word "WHERE" :: ts =>
    (parseCondition ts).map (.selectWhere t)
  | .word "SELECT" :: .word "EXISTS" :: .symbol '(' :: .word "SELECT" :: .word "1" ::
      .word "FROM" :: .word t :: .word "WHERE" :: ts =>
    if ts.getLast? = some (.symbol ')') then (parseCondition ts.dropLast).map (.existsWhere t)
    else none
  | .word "INSERT" :: .word "INTO" :: .word t :: .symbol '(' :: ts => parseInsert t ts
  | _ => none

def parse (s : String) : Option Statement := (lex s).bind parseTokens

/-! ## Writing -/

def placeholder (n : ℕ) : String := "$" ++ toString n

def Operand.render : Operand → String
  | param n => placeholder n
  | number n => toString n
  | literal s => "'" ++ String.ofList (quote s.toList) ++ "'"

def Condition.render (c : Condition) : String :=
  c.column ++ " " ++ c.operator.text ++ " " ++ c.operand.render

def Statement.render : Statement → String
  | selectAll t => "SELECT * FROM " ++ t
  | selectWhere t c => "SELECT * FROM " ++ t ++ " WHERE " ++ c.render
  | existsWhere t c => "SELECT EXISTS(SELECT 1 FROM " ++ t ++ " WHERE " ++ c.render ++ ")"
  | insert t columns params key =>
    "INSERT INTO " ++ t ++ " (" ++ ",".intercalate columns ++ ") VALUES (" ++
      ",".intercalate (params.map placeholder) ++ ") RETURNING " ++ key

theorem Operand.render_number (n : Int) : (number n).render = toString n := rfl

theorem Condition.render_eq (c : Condition) :
    c.render = c.column ++ " " ++ c.operator.text ++ " " ++ c.operand.render := rfl

theorem Statement.render_selectAll (t : String) :
    (selectAll t).render = "SELECT * FROM " ++ t := rfl

theorem Statement.render_selectWhere (t : String) (c : Condition) :
    (selectWhere t c).render = "SELECT * FROM " ++ t ++ " WHERE " ++ c.render := rfl

theorem Statement.render_existsWhere (t : String) (c : Condition) :
    (existsWhere t c).render
      = "SELECT EXISTS(SELECT 1 FROM " ++ t ++ " WHERE " ++ c.render ++ ")" := rfl

theorem Statement.render_insert (t : String) (columns : List String) (params : List ℕ)
    (key : String) : (insert t columns params key).render
      = "INSERT INTO " ++ t ++ " (" ++ ",".intercalate columns ++ ") VALUES (" ++
        ",".intercalate (params.map placeholder) ++ ") RETURNING " ++ key := rfl

example : parse "INSERT INTO t (a,b) VALUES ($1,$2) RETURNING id" =
    some (.insert "t" ["a", "b"] [1, 2] "id") := by decide

example : parse "SELECT EXISTS(SELECT 1 FROM t WHERE id = -7)" =
    some (.existsWhere "t" ⟨"id", .eq, .number (-7)⟩) := by decide

/-! ## The tokens of a rendered text

`Lexes ts s ts'` says that reading `s` from a blank adds tokens to `ts` to make `ts'`, counting
the token in progress at the end as finished. A separator finishes it. -/

/-- A name the lexer reads as one word. -/
def IsIdentifier (s : String) : Prop := s.toList ≠ [] ∧ ∀ c ∈ s.toList, isWordChar c

-- The list is gone through, and not the type of characters.
instance (s : String) : Decidable (IsIdentifier s) :=
  @instDecidableAnd _ _ inferInstance (List.decidableBAll _ _)

/-- All tokens of a state, the one in progress included, last one first. -/
def closed : LexState → Option (List Token)
  | (ts, .blank) => some ts
  | (ts, .word rev) => some (.word (String.ofList rev.reverse) :: ts)
  | (_, .quoted _) => none
  | (ts, .quoteSeen rev) => some (.literal (String.ofList rev.reverse) :: ts)

def Lexes (ts : List Token) (s : String) (ts' : List Token) : Prop :=
  closed (feed (ts, .blank) s.toList) = some ts'

theorem finish_eq_of_closed {st : LexState} {ts : List Token} (h : closed st = some ts) :
    finish st = some ts.reverse := by
  obtain ⟨us, m⟩ := st
  cases m <;> simp_all [closed, finish]

theorem Lexes.lex {s : String} {ts : List Token} (h : Lexes [] s ts) : lex s = some ts.reverse :=
  finish_eq_of_closed h

theorem step_of_closed {st : LexState} {ts : List Token} (h : closed st = some ts) {c : Char}
    (hw : isWordChar c = false) (hq : c ≠ '\'') : step st c = startToken ts c := by
  obtain ⟨us, m⟩ := st
  cases m <;> simp_all [closed, step]

/-- A fixed text between two variable ones: it ends the token before it and leaves a blank. -/
def Separates (sep : String) (push : List Token) : Prop :=
  ∀ st ts, closed st = some ts → feed st sep.toList = (push.reverse ++ ts, .blank)

/-- It is enough to look at the first character and then compute. -/
theorem separates_of_eq {sep : String} {push : List Token} {c : Char} {cs : List Char}
    (hsep : sep.toList = c :: cs) (hw : isWordChar c = false) (hq : c ≠ '\'')
    (h : ∀ ts, feed (startToken ts c) cs = (push.reverse ++ ts, .blank)) :
    Separates sep push := by
  intro st ts hst
  rw [hsep, feed, List.foldl_cons, step_of_closed hst hw hq, ← feed, h]

theorem Lexes.append {ts ts₁ ts₂ : List Token} {s sep u : String} {push : List Token}
    (h : Lexes ts s ts₁) (hsep : Separates sep push) (h' : Lexes (push.reverse ++ ts₁) u ts₂) :
    Lexes ts (s ++ sep ++ u) ts₂ := by
  rw [Lexes, String.toList_append, String.toList_append, feed_append, feed_append, hsep _ _ h]
  exact h'

theorem Lexes.close {ts ts₁ : List Token} {s sep : String} {push : List Token}
    (h : Lexes ts s ts₁) (hsep : Separates sep push) :
    Lexes ts (s ++ sep) (push.reverse ++ ts₁) := by
  rw [Lexes, String.toList_append, feed_append, hsep _ _ h]
  rfl

theorem Lexes.prepend {ts ts₁ ts₂ : List Token} {pre u : String}
    (hpre : feed (ts, .blank) pre.toList = (ts₁, .blank)) (h : Lexes ts₁ u ts₂) :
    Lexes ts (pre ++ u) ts₂ := by
  rw [Lexes, String.toList_append, feed_append, hpre]
  exact h

theorem lexes_identifier (ts : List Token) {s : String} (h : IsIdentifier s) :
    Lexes ts s (.word s :: ts) := by
  rw [Lexes, feed_word_of_blank ts h.1 h.2, closed, List.reverse_reverse, String.ofList_toList]

theorem separates_space : Separates " " [] := separates_of_eq rfl rfl (by decide) fun _ ↦ rfl

theorem separates_comma : Separates "," [.symbol ','] :=
  separates_of_eq rfl rfl (by decide) fun _ ↦ rfl

/-- The tokens of a comma-separated list. -/
def commaTokens : List String → List Token
  | [] => []
  | [w] => [.word w]
  | w :: ws => .word w :: .symbol ',' :: commaTokens ws

theorem lexes_intercalate (ts : List Token) {ws : List String} (hne : ws ≠ [])
    (h : ∀ w ∈ ws, IsIdentifier w) :
    Lexes ts (",".intercalate ws) ((commaTokens ws).reverse ++ ts) := by
  induction ws generalizing ts with
  | nil => exact absurd rfl hne
  | cons w ws ih =>
    have hw := lexes_identifier ts (h w List.mem_cons_self)
    cases ws with
    | nil => simpa [commaTokens] using hw
    | cons v vs =>
      have hrest := ih (.symbol ',' :: .word w :: ts) (by simp)
        fun x hx ↦ h x (List.mem_cons_of_mem w hx)
      rw [String.intercalate_cons_cons]
      simpa [commaTokens] using hw.append separates_comma hrest

/-! ## Reading inverts writing -/

theorem isIdentifier_of_digits {ds : List Char} (hne : ds ≠ []) (h : ∀ c ∈ ds, c.isDigit) :
    IsIdentifier (String.ofList ds) := by
  refine ⟨by simpa using hne, fun c hc ↦ ?_⟩
  have hd : c.isDigit := h c (by simpa using hc)
  simp [isWordChar, Char.isAlphanum, hd]

theorem isIdentifier_placeholder (n : ℕ) : IsIdentifier (placeholder n) := by
  refine ⟨by simp [placeholder], fun c hc ↦ ?_⟩
  rw [placeholder, String.toList_append, List.mem_append] at hc
  rcases hc with hc | hc
  · rw [show c = '$' by simpa using hc]; rfl
  · have hd : c.isDigit := Text.isDigit_of_mem_toDigits (n := n) (by simpa using hc)
    simp [isWordChar, Char.isAlphanum, hd]

theorem readNat_toDigits (n : ℕ) : readNat (Nat.toDigits 10 n) = some n := by
  rw [readNat, if_pos (List.all_eq_true.mpr fun c hc ↦ Text.isDigit_of_mem_toDigits hc),
    Text.scanDigits_toDigits]

theorem readPlaceholder_placeholder (n : ℕ) : readPlaceholder (placeholder n) = some n := by
  have h : (placeholder n).toList = '$' :: Nat.toDigits 10 n := by simp [placeholder]
  rw [readPlaceholder, h]
  exact readNat_toDigits n

theorem readPlaceholder_digits {ds : List Char} (h : ∀ c ∈ ds, c.isDigit) :
    readPlaceholder (String.ofList ds) = none := by
  rw [readPlaceholder, String.toList_ofList]
  split
  · exact absurd (h '$' List.mem_cons_self) (by decide)
  · rfl

def Operand.tokens : Operand → List Token
  | param n => [.word (placeholder n)]
  | number n =>
    if 0 ≤ n then [.word (String.ofList (Nat.toDigits 10 n.toNat))]
    else [.symbol '-', .word (String.ofList (Nat.toDigits 10 (-n).toNat))]
  | literal s => [.literal s]

theorem Operand.lexes (ts : List Token) (o : Operand) :
    Lexes ts o.render (o.tokens.reverse ++ ts) := by
  cases o with
  | param n => exact lexes_identifier ts (isIdentifier_placeholder n)
  | number n =>
    rw [Operand.render, Operand.tokens, Lexes, Text.toList_toString]
    have hdigits (m : ℕ) (us : List Token) :
        Lexes us (String.ofList (Nat.toDigits 10 m))
          (.word (String.ofList (Nat.toDigits 10 m)) :: us) :=
      lexes_identifier us (isIdentifier_of_digits Nat.toDigits_ne_nil
        fun c hc ↦ Text.isDigit_of_mem_toDigits hc)
    by_cases hn : 0 ≤ n
    · rw [if_pos hn, if_pos hn]
      simpa [Lexes] using hdigits n.toNat ts
    -- a sign is a token of its own, and the digits follow from a blank
    · rw [if_neg hn, if_neg hn]
      have hminus : feed (ts, .blank) ['-'] = (.symbol '-' :: ts, .blank) := rfl
      rw [← List.singleton_append, feed_append, hminus]
      simpa [Lexes] using hdigits (-n).toNat (.symbol '-' :: ts)
  | literal s =>
    have hopen : feed (ts, .blank) "'".toList = (ts, .quoted []) := rfl
    have hclose : feed (ts, .quoted s.toList.reverse) "'".toList
        = (ts, .quoteSeen s.toList.reverse) := rfl
    rw [Operand.render, Lexes, String.toList_append, String.toList_append, feed_append,
      feed_append, hopen, String.toList_ofList, feed_quoted, List.append_nil, hclose, closed,
      List.reverse_reverse, String.ofList_toList]
    rfl

theorem parseOperand_tokens (o : Operand) : parseOperand o.tokens = some o := by
  cases o with
  | param n =>
    rw [Operand.tokens, parseOperand, readPlaceholder_placeholder]
    rfl
  | number n =>
    rw [Operand.tokens]
    by_cases hn : 0 ≤ n
    · rw [if_pos hn, parseOperand,
        readPlaceholder_digits fun c hc ↦ Text.isDigit_of_mem_toDigits hc, String.toList_ofList,
        readNat_toDigits]
      simp [Int.toNat_of_nonneg hn]
    · rw [if_neg hn, parseOperand, String.toList_ofList, readNat_toDigits]
      simp [Int.toNat_of_nonneg (show 0 ≤ -n by omega)]
  | literal s => rfl

def Operator.tokens : Operator → List Token
  | lt => [.symbol '<']
  | le => [.symbol '<', .symbol '=']
  | eq => [.symbol '=']
  | neq => [.symbol '<', .symbol '>']
  | like => [.word "LIKE"]

def Condition.tokens (c : Condition) : List Token :=
  .word c.column :: (c.operator.tokens ++ c.operand.tokens)

theorem Condition.lexes (ts : List Token) {c : Condition} (h : IsIdentifier c.column) :
    Lexes ts c.render (c.tokens.reverse ++ ts) := by
  have hop (us : List Token) : Lexes us c.operator.text (c.operator.tokens.reverse ++ us) := by
    cases c.operator <;> rfl
  have hcol := ((lexes_identifier ts h).append separates_space (hop _)).append separates_space
    (Operand.lexes _ c.operand)
  simpa [Condition.render, Condition.tokens] using hcol

/-- No operand begins with a symbol that would make the operator a longer one. -/
theorem parseOperator_tokens (o : Operator) (v : Operand) :
    parseOperator (o.tokens ++ v.tokens) = some (o, v.tokens) := by
  cases o <;> cases v with
  | number n => rw [Operand.tokens]; split <;> rfl
  | _ => rfl

theorem parseCondition_tokens (c : Condition) : parseCondition c.tokens = some c := by
  rw [Condition.tokens, parseCondition, parseOperator_tokens]
  simp [parseOperand_tokens]

theorem parseWords_commaTokens {ws : List String} (hne : ws ≠ []) (ts : List Token) :
    parseWords (commaTokens ws ++ .symbol ')' :: ts) = some (ws, ts) := by
  induction ws with
  | nil => exact absurd rfl hne
  | cons w ws ih =>
    cases ws with
    | nil => rfl
    | cons v vs =>
      rw [commaTokens, List.cons_append, List.cons_append, parseWords, ih (by simp)]
      · rfl
      · simp

/-- Statements whose names are identifiers, with at least one column to insert. -/
def Statement.WellFormed : Statement → Prop
  | selectAll t => IsIdentifier t
  | selectWhere t c => IsIdentifier t ∧ IsIdentifier c.column
  | existsWhere t c => IsIdentifier t ∧ IsIdentifier c.column
  | insert t columns params key =>
    IsIdentifier t ∧ (∀ c ∈ columns, IsIdentifier c) ∧ IsIdentifier key ∧ columns ≠ [] ∧
      params ≠ []

theorem Statement.wellFormed_selectWhere_iff {t : String} {c : Condition} :
    (selectWhere t c).WellFormed ↔ IsIdentifier t ∧ IsIdentifier c.column := Iff.rfl

theorem Statement.wellFormed_insert_iff {t : String} {columns : List String} {params : List ℕ}
    {key : String} : (insert t columns params key).WellFormed ↔
      IsIdentifier t ∧ (∀ c ∈ columns, IsIdentifier c) ∧ IsIdentifier key ∧ columns ≠ [] ∧
        params ≠ [] := Iff.rfl

def Statement.tokens : Statement → List Token
  | selectAll t => [.word "SELECT", .symbol '*', .word "FROM", .word t]
  | selectWhere t c =>
    .word "SELECT" :: .symbol '*' :: .word "FROM" :: .word t :: .word "WHERE" :: c.tokens
  | existsWhere t c =>
    .word "SELECT" :: .word "EXISTS" :: .symbol '(' :: .word "SELECT" :: .word "1" ::
      .word "FROM" :: .word t :: .word "WHERE" :: (c.tokens ++ [.symbol ')'])
  | insert t columns params key =>
    .word "INSERT" :: .word "INTO" :: .word t :: .symbol '(' ::
      (commaTokens columns ++ .symbol ')' :: .word "VALUES" :: .symbol '(' ::
        (commaTokens (params.map placeholder) ++
          [.symbol ')', .word "RETURNING", .word key]))

theorem separates_where : Separates " WHERE " [.word "WHERE"] :=
  separates_of_eq rfl rfl (by decide) fun _ ↦ rfl

private theorem separates_open : Separates " (" [.symbol '('] :=
  separates_of_eq rfl rfl (by decide) fun _ ↦ rfl

private theorem separates_values :
    Separates ") VALUES (" [.symbol ')', .word "VALUES", .symbol '('] :=
  separates_of_eq rfl rfl (by decide) fun _ ↦ rfl

private theorem separates_returning :
    Separates ") RETURNING " [.symbol ')', .word "RETURNING"] :=
  separates_of_eq rfl rfl (by decide) fun _ ↦ rfl

private theorem separates_close : Separates ")" [.symbol ')'] :=
  separates_of_eq rfl rfl (by decide) fun _ ↦ rfl

theorem feed_select : feed ([], .blank) "SELECT * FROM ".toList
    = ([.word "FROM", .symbol '*', .word "SELECT"], .blank) := by decide

private theorem feed_exists : feed ([], .blank) "SELECT EXISTS(SELECT 1 FROM ".toList
    = ([.word "FROM", .word "1", .word "SELECT", .symbol '(', .word "EXISTS", .word "SELECT"],
      .blank) := by decide

private theorem feed_insert : feed ([], .blank) "INSERT INTO ".toList
    = ([.word "INTO", .word "INSERT"], .blank) := by decide

theorem Statement.lex_render {s : Statement} (h : s.WellFormed) : lex s.render = some s.tokens := by
  cases s with
  | selectAll t =>
    have ht := Lexes.prepend feed_select (lexes_identifier _ (show IsIdentifier t from h))
    rw [render_selectAll, ht.lex]
    rfl
  | selectWhere t c =>
    have ht := Lexes.prepend feed_select (lexes_identifier _ h.1)
    have hc := ht.append separates_where (Condition.lexes _ h.2)
    rw [render_selectWhere, hc.lex]
    simp [Statement.tokens]
  | existsWhere t c =>
    have ht := Lexes.prepend feed_exists (lexes_identifier _ h.1)
    have hc := ht.append separates_where (Condition.lexes _ h.2)
    rw [render_existsWhere, (hc.close separates_close).lex]
    simp [Statement.tokens]
  | insert t columns params key =>
    obtain ⟨ht, hcolumns, hkey, hne, hne'⟩ := h
    have hids : ∀ w ∈ params.map placeholder, IsIdentifier w := fun w hw ↦ by
      obtain ⟨n, -, rfl⟩ := List.mem_map.mp hw
      exact isIdentifier_placeholder n
    -- table, column list, placeholder list and key in turn, each after what separates it
    have h₁ := Lexes.prepend feed_insert (lexes_identifier _ ht)
    have h₂ := h₁.append separates_open (lexes_intercalate _ hne hcolumns)
    have h₃ := h₂.append separates_values (lexes_intercalate _ (by simpa using hne') hids)
    have h₄ := h₃.append separates_returning (lexes_identifier _ hkey)
    rw [render_insert, h₄.lex]
    simp [Statement.tokens]

theorem Statement.parseTokens_tokens {s : Statement} (h : s.WellFormed) :
    parseTokens s.tokens = some s := by
  cases s with
  | selectAll t => rfl
  | selectWhere t c =>
    simp [Statement.tokens, parseTokens, parseCondition_tokens]
  | existsWhere t c =>
    simp [Statement.tokens, parseTokens, parseCondition_tokens]
  | insert t columns params key =>
    obtain ⟨-, -, -, hne, hne'⟩ := h
    have hparams : (params.map placeholder).mapM readPlaceholder = some params := by
      clear hne'
      induction params with
      | nil => rfl
      | cons n ns ih => simp [List.mapM_cons, readPlaceholder_placeholder, ih]
    have hne_ids : params.map placeholder ≠ [] := by simpa using hne'
    simp [Statement.tokens, parseTokens, parseInsert, parseWords_commaTokens hne,
      parseWords_commaTokens hne_ids, hparams]

/-- **Reading inverts writing.** -/
theorem parse_render {s : Statement} (h : s.WellFormed) : parse s.render = some s := by
  rw [parse, Statement.lex_render h, Option.bind_some, Statement.parseTokens_tokens h]

end Sql
