import SphinxBackend.Sql.Statement

/-!
# The placeholders of a text

A placeholder is a word of the text, so it is found by lexing alone. In the text of a statement
there are exactly those of the statement, in order, as long as no name looks like one.
-/

namespace Sql

def Token.placeholder : Token → Option ℕ
  | .word w => readPlaceholder w
  | _ => none

/-- The numbers of the placeholders in a text, in order. -/
def placeholders (s : String) : List ℕ := ((lex s).getD []).filterMap Token.placeholder

def Operand.params : Operand → List ℕ
  | param n => [n]
  | _ => []

namespace Statement

def params : Statement → List ℕ
  | selectAll _ => []
  | selectWhere _ c => c.operand.params
  | existsWhere _ c => c.operand.params
  | insert _ _ params _ => params

def names : Statement → List String
  | selectAll t => [t]
  | selectWhere t c => [t, c.column]
  | existsWhere t c => [t, c.column]
  | insert t columns _ key => t :: key :: columns

end Statement

/-! ## Token by token -/

theorem filterMap_commaTokens (ws : List String) :
    (commaTokens ws).filterMap Token.placeholder = ws.filterMap readPlaceholder := by
  induction ws with
  | nil => rfl
  | cons w ws ih =>
    cases ws with
    | nil => rfl
    | cons v vs =>
      change (Token.word w :: .symbol ',' :: commaTokens (v :: vs)).filterMap Token.placeholder = _
      rw [List.filterMap_cons, List.filterMap_cons, ih, List.filterMap_cons]
      rfl

theorem filterMap_operand (o : Operand) : o.tokens.filterMap Token.placeholder = o.params := by
  cases o with
  | param n =>
    rw [Operand.tokens, List.filterMap_cons, Token.placeholder, readPlaceholder_placeholder]
    rfl
  | number n =>
    have hdigits (m : ℕ) : readPlaceholder (String.ofList (Nat.toDigits 10 m)) = none :=
      readPlaceholder_digits fun c hc ↦ Text.isDigit_of_mem_toDigits hc
    rw [Operand.tokens]
    split <;> simp [Token.placeholder, hdigits, Operand.params]
  | literal s => rfl

theorem filterMap_condition {c : Condition} (h : readPlaceholder c.column = none) :
    c.tokens.filterMap Token.placeholder = c.operand.params := by
  have hop : c.operator.tokens.filterMap Token.placeholder = [] := by
    cases c.operator <;> rfl
  have hcolumn : (Token.word c.column).placeholder = none := h
  rw [Condition.tokens, List.filterMap_cons_none hcolumn, List.filterMap_append, hop,
    List.nil_append, filterMap_operand]

theorem filterMap_placeholders (params : List ℕ) :
    (params.map placeholder).filterMap readPlaceholder = params := by
  rw [List.filterMap_map]
  have h : readPlaceholder ∘ placeholder = some := funext readPlaceholder_placeholder
  rw [h, List.filterMap_some]

private theorem filterMap_keyword {w : String} {ts : List Token}
    (h : (Token.word w).placeholder = none := by decide) :
    (Token.word w :: ts).filterMap Token.placeholder = ts.filterMap Token.placeholder :=
  List.filterMap_cons_none h

private theorem filterMap_symbol {c : Char} {ts : List Token} :
    (Token.symbol c :: ts).filterMap Token.placeholder = ts.filterMap Token.placeholder :=
  List.filterMap_cons_none rfl

/-- **The placeholders of a rendered statement are its own.** -/
theorem placeholders_render {s : Statement} (h : s.WellFormed)
    (hnames : ∀ w ∈ s.names, readPlaceholder w = none) : placeholders s.render = s.params := by
  rw [placeholders, Statement.lex_render h, Option.getD_some]
  have hname {w : String} (hw : w ∈ s.names) (ts : List Token) :
      (Token.word w :: ts).filterMap Token.placeholder = ts.filterMap Token.placeholder :=
    List.filterMap_cons_none (hnames w hw)
  cases s with
  | selectAll t =>
    rw [Statement.tokens, filterMap_keyword, filterMap_symbol, filterMap_keyword,
      hname List.mem_cons_self]
    rfl
  | selectWhere t c =>
    rw [Statement.tokens, filterMap_keyword, filterMap_symbol, filterMap_keyword,
      hname List.mem_cons_self, filterMap_keyword,
      filterMap_condition (hnames _ (by simp [Statement.names]))]
    rfl
  | existsWhere t c =>
    rw [Statement.tokens, filterMap_keyword, filterMap_keyword, filterMap_symbol,
      filterMap_keyword, filterMap_keyword, filterMap_keyword, hname List.mem_cons_self,
      filterMap_keyword, List.filterMap_append,
      filterMap_condition (hnames _ (by simp [Statement.names]))]
    exact List.append_nil _
  | insert t columns params key =>
    -- column names give nothing, so what remains is the list after VALUES
    have hcolumns : columns.filterMap readPlaceholder = [] :=
      List.filterMap_eq_nil_iff.mpr fun c hc ↦ hnames c (by simp [Statement.names, hc])
    rw [Statement.tokens, filterMap_keyword, filterMap_keyword, hname List.mem_cons_self,
      filterMap_symbol, List.filterMap_append, filterMap_symbol, filterMap_keyword,
      filterMap_symbol, List.filterMap_append, filterMap_symbol, filterMap_keyword,
      hname (by simp [Statement.names]), filterMap_commaTokens, filterMap_commaTokens, hcolumns,
      filterMap_placeholders]
    exact List.append_nil params

end Sql
