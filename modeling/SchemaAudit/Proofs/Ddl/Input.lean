import SchemaAudit.Ddl.Input

/-!
# Reading lexemes of known tokens

What the readers that all declarations share return when the tokens in front of them are known.
Offsets only show in errors, so the tokens decide what is read.

* `Begins ts rest s`: the input `s` begins with lexemes of the tokens `ts`, behind which `rest` is
  left. `begins_cons` and `begins_append` take such an input apart.
* `columnList_begins`: a list of quoted names in parentheses is read as these names.
* `skipElement_of_separator`, `skipStatement_of_semicolon`: skipping stops at once where nothing
  is to be skipped.
-/

namespace SchemaAudit.Ddl

namespace Input

/-- The input begins with lexemes of the given tokens, behind which `rest` is left. -/
def Begins (ts : List Token) (rest s : Input) : Prop :=
  ∃ front : Input, front.map Lexeme.token = ts ∧ s = front ++ rest

theorem begins_nil {rest s : Input} : Begins [] rest s ↔ s = rest := by
  constructor
  · rintro ⟨front, hf, rfl⟩
    rw [List.map_eq_nil_iff.1 hf]
    rfl
  · rintro rfl
    exact ⟨[], rfl, rfl⟩

theorem begins_cons {t : Token} {ts : List Token} {rest s : Input} :
    Begins (t :: ts) rest s ↔ ∃ l after, s = l :: after ∧ l.token = t ∧ Begins ts rest after := by
  constructor
  · rintro ⟨front, hf, rfl⟩
    obtain ⟨l, front, rfl, ht, hf⟩ := List.map_eq_cons_iff.1 hf
    exact ⟨l, front ++ rest, rfl, ht, front, hf, rfl⟩
  · rintro ⟨l, after, rfl, ht, front, hf, rfl⟩
    exact ⟨l :: front, by rw [List.map_cons, ht, hf], rfl⟩

theorem begins_append {ts us : List Token} {rest s : Input} :
    Begins (ts ++ us) rest s ↔ ∃ middle, Begins ts middle s ∧ Begins us rest middle := by
  constructor
  · rintro ⟨front, hf, rfl⟩
    obtain ⟨first, second, rfl, h1, h2⟩ := List.map_eq_append_iff.1 hf
    exact ⟨second ++ rest, ⟨first, h1, by rw [List.append_assoc]⟩, second, h2, rfl⟩
  · rintro ⟨middle, ⟨first, h1, rfl⟩, second, h2, rfl⟩
    exact ⟨first ++ second, by rw [List.map_append, h1, h2], by rw [List.append_assoc]⟩

theorem begins_singleton {t : Token} {rest s : Input} :
    Begins [t] rest s ↔ ∃ l, s = l :: rest ∧ l.token = t := by
  rw [begins_cons]
  constructor
  · rintro ⟨l, after, rfl, ht, h⟩
    exact ⟨l, by rw [begins_nil.1 h], ht⟩
  · rintro ⟨l, rfl, ht⟩
    exact ⟨l, rest, rfl, ht, begins_nil.2 rfl⟩

/-- An input begins with its own tokens. -/
theorem begins_of_map_token {ts us : List Token} {s : Input}
    (h : s.map Lexeme.token = ts ++ us) : ∃ rest, Begins ts rest s ∧ rest.map Lexeme.token = us := by
  obtain ⟨first, second, rfl, h1, h2⟩ := List.map_eq_append_iff.1 h
  exact ⟨second, ⟨first, h1, rfl⟩, h2⟩

theorem Begins.current {t : Token} {ts : List Token} {rest s : Input}
    (h : Begins (t :: ts) rest s) : s.current = t := by
  obtain ⟨l, after, rfl, ht, -⟩ := begins_cons.1 h
  exact ht

theorem eat_cons {t : Token} {l : Lexeme} (h : l.token = t) (rest : Input) :
    Input.eat t (l :: rest) = rest := by
  rw [Input.eat, if_pos h]

theorem eat_of_current {t : Token} {s : Input} (h : s.current ≠ t) : s.eat t = s := by
  cases s with
  | nil => rfl
  | cons l rest =>
    have hl : l.token ≠ t := h
    rw [Input.eat, if_neg hl]

theorem startsWith_of_current {t : Token} {s : Input} (h : s.current = t) :
    s.startsWith t = true := by simp [Input.startsWith, h]

theorem startsWith_of_ne {t : Token} {s : Input} (h : s.current ≠ t) : s.startsWith t = false := by
  simp [Input.startsWith, h]

end Input

open Input

/-! ### Names -/

theorem qualifiedTail_of_current (name : String) {s : Input} (h : s.current ≠ .dot) :
    qualifiedTail name s = (name, s) := by
  cases s with
  | nil => rfl
  | cons l rest =>
    have hl : l.token ≠ .dot := h
    rw [qualifiedTail.eq_def]
    simp only [if_neg hl]

/-- A name that is not qualified. -/
theorem qualifiedName?_one {name : String} {l : Lexeme} (hl : l.token.name? = some name)
    {rest : Input} (h : rest.current ≠ .dot) : qualifiedName? (l :: rest) = some (name, rest) := by
  simp [qualifiedName?, hl, qualifiedTail_of_current name h]

theorem qualifiedName?_quoted {name : String} {l : Lexeme} (hl : l.token = .quoted name)
    {rest : Input} (h : rest.current ≠ .dot) : qualifiedName? (l :: rest) = some (name, rest) :=
  qualifiedName?_one (congrArg Token.name? hl) h

/-! ### What is skipped -/

/-- A comma or a closing parenthesis: what stands behind an element of a table. -/
def IsSeparator (t : Token) : Prop := t = .comma ∨ t = .rightParen

theorem skipElement_of_separator (table : String) {s : Input} (h : IsSeparator s.current) :
    skipElement table 0 s = .ok s := by
  cases s with
  | nil => rcases h with h | h <;> simp [Input.current] at h
  | cons l rest =>
    rcases h with h | h <;> rw [skipElement.eq_def] <;> simp only [Input.current] at h <;> simp [h]

theorem skipStatement_of_semicolon {l : Lexeme} (h : l.token = .semicolon) (rest : Input) :
    skipStatement (l :: rest) = rest := by
  rw [skipStatement, h]

/-- Without a semicolon all that is left belongs to the statement. -/
theorem current_skipStatement {s : Input} (h : Token.semicolon ∉ s.map Lexeme.token) :
    (skipStatement s).current = .finish := by
  fun_induction skipStatement s with
  | case1 => rfl
  | case2 l rest hl => exact absurd (List.mem_map.2 ⟨l, List.mem_cons_self, hl⟩) h
  | case3 l rest hl => exact hl
  | case4 l rest _ _ ih => exact ih fun hm => h (List.mem_cons_of_mem _ hm)

/-! ### Lists of columns -/

/-- Names in double quotes with commas between them. -/
def namesTokens (names : List String) : List Token :=
  [Token.comma].intercalate (names.map fun name => [Token.quoted name])

/-- Names in double quotes with commas between them, in parentheses. -/
def listTokens (names : List String) : List Token :=
  Token.leftParen :: (namesTokens names ++ [.rightParen])

theorem columnNames_name {table name : String} {l : Lexeme} (hl : l.token.name? = some name)
    (rest : Input) : columnNames table 0 true (l :: rest)
      = (columnNames table 0 false rest).map fun (names, left) => (name :: names, left) := by
  rw [columnNames.eq_def]
  simp only
  split <;> simp_all [Token.name?]

theorem columnNames_comma (table : String) {l : Lexeme} (hl : l.token = .comma) (rest : Input) :
    columnNames table 0 false (l :: rest) = columnNames table 0 true rest := by
  rw [columnNames.eq_def]
  simp [hl]

theorem columnNames_close (table : String) (awaiting : Bool) {l : Lexeme}
    (hl : l.token = .rightParen) (rest : Input) :
    columnNames table 0 awaiting (l :: rest) = .ok ([], rest) := by
  rw [columnNames.eq_def]
  simp [hl]

/-- **Names between commas are read up to the closing parenthesis.** -/
theorem columnNames_begins (table : String) {names : List String} {rest s : Input}
    (h : Begins (namesTokens names ++ [.rightParen]) rest s) :
    columnNames table 0 true s = .ok (names, rest) := by
  induction names generalizing s with
  | nil =>
    obtain ⟨l, rfl, hl⟩ := begins_singleton.1 h
    exact columnNames_close table true hl rest
  | cons name names ih =>
    cases names with
    | nil =>
      obtain ⟨l, after, rfl, hl, h⟩ := begins_cons.1 h
      obtain ⟨l', rfl, hl'⟩ := begins_singleton.1 h
      rw [columnNames_name (congrArg Token.name? hl), columnNames_close table false hl']
      rfl
    | cons name' names =>
      have htokens : namesTokens (name :: name' :: names) ++ [.rightParen]
          = .quoted name :: .comma :: (namesTokens (name' :: names) ++ [.rightParen]) := by
        simp [namesTokens, List.intercalate_cons_cons]
      rw [htokens] at h
      obtain ⟨l, after, rfl, hl, h⟩ := begins_cons.1 h
      obtain ⟨l', after, rfl, hl', h⟩ := begins_cons.1 h
      rw [columnNames_name (congrArg Token.name? hl), columnNames_comma table hl', ih h]
      rfl

theorem columnList_begins (table : String) {names : List String} {rest s : Input}
    (h : Begins (listTokens names) rest s) : columnList table s = .ok (names, rest) := by
  obtain ⟨l, after, rfl, hl, h⟩ := begins_cons.1 h
  have hskip : skipListName (l :: after) = l :: after := by
    rw [skipListName.eq_def]
    simp [hl]
  rw [columnList, hskip]
  simp only [if_pos hl]
  exact columnNames_begins table h

end SchemaAudit.Ddl
