import SchemaAudit.Proofs.Ddl.AlikeColumn
import SchemaAudit.Proofs.Ddl.Script

/-!
# Statements that part behind a semicolon

Tables and statements are read alike from inputs that are alike, and so is a whole script: what is
declared behind a statement starts from the schema that the statement leaves.

* `Alike.element`, `Alike.elements`: the body of a table.
* `Alike.createStatement`, `Alike.alterStatement`: one statement. It may take the semicolon.
* `Alike.statements`: by induction on the statements that are left, what follows is read from the
  schema that the first script ends with.
* `statements_append`: this for a list of lexemes with anything behind it.
-/

namespace SchemaAudit.Ddl

/-! ### Single steps of the readers -/

theorem skipClause_stop {table : String} {s : Input}
    (h : s.current ∈ [Token.comma, .semicolon, .finish]) : skipClause table s = .ok s := by
  cases s with
  | nil => rw [skipClause]
  | cons l rest =>
    have hl : l.token ∈ [Token.comma, .semicolon, .finish] := h
    simp only [List.mem_cons, List.not_mem_nil, or_false] at hl
    rw [skipClause.eq_def]
    rcases hl with hl | hl | hl <;> simp only [hl]

theorem skipClause_open {table : String} {l : Lexeme} (hl : l.token = .leftParen) (rest : Input) :
    skipClause table (l :: rest) = (closeGroup table 0 rest).bind (skipClause table) := by
  rw [skipClause.eq_def]
  simp only [hl]
  split <;> rename_i hclose <;> rw [hclose] <;> rfl

theorem skipClause_other {table : String} {l : Lexeme}
    (hl : l.token ∉ [Token.comma, .semicolon, .finish, .leftParen]) (rest : Input) :
    skipClause table (l :: rest) = skipClause table rest := by
  rw [skipClause.eq_def]
  simp only
  split <;> simp_all

theorem additions_of_ok {table : String} {l l₁ : Lexeme} {rest after left : Input}
    {changes : List Change} (hl : l.token = .keyword .add)
    (ha : addition table (skipConstraintName rest) = .ok (changes, after))
    (hc : skipClause table after = .ok (l₁ :: left)) :
    additions table (l :: rest) =
      if l₁.token = .comma then
        (additions table left).map fun (more, left') => (changes ++ more, left')
      else .ok (changes, l₁ :: left) := by
  rw [additions.eq_def]
  simp only [hl, if_pos]
  split
  · simp_all
  · rename_i ha'
    obtain ⟨rfl, rfl⟩ : _ = changes ∧ _ = after := by simpa [ha] using ha'.symm
    split
    · simp_all
    · simp_all
    · rename_i hc'
      obtain ⟨rfl, rfl⟩ : _ = l₁ ∧ _ = left := by simpa [hc] using hc'.symm
      rfl

theorem additions_of_current (table : String) {s : Input} (h : s.current ≠ .keyword .add) :
    additions table s = .ok ([], s) := by
  cases s with
  | nil => rw [additions]
  | cons l rest =>
    have hl : l.token ≠ .keyword .add := h
    rw [additions.eq_def]
    simp only [if_neg hl]

namespace Alike

variable {p : Token → Prop} {e e' s s' : Input}

/-! ### Elements of a table -/

theorem foreignKey (h : Alike p e e' s s') (table : String) :
    Echoes (Leaves (Alike p e e')) (Ddl.foreignKey table s) (Ddl.foreignKey table s') := by
  have hkey : Alike p e e' (s.eat (.keyword .key)) (s'.eat (.keyword .key)) := h.eat (by decide)
  unfold Ddl.foreignKey
  rw [h.startsWith_eq]
  split
  · cases hcolumns : Ddl.columnList table (s.eat (.keyword .key)) with
    | error err => exact .error err
    | ok a =>
      obtain ⟨a', ha', hvalue, hrest⟩ := hkey.columnList table a hcolumns
      simp only [ha', ← hvalue, hrest.startsWith_eq]
      split
      · have htarget := (hrest.eat (t := .keyword .references) (by decide)).reference table
        exact htarget.mapRest fun _ _ _ hs => ⟨rfl, hs.skipActions⟩
      · exact .error _
  · exact .error _

theorem skipConstraintNames (h : Alike p e e' s s') :
    Alike p e e' (Ddl.skipConstraintNames s) (Ddl.skipConstraintNames s') := by
  fun_induction Ddl.skipConstraintNames s generalizing s' with
  | case1 => cases h
  | case2 l rest hl ih =>
    obtain ⟨l', rest', rfl, hl', hs⟩ := h.behind (by simp [hl])
    rw [Ddl.skipConstraintNames, if_pos (hl'.trans hl)]
    exact ih hs.eatName
  | case3 l rest hl =>
    have hcurrent := h.current_eq
    cases s' with
    | nil => cases h
    | cons l' rest' =>
      have hl' : l'.token = l.token := hcurrent
      rw [skipConstraintNames_of_ne (hl' ▸ hl)]
      exact h

/-- The lexeme in front has the same token. -/
theorem element {l l' : Lexeme} (hl : l'.token = l.token) (h : Alike p e e' s s')
    (he : e.current = .finish) (dialect : Dialect) (table : String) :
    Echoes (Leaves (Alike p e e')) (Ddl.element dialect table l s)
      (Ddl.element dialect table l' s') := by
  have hkey : Alike p e e' (s.eat (.keyword .key)) (s'.eat (.keyword .key)) := h.eat (by decide)
  have hother : Echoes (Leaves (Alike p e e'))
      ((Ddl.skipElement table 0 s).map fun left => (Element.other, left))
      ((Ddl.skipElement table 0 s').map fun left => (Element.other, left)) :=
    (h.skipElement table 0).leaves _
  unfold Ddl.element
  simp only [hl]
  split
  · cases hcolumns : Ddl.columnList table (s.eat (.keyword .key)) with
    | error err => exact .error err
    | ok a =>
      obtain ⟨a', ha', hvalue, hrest⟩ := hkey.columnList table a hcolumns
      simp only [ha', ← hvalue]
      exact (hrest.skipElement table 0).leaves _
  · cases hcolumns : Ddl.columnList table s with
    | error err => exact .error err
    | ok a =>
      obtain ⟨a', ha', hvalue, hrest⟩ := h.columnList table a hcolumns
      simp only [ha', ← hvalue]
      exact (hrest.skipElement table 0).leaves _
  · cases hforeign : Ddl.foreignKey table s with
    | error err => exact .error err
    | ok a =>
      obtain ⟨a', ha', hvalue, hrest⟩ := h.foreignKey table a hforeign
      simp only [ha', ← hvalue]
      exact (hrest.skipElement table 0).leaves _
  · exact hother
  · exact hother
  · exact hother
  · split
    · exact hother
    · split
      · exact (h.column he dialect table _).mapRest fun _ _ _ hs => ⟨rfl, hs⟩
      · exact .error _

/-- The first element of a list is read alike, with the separator behind it. -/
theorem firstElement (h : Alike p e e' s s') (he : e.current = .finish) {dialect : Dialect}
    {table : String} {l l₁ : Lexeme} {after rest : Input} {el : Element}
    (hs : Ddl.skipConstraintNames s = l :: after)
    (hl : l.token ∉ [Token.semicolon, .finish, .rightParen])
    (hel : Ddl.element dialect table l after = .ok (el, l₁ :: rest)) (hl₁ : IsSeparator l₁.token) :
    ∃ rest', Alike p e e' rest rest' ∧ Ddl.elements dialect table s' =
      if l₁.token = .comma then
        (Ddl.elements dialect table rest').map fun (es, left) => (el :: es, left)
      else .ok ([el], rest') := by
  have hskip := h.skipConstraintNames
  rw [hs] at hskip
  obtain ⟨l', after', hs', hl', hafter⟩ := hskip.behind fun h => hl (by simp [h])
  obtain ⟨⟨el', left⟩, hel', hvalue, hleft⟩ := element hl' hafter he dialect table _ hel
  obtain rfl : el = el' := hvalue
  obtain ⟨l₁', rest', rfl, hl₁', hrest⟩ := hleft.behind (by rcases hl₁ with h | h <;> simp [h])
  refine ⟨rest', hrest, ?_⟩
  rw [elements_of_ok hs' (hl' ▸ hl) hel', hl₁']
  rcases hl₁ with h | h <;> simp only [h] <;> rfl

theorem elements (h : Alike p e e' s s') (he : e.current = .finish) (dialect : Dialect)
    (table : String) :
    Echoes (Leaves (Alike p e e')) (Ddl.elements dialect table s)
      (Ddl.elements dialect table s') := by
  fun_induction Ddl.elements dialect table s generalizing s' with
  | case7 s l after hs el l₁ rest hel hcomma hsemicolon hfinish hclose ih =>
    obtain ⟨rest', hrest, helements⟩ :=
      h.firstElement he hs (by simp_all) hel (.inl hcomma)
    rw [helements, if_pos hcomma]
    exact (ih hrest).mapRest fun _ _ _ hs => ⟨rfl, hs⟩
  | case8 s l after hs el l₁ rest hel hend hsemicolon hfinish hclose =>
    obtain ⟨rest', hrest, helements⟩ := h.firstElement he hs (by simp_all) hel (.inr hend)
    rw [helements, if_neg (by simp [hend])]
    exact .ok ⟨rfl, hrest⟩
  | _ => exact .error _

theorem tableBody (h : Alike p e e' s s') (he : e.current = .finish) (dialect : Dialect)
    (table : String) :
    Echoes (Leaves (Alike p e e')) (Ddl.tableBody dialect table s)
      (Ddl.tableBody dialect table s') := by
  have helements := h.elements he dialect table
  cases h with
  | last h h' =>
    simp only [Ddl.tableBody, h, h']
    exact helements
  | cons hp h hs =>
    simp only [Ddl.tableBody, h]
    split
    · exact .ok ⟨rfl, hs⟩
    · exact helements

/-! ### Statements -/

theorem skipTableWords (h : Alike p e e' s s') :
    Alike p e e' (Ddl.skipTableWords s) (Ddl.skipTableWords s') := by
  have hwords : ∀ (words : List String) {s s' : Input}, Alike p e e' s s' →
      Alike p e e' (words.foldl (fun left word => left.eatWord word) s)
        (words.foldl (fun left word => left.eatWord word) s') := by
    intro words
    induction words with
    | nil => exact fun h => h
    | cons word words ih => exact fun h => ih (h.eatWord word)
  exact hwords _ h

theorem skipIfNotExists (h : Alike p e e' s s') :
    Alike p e e' (Ddl.skipIfNotExists s) (Ddl.skipIfNotExists s') := by
  rw [Ddl.skipIfNotExists, Ddl.skipIfNotExists, h.startsWith_eq]
  split
  · exact ((h.eat (by decide)).eat (by decide)).eat (by decide)
  · exact h

/-- What is left of a statement is skipped up to its semicolon. -/
theorem skipped (h : Alike p e e' s s') (changes : List Change) :
    Echoes (Leaves (UpTo p e e')) (.ok (changes, Ddl.skipStatement s))
      (.ok (changes, Ddl.skipStatement s')) :=
  .ok ⟨rfl, h.skipStatement⟩

theorem createTable (h : Alike p e e' s s') (he : e.current = .finish) (dialect : Dialect) :
    Echoes (Leaves (UpTo p e e')) (Ddl.createTable dialect s) (Ddl.createTable dialect s') := by
  have hname := h.qualifiedName?
  unfold Ddl.createTable
  generalize Ddl.qualifiedName? s = a at hname
  generalize Ddl.qualifiedName? s' = a' at hname
  cases hname with
  | none => exact h.skipped []
  | @some a a' hname =>
    obtain ⟨hvalue, hrest⟩ := hname
    simp only [← hvalue, hrest.startsWith_eq]
    split
    · have hbody := (hrest.eat (t := .leftParen) (by decide)).tableBody he dialect a.1
      exact hbody.mapRest fun _ _ _ hs => ⟨rfl, hs.skipStatement⟩
    · exact hrest.skipped []

theorem createStatement (h : Alike p e e' s s') (he : e.current = .finish) (dialect : Dialect) :
    Echoes (Leaves (UpTo p e e')) (Ddl.createStatement dialect s)
      (Ddl.createStatement dialect s') := by
  have hwords := h.skipTableWords
  unfold Ddl.createStatement
  simp only [hwords.startsWith_eq]
  split
  · exact (hwords.eat (by decide)).skipIfNotExists.createTable he dialect
  · exact hwords.skipped []

theorem skipClause (h : Alike p e e' s s') (table : String) :
    Echoes (Alike p e e') (Ddl.skipClause table s) (Ddl.skipClause table s') := by
  fun_induction Ddl.skipClause table s generalizing s' with
  | case1 => cases h
  | case5 => exact .error _
  | case6 l rest hopen left hleft ih =>
    obtain ⟨l', rest', rfl, hl', hs⟩ := h.behind (by simp [hopen])
    obtain ⟨left', hleft', hrest⟩ := hs.closeGroup table 0 left hleft
    rw [skipClause_open (hl'.trans hopen), hleft']
    exact ih hrest
  | case7 l rest hcomma hsemicolon hfinish hopen ih =>
    obtain ⟨l', rest', rfl, hl', hs⟩ := h.behind hsemicolon
    rw [skipClause_other (by simp_all)]
    exact ih hs
  | case2 l rest hl | case3 l rest hl | case4 l rest hl =>
    have hstop : s'.current ∈ [Token.comma, .semicolon, .finish] := by
      rw [h.current_eq, Input.current, hl]
      decide
    rw [skipClause_stop hstop]
    exact .ok h

theorem addition (h : Alike p e e' s s') (table : String) :
    Echoes (Leaves (Alike p e e')) (Ddl.addition table s) (Ddl.addition table s') := by
  cases h with
  | last h h' =>
    simp only [Ddl.addition, h, h']
    exact .ok ⟨rfl, .last h h'⟩
  | cons hp h hs =>
    simp only [Ddl.addition, h]
    split
    · exact (hs.foreignKey table).mapRest fun _ _ _ hs => ⟨rfl, hs⟩
    · have hcolumns := (hs.eat (t := .keyword .key) (by decide)).columnList table
      exact hcolumns.mapRest fun _ _ _ hs => ⟨rfl, hs⟩
    · exact (hs.columnList table).mapRest fun _ _ _ hs => ⟨rfl, hs⟩
    · exact .ok ⟨rfl, .cons hp h hs⟩

theorem skipConstraintName (h : Alike p e e' s s') :
    Alike p e e' (Ddl.skipConstraintName s) (Ddl.skipConstraintName s') := by
  rw [Ddl.skipConstraintName, Ddl.skipConstraintName, h.startsWith_eq]
  split
  · exact (h.eat (by decide)).eatName
  · exact h

/-- The first clause is read alike, and skipped to the comma or the end behind it. -/
theorem firstAddition (h : Alike p e e' s s') {table : String} {changes : List Change}
    {after left : Input} (ha : Ddl.addition table (Ddl.skipConstraintName s) = .ok (changes, after))
    (hc : Ddl.skipClause table after = .ok left) :
    ∃ after' left', Ddl.addition table (Ddl.skipConstraintName s') = .ok (changes, after') ∧
      Ddl.skipClause table after' = .ok left' ∧ Alike p e e' left left' := by
  obtain ⟨⟨changes', after'⟩, ha', hvalue, hafter⟩ := h.skipConstraintName.addition table _ ha
  obtain rfl : changes = changes' := hvalue
  obtain ⟨left', hc', hleft⟩ := hafter.skipClause table left hc
  exact ⟨after', left', ha', hc', hleft⟩

theorem additions (h : Alike p e e' s s') (table : String) :
    Echoes (Leaves (Alike p e e')) (Ddl.additions table s) (Ddl.additions table s') := by
  fun_induction Ddl.additions table s generalizing s' with
  | case1 => cases h
  | case2 => exact .error _
  | case3 => exact .error _
  | case4 l rest hadd changes after ha hc =>
    obtain ⟨l', rest', rfl, -, hs⟩ := h.behind (by simp [hadd])
    obtain ⟨_, _, _, _, hleft⟩ := hs.firstAddition ha hc
    cases hleft
  | case5 l rest hadd changes after ha l₁ left hc hcomma ih =>
    obtain ⟨l', rest', rfl, hl', hs⟩ := h.behind (by simp [hadd])
    obtain ⟨after', left', ha', hc', hleft⟩ := hs.firstAddition ha hc
    obtain ⟨l₁', left', rfl, hl₁', hleft⟩ := hleft.behind (by simp [hcomma])
    rw [additions_of_ok (hl'.trans hadd) ha' hc', if_pos (hl₁'.trans hcomma)]
    exact (ih hleft).mapRest fun _ _ _ hs => ⟨rfl, hs⟩
  | case6 l rest hadd changes after ha l₁ left hc hcomma =>
    obtain ⟨l', rest', rfl, hl', hs⟩ := h.behind (by simp [hadd])
    obtain ⟨after', left', ha', hc', hleft⟩ := hs.firstAddition ha hc
    have hcurrent := hleft.current_eq
    cases left' with
    | nil => cases hleft
    | cons l₁' left' =>
      have hl₁' : l₁'.token = l₁.token := hcurrent
      rw [additions_of_ok (hl'.trans hadd) ha' hc', if_neg (hl₁' ▸ hcomma)]
      exact .ok ⟨rfl, hleft⟩
  | case7 l rest hadd =>
    have hne : s'.current ≠ .keyword .add := by
      rw [h.current_eq]
      exact hadd
    rw [additions_of_current table hne]
    exact .ok ⟨rfl, h⟩

theorem skipAlterWords (h : Alike p e e' s s') :
    Alike p e e' (Ddl.skipAlterWords s) (Ddl.skipAlterWords s') := by
  have honly : Alike p e e' (s.eat (.keyword .only)) (s'.eat (.keyword .only)) := h.eat (by decide)
  unfold Ddl.skipAlterWords
  simp only [honly.startsWith_eq]
  split
  · exact ((honly.eat (by decide)).eat (by decide)).eat (by decide)
  · exact honly.eat (by decide)

theorem alterStatement (h : Alike p e e' s s') :
    Echoes (Leaves (UpTo p e e')) (Ddl.alterStatement s) (Ddl.alterStatement s') := by
  have hwords : Alike p e e' _ _ :=
    (h.eat (t := .keyword .table) (by decide)).skipAlterWords
  have hname := hwords.qualifiedName?
  unfold Ddl.alterStatement
  rw [h.startsWith_eq]
  split
  · simp only
    generalize Ddl.qualifiedName? (Ddl.skipAlterWords (s.eat (.keyword .table))) = a at hname
    generalize Ddl.qualifiedName? (Ddl.skipAlterWords (s'.eat (.keyword .table))) = a' at hname
    cases hname with
    | none => exact hwords.skipped []
    | @some a a' hname =>
      obtain ⟨hvalue, hrest⟩ := hname
      simp only [← hvalue]
      exact (hrest.additions a.1).mapRest fun _ _ _ hs => ⟨rfl, hs.skipStatement⟩
  · exact h.skipped []

/-- Statements behind the same tokens start from what those have declared. -/
theorem statements (he : e.current = .finish) (hp : ¬p .finish) {dialect : Dialect}
    {start schema : Schema} (hs : UpTo p e e' s s')
    (h : Ddl.statements dialect start s = .ok schema) :
    Ddl.statements dialect start s' = Ddl.statements dialect schema e' := by
  have halike : ∀ {l : Lexeme} {rest s' : Input}, UpTo p e e' (l :: rest) s' →
      l.token ≠ .finish → Alike p e e' (l :: rest) s' := by
    rintro l rest s' (h | ⟨rfl, -⟩) hne
    · exact h
    · exact absurd he hne
  fun_induction Ddl.statements dialect start s generalizing s' with
  | case1 =>
    obtain hs | ⟨-, rfl⟩ := hs
    · cases hs
    · rw [Except.ok.inj h]
  | case2 start l rest hl =>
    obtain hs | ⟨-, rfl⟩ := hs
    · cases hs with
      | last hsemicolon => exact absurd (hl.symm.trans hsemicolon) (by decide)
      | cons hpl => exact absurd (hl ▸ hpl) hp
    · rw [Except.ok.inj h]
  | case3 => cases h
  | case4 start l rest hl changes after hchanges ih =>
    obtain ⟨l', rest', rfl, hl', hrest⟩ := (halike hs (by simp [hl])).behind (by simp [hl])
    obtain ⟨⟨changes', after'⟩, hchanges', hvalue, hafter⟩ :=
      hrest.createStatement he dialect _ hchanges
    obtain rfl : changes = changes' := hvalue
    rw [statements_create start (hl'.trans hl) hchanges']
    exact ih hafter h
  | case5 => cases h
  | case6 start l rest hl changes after hchanges ih =>
    obtain ⟨l', rest', rfl, hl', hrest⟩ := (halike hs (by simp [hl])).behind (by simp [hl])
    obtain ⟨⟨changes', after'⟩, hchanges', hvalue, hafter⟩ := hrest.alterStatement _ hchanges
    obtain rfl : changes = changes' := hvalue
    rw [statements_alter start (hl'.trans hl) hchanges']
    exact ih hafter h
  | case7 start l rest hfinish hcreate halter ih =>
    have hother : ∀ {l' : Lexeme}, l'.token = l.token →
        l'.token ∉ [Token.finish, .keyword .create, .keyword .alter] := by simp_all
    obtain hs := halike hs hfinish
    cases hs with
    | last hl hl' =>
      rw [statements_other start (hother (hl'.trans hl.symm))]
      exact ih (.inr ⟨rfl, rfl⟩) h
    | cons hpl hl' hrest =>
      rw [statements_other start (hother hl')]
      exact ih (.inl hrest) h

end Alike

/-- **Statements are read independently of what follows them.** If lexemes that end with a semicolon
declare a schema when nothing follows, then whatever follows is read as it is read from that schema
on, errors included. -/
theorem statements_append (dialect : Dialect) (start : Schema) {xs : Input}
    (hlast : xs.getLast?.map Lexeme.token = some .semicolon)
    (hxs : Token.finish ∉ xs.map Lexeme.token) {l : Lexeme} (hl : l.token = .finish)
    {schema : Schema} (h : statements dialect start (xs ++ [l]) = .ok schema) (rest : Input) :
    statements dialect start (xs ++ rest) = statements dialect schema rest := by
  obtain ⟨k, hk, hsemicolon⟩ := Option.map_eq_some_iff.1 hlast
  obtain ⟨ys, rfl⟩ := List.getLast?_eq_some_iff.1 hk
  have hbegins : ∀ rest, Input.Begins (ys.map Lexeme.token ++ [.semicolon]) rest
      ((ys ++ [k]) ++ rest) :=
    fun rest => ⟨ys ++ [k], by simp [hsemicolon], rfl⟩
  have hys : ∀ t ∈ ys.map Lexeme.token, t ≠ .finish := by
    rintro t ht rfl
    rw [List.map_append] at hxs
    exact hxs (List.mem_append_left _ ht)
  have halike := alike_of_begins hys (hbegins [l]) (hbegins rest)
  have hend : Input.current [l] = .finish := hl
  exact Alike.statements hend (fun h => h rfl) (.inl halike) h

/-- What a run on known lexemes returns is found by evaluation. -/
theorem eq_ok_of_toOption {α : Type} {x : Except ReadError α} {a : α}
    (h : x.toOption = some a) : x = .ok a := by
  cases x with
  | error err => cases h
  | ok b => exact congrArg Except.ok (Option.some.inj h)

/-- So is the error that it meets. -/
instance {α : Type} (x : Except ReadError α) (err : ReadError) : Decidable (x = .error err) :=
  match x with
  | .ok _ => .isFalse nofun
  | .error found => decidable_of_iff (found = err) (by simp)

/-- The lexemes of one statement. -/
def loansLexemes : Input :=
  [⟨.keyword .create, 0⟩, ⟨.keyword .table, 7⟩, ⟨.word "loans", 13⟩, ⟨.leftParen, 19⟩,
    ⟨.word "id", 20⟩, ⟨.word "int", 23⟩, ⟨.rightParen, 26⟩, ⟨.semicolon, 27⟩]

def loansSchema : Schema := ⟨[⟨"loans", [⟨"id", "integer", []⟩], []⟩], []⟩

/-- A key that is added later finds the table. -/
theorem statements_append_loans :
    loansLexemes.getLast?.map Lexeme.token = some .semicolon ∧
      Token.finish ∉ loansLexemes.map Lexeme.token ∧
      statements .postgres .empty (loansLexemes ++ [⟨.finish, 28⟩]) = .ok loansSchema ∧
      statements .postgres .empty
          (loansLexemes ++ Token.scan "ALTER TABLE loans ADD PRIMARY KEY (id);")
        = statements .postgres loansSchema
          (Token.scan "ALTER TABLE loans ADD PRIMARY KEY (id);") := by
  have hschema : statements .postgres .empty (loansLexemes ++ [⟨.finish, 28⟩]) = .ok loansSchema :=
    eq_ok_of_toOption (by decide +kernel)
  exact ⟨rfl, by decide, hschema,
    statements_append .postgres .empty rfl (by decide) rfl hschema _⟩

end SchemaAudit.Ddl
