import SchemaAudit.Proofs.Ddl.Redeclare

/-!
# Tables of plain columns

Every element of such a table is two bare words, a name and the name of a type. The reader tells by
the first word what an element is, and at a word that begins an index or a check it skips to the next
comma. It does not ask for the list of columns that an index has, so that a column with such a name
is lost.

* `PlainElement`, `plainTable`: such elements, and the declaration that they make up.
* `PlainElement.isColumn`, `PlainElement.isPassedOver`: what the reader takes an element for.
* `elements_plain`, `elements_plain_error`: elements of the two kinds are read one after another, and
  any other element is refused.
* `read_plainTable`: which declarations are read, and which columns are left of them.
-/

namespace SchemaAudit.Ddl

open Input

/-! ### Elements of two words -/

/-- Two words: a name and the name of a type. -/
structure PlainElement where
  name : String
  type : String
  deriving DecidableEq, Repr

/-- Keywords at which an element is skipped. -/
def isSkipped : Keyword → Bool
  | .key | .index | .check => true
  | _ => false

namespace PlainElement

/-- Each of the two is a letter or an underscore, behind which letters, numerals, underscores and
dollar signs may stand. -/
def IsWords (e : PlainElement) : Prop :=
  Token.isWordText e.name.toList = true ∧ Token.isWordText e.type.toList = true

instance (e : PlainElement) : Decidable e.IsWords := inferInstanceAs (Decidable (_ ∧ _))

def text (e : PlainElement) : String := e.name ++ " " ++ e.type

def tokens (e : PlainElement) : List Token :=
  [Token.ofWord e.name.toList, Token.ofWord e.type.toList]

/-- Neither word is a keyword, and the first begins nothing else. -/
def isColumn (e : PlainElement) : Bool :=
  match Token.ofWord e.name.toList, Token.ofWord e.type.toList with
  | .word name, .word _ => !beginsOther (.word name)
  | _, _ => false

/-- The first word begins an index or a check, or the second does behind the keyword for the name of
a constraint. -/
def isPassedOver (e : PlainElement) : Bool :=
  match Token.ofWord e.name.toList, Token.ofWord e.type.toList with
  | .keyword .constraint, .keyword k => isSkipped k
  | .keyword k, _ => isSkipped k
  | t, _ => beginsOther t

example : ["key", "index", "check", "fulltext", "spatial", "exclude"].all
    (fun name => (⟨name, "int"⟩ : PlainElement).isPassedOver) := by decide

def column (dialect : Dialect) (e : PlainElement) : Column :=
  ⟨e.name, TypeName.canonical dialect e.type, []⟩

/-- What the element is read as. -/
def reading (dialect : Dialect) (e : PlainElement) : Element :=
  if e.isColumn then .column (e.column dialect) [] else .other

end PlainElement

/-- The elements with commas between them. -/
def plainBody (es : List PlainElement) : String :=
  String.intercalate ", " (es.map PlainElement.text)

/-- The declaration of a table with these elements. -/
def plainTable (es : List PlainElement) : String := declaration "t" (plainBody es)

example : plainTable [⟨"id", "int"⟩, ⟨"name", "text"⟩] = "CREATE TABLE t (id int, name text);" := by
  decide

/-- The table with those elements that are columns. -/
def plainSchema (dialect : Dialect) (es : List PlainElement) : Schema :=
  ⟨[⟨"t", (es.filter PlainElement.isColumn).map (PlainElement.column dialect), []⟩], []⟩

/-! ### Words -/

theorem ofWord_cases (s : String) :
    Token.ofWord s.toList = .word s ∨ ∃ k, Token.ofWord s.toList = .keyword k := by
  rw [Token.ofWord]
  cases Keyword.ofWord? s.toList with
  | none => exact .inl (by simp)
  | some k => exact .inr ⟨k, rfl⟩

theorem space_not_mem_of_isWordText {s : List Char} (h : Token.isWordText s = true) : ' ' ∉ s := by
  cases s with
  | nil => exact List.not_mem_nil
  | cons c s =>
    simp only [Token.isWordText, Bool.and_eq_true, List.all_eq_true] at h
    intro hm
    rcases List.mem_cons.1 hm with rfl | hm
    · exact absurd h.1 (by decide)
    · exact absurd (h.2 ' ' hm) (by decide)

/-- A word is skipped on the way to the separator. -/
theorem skipElement_ofWord (table : String) {s : String} {l : Lexeme}
    (hl : l.token = Token.ofWord s.toList) {rest : Input} (h : IsSeparator rest.current) :
    skipElement table 0 (l :: rest) = .ok rest := by
  rw [← skipElement_of_separator table h, skipElement.eq_def]
  rcases ofWord_cases s with hs | ⟨k, hs⟩ <;> simp only [hl, hs]

theorem eatName_of_name? {s : Input} (h : s.current.name? = none) : s.eatName = s := by
  cases s with
  | nil => rfl
  | cons l rest =>
    have hl : l.token.name? = none := h
    rw [eatName, hl]
    rfl

theorem IsSeparator.name? {t : Token} (h : IsSeparator t) : t.name? = none := by
  rcases h with rfl | rfl <;> rfl

/-! ### What is read of an element -/

/-- A keyword of an index or a check, and what stands up to the separator. -/
theorem element_isSkipped (dialect : Dialect) (table : String) {k : Keyword}
    (hk : isSkipped k = true) {l : Lexeme} (hl : l.token = .keyword k) (after : Input) :
    element dialect table l after = (skipElement table 0 after).map fun left => (.other, left) := by
  cases k <;> first | (simp [isSkipped] at hk; done) | simp [element, hl]

theorem skipConstraintNames_constraint {l : Lexeme} (hl : l.token = .keyword .constraint)
    (rest : Input) : skipConstraintNames (l :: rest) = skipConstraintNames rest.eatName := by
  rw [skipConstraintNames, if_pos hl]

theorem isColumn_iff {e : PlainElement} : e.isColumn = true ↔
    Token.ofWord e.name.toList = .word e.name ∧ Token.ofWord e.type.toList = .word e.type
      ∧ beginsOther (.word e.name) = false := by
  rcases ofWord_cases e.name with hname | ⟨k, hname⟩ <;>
    rcases ofWord_cases e.type with htype | ⟨k', htype⟩ <;>
    simp [PlainElement.isColumn, hname, htype]

theorem isPassedOver_iff {e : PlainElement} : e.isPassedOver = true ↔
    (Token.ofWord e.name.toList = .word e.name ∧ beginsOther (.word e.name) = true)
      ∨ (∃ k, Token.ofWord e.name.toList = .keyword k ∧ isSkipped k = true)
      ∨ (Token.ofWord e.name.toList = .keyword .constraint
        ∧ ∃ k, Token.ofWord e.type.toList = .keyword k ∧ isSkipped k = true) := by
  rcases ofWord_cases e.name with hname | ⟨k, hname⟩ <;>
    rcases ofWord_cases e.type with htype | ⟨k', htype⟩
  · simp [PlainElement.isPassedOver, hname, htype]
  · simp [PlainElement.isPassedOver, hname, htype]
  · cases k <;> simp [PlainElement.isPassedOver, hname, htype, isSkipped, beginsOther, Token.isWord]
  · cases k <;> simp [PlainElement.isPassedOver, hname, htype, isSkipped, beginsOther, Token.isWord]

/-- Behind the token that begins the element, `element` reads it up to its separator. -/
def ReadsUpTo (dialect : Dialect) (table : String) (el : Element) (rest s : Input) : Prop :=
  ∃ l after, skipConstraintNames s = l :: after
    ∧ l.token ∉ [Token.semicolon, .finish, .rightParen]
    ∧ element dialect table l after = .ok (el, rest)

section Element

variable (dialect : Dialect) (table : String) {e : PlainElement} {rest s : Input}

theorem readsUpTo_column (he : e.IsWords) (h : e.isColumn = true) (hs : Begins e.tokens rest s)
    (hrest : IsSeparator rest.current) :
    ReadsUpTo dialect table (.column (e.column dialect) []) rest s := by
  obtain ⟨hname, htype, hother⟩ := isColumn_iff.1 h
  have hreads : ReadsAs dialect table [.word e.name, .word e.type]
      (.column (e.column dialect) []) := readsAs_named rfl hother fun _ _ htype hend =>
    column_word dialect table e.name (space_not_mem_of_isWordText he.2) htype hend
  rw [PlainElement.tokens, hname, htype] at hs
  obtain ⟨l, after, rfl, hl, helement⟩ := hreads rest s hs hrest
  simp only [StartsElement, List.mem_cons, not_or] at hl
  exact ⟨l, after, skipConstraintNames_of_ne hl.1 after, by simp [hl], helement⟩

theorem readsUpTo_other (h : e.isPassedOver = true) (hs : Begins e.tokens rest s)
    (hrest : IsSeparator rest.current) : ReadsUpTo dialect table .other rest s := by
  obtain ⟨l, after, rfl, hl, hafter⟩ := begins_cons.1 hs
  obtain ⟨l', rfl, hl'⟩ := begins_singleton.1 hafter
  have hskip := skipElement_ofWord table hl' hrest
  rcases isPassedOver_iff.1 h with ⟨hname, hother⟩ | ⟨k, hname, hk⟩ | ⟨hname, k, htype, hk⟩
  · rw [hname] at hl
    refine ⟨l, l' :: rest, skipConstraintNames_of_ne (by simp [hl]) _, by simp [hl], ?_⟩
    simp [element, hl, hother, hskip, Except.map]
  · rw [hname] at hl
    have hne : l.token ≠ .keyword .constraint := by
      rintro hconstraint
      obtain rfl := Token.keyword.inj (hl.symm.trans hconstraint)
      cases hk
    refine ⟨l, l' :: rest, skipConstraintNames_of_ne hne _, by simp [hl], ?_⟩
    rw [element_isSkipped dialect table hk hl, hskip]
    rfl
  · rw [hname] at hl
    rw [htype] at hl'
    have hne : l'.token ≠ .keyword .constraint := by
      rintro hconstraint
      obtain rfl := Token.keyword.inj (hl'.symm.trans hconstraint)
      cases hk
    have hname? : Input.eatName (l' :: rest) = l' :: rest :=
      eatName_of_name? (by simp [Input.current, hl', Token.name?])
    refine ⟨l', rest, ?_, by simp [hl'], ?_⟩
    · rw [skipConstraintNames_constraint hl, hname?, skipConstraintNames_of_ne hne]
    · rw [element_isSkipped dialect table hk hl', skipElement_of_separator table hrest]
      rfl

theorem readsUpTo_reading (he : e.IsWords) (h : e.isColumn = true ∨ e.isPassedOver = true)
    (hs : Begins e.tokens rest s) (hrest : IsSeparator rest.current) :
    ReadsUpTo dialect table (e.reading dialect) rest s := by
  unfold PlainElement.reading
  by_cases hcolumn : e.isColumn = true
  · rw [if_pos hcolumn]
    exact readsUpTo_column dialect table he hcolumn hs hrest
  · rw [if_neg hcolumn]
    exact readsUpTo_other dialect table (h.resolve_left hcolumn) hs hrest

end Element

/-! ### Elements that are refused -/

/-- The words that may precede a list of columns end where the words end. -/
theorem current_skipListName {ts : List Token} (hts : Token.leftParen ∉ ts) {rest s : Input}
    (hs : Begins ts rest s) (hrest : IsSeparator rest.current) :
    (skipListName s).current ≠ .leftParen := by
  induction ts generalizing s with
  | nil =>
    obtain rfl := begins_nil.1 hs
    cases s with
    | nil => simp [skipListName, Input.current]
    | cons l rest =>
      rw [skipListName.eq_def]
      rcases hrest with h | h <;> simp only [Input.current] at h <;> simp [h, Input.current]
  | cons t ts ih =>
    obtain ⟨l, after, rfl, rfl, hafter⟩ := begins_cons.1 hs
    simp only [List.mem_cons, not_or] at hts
    have hmore := ih hts.2 hafter
    rw [skipListName.eq_def]
    simp only
    split
    · exact hmore
    · exact hmore
    · exact hmore
    · exact hmore
    · exact fun h => hts.1 h.symm

theorem columnList_error (table : String) {s : Input} (h : (skipListName s).current ≠ .leftParen) :
    ∃ err, columnList table s = .error err := by
  unfold columnList
  split
  · exact ⟨_, rfl⟩
  · rename_i l rest hs
    rw [hs] at h
    exact ⟨_, if_neg h⟩

/-- The keyword in front of a list of columns is one of the words that are skipped. -/
theorem columnList_eat_key (table : String) (s : Input) :
    columnList table (s.eat (.keyword .key)) = columnList table s := by
  have hskip : skipListName (s.eat (.keyword .key)) = skipListName s := by
    cases s with
    | nil => rfl
    | cons l rest =>
      by_cases hl : l.token = .keyword .key
      · rw [eat_cons hl, skipListName.eq_def (l :: rest)]
        simp only [hl]
      · rw [Input.eat, if_neg hl]
  rw [columnList, columnList, hskip]

/-- An element is refused, or it has ended before it began. -/
theorem elements_error {dialect : Dialect} {table : String} {s after : Input} {l : Lexeme}
    (hs : skipConstraintNames s = l :: after)
    (h : l.token = .rightParen ∨ ∃ err, element dialect table l after = .error err) :
    ∃ err, elements dialect table s = .error err := by
  rw [elements.eq_def]
  split
  · exact ⟨_, rfl⟩
  · rename_i l' after' hs'
    obtain ⟨rfl, rfl⟩ := List.cons.inj (hs.symm.trans hs')
    split
    · exact ⟨_, rfl⟩
    · exact ⟨_, rfl⟩
    · exact ⟨_, rfl⟩
    · rename_i hclose
      obtain ⟨err, herr⟩ := h.resolve_left hclose
      split
      · exact ⟨_, rfl⟩
      · simp_all
      · simp_all

section Refused

variable (dialect : Dialect) (table : String)

/-- Of the keywords only those at which an element is skipped begin an element of bare words. -/
theorem element_keyword_error {k : Keyword} (hk : isSkipped k = false) {l : Lexeme}
    (hl : l.token = .keyword k) {after : Input}
    (hafter : (skipListName after).current ≠ .leftParen) :
    ∃ err, element dialect table l after = .error err := by
  obtain ⟨err, herr⟩ := columnList_error table hafter
  cases k with
  | key => cases hk
  | index => cases hk
  | check => cases hk
  | primary =>
    refine ⟨err, ?_⟩
    simp only [element, hl, columnList_eat_key, herr]
  | unique =>
    refine ⟨err, ?_⟩
    simp only [element, hl, herr]
  | foreign =>
    by_cases hkey : after.startsWith (.keyword .key) = true
    · refine ⟨err, ?_⟩
      simp only [element, hl, foreignKey, hkey, if_pos, columnList_eat_key, herr]
    · refine ⟨after.expected "KEY", ?_⟩
      simp only [element, hl, foreignKey, hkey]
      rfl
  | _ => exact ⟨_, by simp only [element, hl]; rfl⟩

theorem column_keyword_error (name : String) {k : Keyword} {l : Lexeme} (hl : l.token = .keyword k)
    (rest : Input) : ∃ err, column dialect table name (l :: rest) = .error err := by
  refine ⟨Input.expected (l :: rest) "column type", ?_⟩
  rw [column, columnType?, hl]
  rfl

theorem element_separator_error {l : Lexeme} (hl : IsSeparator l.token) (rest : Input) :
    l.token = .rightParen ∨ ∃ err, element dialect table l rest = .error err := by
  rcases hl with hl | hl
  · exact .inr ⟨.expected "column or constraint definition" l.token l.offset,
      by simp only [element, hl]; rfl⟩
  · exact .inl hl

/-- Where only the separator is left of an element, it is refused. -/
theorem elements_separator_error {s rest : Input} (hs : skipConstraintNames s = rest)
    (hrest : IsSeparator rest.current) : ∃ err, elements dialect table s = .error err := by
  cases rest with
  | nil => rcases hrest with h | h <;> cases h
  | cons l after => exact elements_error hs (element_separator_error dialect table hrest after)

theorem skipConstraintNames_separator {rest : Input} (hrest : IsSeparator rest.current) :
    skipConstraintNames rest = rest := by
  cases rest with
  | nil => rcases hrest with h | h <;> cases h
  | cons l after =>
    refine skipConstraintNames_of_ne ?_ after
    rcases hrest with h | h <;> exact fun hl => absurd (hl.symm.trans h) (by simp)

theorem elements_keyword_error {k : Keyword} (hk : isSkipped k = false) {l : Lexeme}
    (hl : l.token = .keyword k) {s after : Input} (hs : skipConstraintNames s = l :: after)
    (hafter : (skipListName after).current ≠ .leftParen) :
    ∃ err, elements dialect table s = .error err :=
  elements_error hs (.inr (element_keyword_error dialect table hk hl hafter))

/-- The keyword for the name of a constraint, with one more word behind it. -/
theorem elements_constraint_error {l l' : Lexeme} (hl : l.token = .keyword .constraint)
    {type : String} (hl' : l'.token = Token.ofWord type.toList)
    (htype : ∀ k, Token.ofWord type.toList = .keyword k → isSkipped k = false) {rest : Input}
    (hrest : IsSeparator rest.current) :
    ∃ err, elements dialect table (l :: l' :: rest) = .error err := by
  have hnames := skipConstraintNames_constraint hl (l' :: rest)
  rcases ofWord_cases type with hword | ⟨k, hkeyword⟩
  · rw [hword] at hl'
    have heaten : Input.eatName (l' :: rest) = rest := by rw [Input.eatName, hl']; rfl
    rw [heaten, skipConstraintNames_separator hrest] at hnames
    exact elements_separator_error dialect table hnames hrest
  · rw [hkeyword] at hl'
    have hleft : Input.eatName (l' :: rest) = l' :: rest :=
      eatName_of_name? (by simp [Input.current, hl', Token.name?])
    rw [hleft] at hnames
    by_cases hk : k = .constraint
    · subst hk
      rw [skipConstraintNames_constraint hl', eatName_of_name? hrest.name?,
        skipConstraintNames_separator hrest] at hnames
      exact elements_separator_error dialect table hnames hrest
    · have hstay := skipConstraintNames_of_ne (l := l') (by simp [hl', hk]) rest
      exact elements_keyword_error dialect table (htype k hkeyword) hl' (hnames.trans hstay)
        (current_skipListName List.not_mem_nil (begins_nil.2 rfl) hrest)

/-- **An element that is neither a column nor passed over is refused.** -/
theorem elements_refused {e : PlainElement} (hcolumn : e.isColumn = false)
    (hother : e.isPassedOver = false) {rest s : Input} (hs : Begins e.tokens rest s)
    (hrest : IsSeparator rest.current) : ∃ err, elements dialect table s = .error err := by
  obtain ⟨l, after, rfl, hl, hafter⟩ := begins_cons.1 hs
  obtain ⟨l', rfl, hl'⟩ := begins_singleton.1 hafter
  rw [Bool.eq_false_iff, Ne, isPassedOver_iff] at hother
  rcases ofWord_cases e.name with hname | ⟨k, hname⟩
  · -- a name is refused for what stands in the place of its type
    rw [hname] at hl
    have hbegins : beginsOther (.word e.name) = false :=
      Bool.eq_false_iff.2 fun h => hother (.inl ⟨hname, h⟩)
    have hkeyword : ∃ k, Token.ofWord e.type.toList = .keyword k := by
      refine (ofWord_cases e.type).resolve_left fun htype => ?_
      rw [isColumn_iff.2 ⟨hname, htype, hbegins⟩] at hcolumn
      cases hcolumn
    obtain ⟨k, htype⟩ := hkeyword
    obtain ⟨err, herr⟩ := column_keyword_error dialect table e.name (hl'.trans htype) rest
    refine elements_error (skipConstraintNames_of_ne (by simp [hl]) _) (.inr ⟨err, ?_⟩)
    simp only [element, hl, hbegins, Token.name?, herr]
    rfl
  · rw [hname] at hl
    by_cases hk : k = .constraint
    · subst hk
      refine elements_constraint_error dialect table hl hl' (fun k htype => ?_) hrest
      exact Bool.eq_false_iff.2 fun h => hother (.inr (.inr ⟨hname, k, htype, h⟩))
    · have hkept : isSkipped k = false :=
        Bool.eq_false_iff.2 fun h => hother (.inr (.inl ⟨k, hname, h⟩))
      have hparen : Token.leftParen ∉ [Token.ofWord e.type.toList] := by
        rcases ofWord_cases e.type with htype | ⟨k', htype⟩ <;> simp [htype]
      exact elements_keyword_error dialect table hkept hl
        (skipConstraintNames_of_ne (by simp [hl, hk]) _)
        (current_skipListName hparen (begins_singleton.2 ⟨l', rfl, hl'⟩) hrest)

end Refused

/-! ### Elements with commas between them -/

section Run

variable (dialect : Dialect) (table : String)

/-- An element that is read, and the token behind it. -/
theorem elements_of_readsUpTo {el : Element} {l : Lexeme} {rest s : Input}
    (h : ReadsUpTo dialect table el (l :: rest) s) :
    (l.token = .comma → elements dialect table s
      = (elements dialect table rest).map fun (els, left) => (el :: els, left)) ∧
    (l.token = .rightParen → elements dialect table s = .ok ([el], rest)) := by
  obtain ⟨first, after, hs, hfirst, hel⟩ := h
  have hnext := elements_of_ok hs hfirst hel
  refine ⟨fun hl => ?_, fun hl => ?_⟩
  · rw [hnext, hl]
  · rw [hnext, hl]

/-- The tokens of the first element, of the comma and of the elements behind it. -/
theorem begins_cons_cons {e e' : PlainElement} {es : List PlainElement} {rest s : Input}
    (h : Begins ([Token.comma].intercalate ((e :: e' :: es).map PlainElement.tokens)
      ++ [.rightParen]) rest s) :
    ∃ l left, l.token = .comma ∧ Begins e.tokens (l :: left) s ∧
      Begins ([Token.comma].intercalate ((e' :: es).map PlainElement.tokens)
        ++ [.rightParen]) rest left := by
  rw [List.map_cons, List.map_cons, List.intercalate_cons_cons, ← List.map_cons,
    List.append_assoc, List.append_assoc, List.singleton_append] at h
  obtain ⟨middle, hfirst, htail⟩ := begins_append.1 h
  obtain ⟨l, left, rfl, hl, hmore⟩ := begins_cons.1 htail
  exact ⟨l, left, hl, hfirst, hmore⟩

theorem begins_of_singleton {e : PlainElement} {rest s : Input}
    (h : Begins ([Token.comma].intercalate ([e].map PlainElement.tokens) ++ [.rightParen]) rest s) :
    ∃ l, l.token = .rightParen ∧ Begins e.tokens (l :: rest) s := by
  rw [List.map_singleton, List.intercalate_singleton] at h
  obtain ⟨middle, hfirst, hclose⟩ := begins_append.1 h
  obtain ⟨l, rfl, hl⟩ := begins_singleton.1 hclose
  exact ⟨l, hl, hfirst⟩

/-- **Columns and elements that are passed over are read one after another**, up to the parenthesis
that closes the table. -/
theorem elements_plain (e : PlainElement) (es : List PlainElement)
    (hwords : ∀ e' ∈ e :: es, e'.IsWords)
    (h : ∀ e' ∈ e :: es, e'.isColumn = true ∨ e'.isPassedOver = true) {rest s : Input}
    (hs : Begins ([Token.comma].intercalate ((e :: es).map PlainElement.tokens)
      ++ [.rightParen]) rest s) :
    elements dialect table s = .ok ((e :: es).map (PlainElement.reading dialect), rest) := by
  induction es generalizing e s with
  | nil =>
    obtain ⟨l, hl, hfirst⟩ := begins_of_singleton hs
    exact (elements_of_readsUpTo dialect table
      (readsUpTo_reading dialect table (hwords e List.mem_cons_self) (h e List.mem_cons_self)
        hfirst (.inr hl))).2 hl
  | cons e' es ih =>
    obtain ⟨hword, hmore⟩ := List.forall_mem_cons.1 hwords
    obtain ⟨hkind, hkinds⟩ := List.forall_mem_cons.1 h
    obtain ⟨l, left, hl, hfirst, hrest⟩ := begins_cons_cons hs
    rw [(elements_of_readsUpTo dialect table
      (readsUpTo_reading dialect table hword hkind hfirst (.inl hl))).1 hl, ih e' hmore hkinds hrest]
    rfl

/-- **One element of another kind is enough for all of them to be refused.** -/
theorem elements_plain_error (e : PlainElement) (es : List PlainElement)
    (hwords : ∀ e' ∈ e :: es, e'.IsWords)
    (h : ¬∀ e' ∈ e :: es, e'.isColumn = true ∨ e'.isPassedOver = true) {rest s : Input}
    (hs : Begins ([Token.comma].intercalate ((e :: es).map PlainElement.tokens)
      ++ [.rightParen]) rest s) : ∃ err, elements dialect table s = .error err := by
  induction es generalizing e s with
  | nil =>
    obtain ⟨l, hl, hfirst⟩ := begins_of_singleton hs
    have hkind : e.isColumn = false ∧ e.isPassedOver = false := by simpa using h
    exact elements_refused dialect table hkind.1 hkind.2 hfirst (.inr hl)
  | cons e' es ih =>
    obtain ⟨hword, hmore⟩ := List.forall_mem_cons.1 hwords
    obtain ⟨l, left, hl, hfirst, hrest⟩ := begins_cons_cons hs
    by_cases hkind : e.isColumn = true ∨ e.isPassedOver = true
    · have hothers : ¬∀ e'' ∈ e' :: es, e''.isColumn = true ∨ e''.isPassedOver = true :=
        fun hall => h (List.forall_mem_cons.2 ⟨hkind, hall⟩)
      obtain ⟨err, herr⟩ := ih e' hmore hothers hrest
      refine ⟨err, ?_⟩
      rw [(elements_of_readsUpTo dialect table
        (readsUpTo_reading dialect table hword hkind hfirst (.inl hl))).1 hl, herr]
      rfl
    · simp only [not_or, Bool.not_eq_true] at hkind
      exact elements_refused dialect table hkind.1 hkind.2 hfirst (.inl hl)

end Run

/-! ### Declarations -/

theorem scans_plainElement {e : PlainElement} (h : e.IsWords) :
    Token.Scans e.tokens e.text.toList := by
  have hscans := (Token.scans_word h.1).append (Token.endsWord_cons (by decide) _)
    (Token.scans_word h.2).cons_space
  simpa [PlainElement.text, PlainElement.tokens] using hscans

theorem scans_plainBody {es : List PlainElement} (hwords : ∀ e ∈ es, e.IsWords) :
    Token.Scans ([Token.comma].intercalate (es.map PlainElement.tokens)) (plainBody es).toList := by
  rw [plainBody, String.toList_intercalate]
  induction es with
  | nil => exact .nil
  | cons e es ih =>
    obtain ⟨hword, hmore⟩ := List.forall_mem_cons.1 hwords
    have helement := scans_plainElement hword
    cases es with
    | nil => simpa using helement
    | cons e' es =>
      simp only [List.map_cons, List.intercalate_cons_cons] at ih ⊢
      rw [List.append_assoc, List.append_assoc]
      exact helement.append (Token.endsWord_cons (by decide) _)
        ((ih hmore).cons_space.cons_punctuation rfl)

/-- The parenthesis does not close the table at once. -/
theorem ne_rightParen_of_begins {e : PlainElement} {es : List PlainElement} {rest s : Input}
    (hs : Begins ([Token.comma].intercalate ((e :: es).map PlainElement.tokens)
      ++ [.rightParen]) rest s) : s.current ≠ .rightParen := by
  have hfirst : ∃ s', Begins e.tokens s' s := by
    cases es with
    | nil => exact ⟨_, (begins_of_singleton hs).choose_spec.2⟩
    | cons e' es =>
      obtain ⟨l, left, -, hfirst, -⟩ := begins_cons_cons hs
      exact ⟨_, hfirst⟩
  obtain ⟨s', hfirst⟩ := hfirst
  rw [hfirst.current]
  rcases ofWord_cases e.name with h | ⟨k, h⟩ <;> simp [h]

theorem tableBody_plain (dialect : Dialect) (table : String) {es : List PlainElement}
    (hwords : ∀ e ∈ es, e.IsWords) {rest s : Input}
    (hs : Begins ([Token.comma].intercalate (es.map PlainElement.tokens) ++ [.rightParen]) rest s) :
    ((∀ e ∈ es, e.isColumn = true ∨ e.isPassedOver = true) →
        tableBody dialect table s = .ok (es.map (PlainElement.reading dialect), rest)) ∧
      ((¬∀ e ∈ es, e.isColumn = true ∨ e.isPassedOver = true) →
        ∃ err, tableBody dialect table s = .error err) := by
  cases es with
  | nil =>
    obtain ⟨l, rfl, hl⟩ := begins_singleton.1 hs
    refine ⟨fun _ => ?_, fun h => absurd (by simp) h⟩
    rw [tableBody, if_pos hl]
    rfl
  | cons e es =>
    have hopen := ne_rightParen_of_begins hs
    have hbody : tableBody dialect table s = elements dialect table s := by
      cases s with
      | nil => rfl
      | cons l after => exact if_neg hopen
    rw [hbody]
    exact ⟨fun h => elements_plain dialect table e es hwords h hs,
      fun h => elements_plain_error dialect table e es hwords h hs⟩

theorem filterMap_column?_reading (dialect : Dialect) (es : List PlainElement) :
    (es.map (PlainElement.reading dialect)).filterMap Element.column?
      = (es.filter PlainElement.isColumn).map (PlainElement.column dialect) := by
  induction es with
  | nil => rfl
  | cons e es ih =>
    have hnone : Element.column? .other = none := rfl
    have hsome : (Element.column (e.column dialect) []).column? = some (e.column dialect) := rfl
    rw [List.map_cons]
    by_cases he : e.isColumn = true
    · rw [PlainElement.reading, if_pos he, List.filterMap_cons_some hsome, ih,
        List.filter_cons_of_pos he, List.map_cons]
    · rw [PlainElement.reading, if_neg he, List.filterMap_cons_none hnone, ih,
        List.filter_cons_of_neg he]

theorem key?_reading (dialect : Dialect) (e : PlainElement) : (e.reading dialect).key? = none := by
  unfold PlainElement.reading
  split <;> rfl

theorem references_reading (dialect : Dialect) (e : PlainElement) :
    (e.reading dialect).references = [] := by
  unfold PlainElement.reading
  split <;> rfl

theorem ofElements_reading (dialect : Dialect) (table : String) (es : List PlainElement) :
    Entity.ofElements table (es.map (PlainElement.reading dialect))
      = ⟨table, (es.filter PlainElement.isColumn).map (PlainElement.column dialect), []⟩ := by
  have hkeys : (es.map (PlainElement.reading dialect)).filterMap Element.key? = [] := by
    simp [key?_reading]
  simp only [Entity.ofElements, filterMap_column?_reading, hkeys]
  simp [Entity.primaryColumns, Entity.markPrimary]

/-- What is read of a declaration of plain elements. -/
theorem read_plain (dialect : Dialect) {es : List PlainElement} (hwords : ∀ e ∈ es, e.IsWords) :
    ((∀ e ∈ es, e.isColumn = true ∨ e.isPassedOver = true) →
        Schema.read dialect (plainTable es) = .ok (plainSchema dialect es)) ∧
      ((¬∀ e ∈ es, e.isColumn = true ∨ e.isPassedOver = true) →
        ∃ err, Schema.read dialect (plainTable es) = .error err) := by
  have hname : Token.Scans [.word "t"] "t".toList := Token.scans_word (by decide)
  obtain ⟨inside, rest, hinside, hok, herror⟩ := read_declaration dialect
    (hname.before (by decide)) (namesTable_singleton rfl)
    ((scans_plainBody hwords).before (by decide))
  obtain ⟨hread, hrefused⟩ := tableBody_plain dialect "t" hwords hinside
  refine ⟨fun h => ?_, fun h => ?_⟩
  · rw [plainTable, hok _ (hread h), ofElements_reading]
    simp [plainSchema, List.flatMap_map, references_reading]
  · obtain ⟨err, herr⟩ := hrefused h
    exact ⟨err, herror err herr⟩

theorem names_plainSchema_iff (dialect : Dialect) (es : List PlainElement) :
    (plainSchema dialect es).entities.map (fun t => t.columns.map Column.name)
      = [es.map PlainElement.name] ↔ ∀ e ∈ es, e.isColumn = true := by
  have hnames : (plainSchema dialect es).entities.map (fun t => t.columns.map Column.name)
      = [(es.filter PlainElement.isColumn).map PlainElement.name] := by
    simp [plainSchema, PlainElement.column]
  rw [hnames, List.singleton_inj]
  constructor
  · intro h
    have hlength := congrArg List.length h
    rw [List.length_map, List.length_map, List.length_filter_eq_length_iff] at hlength
    exact hlength
  · intro h
    rw [List.filter_eq_self.2 h]

/-- **A table of plain columns is read if its elements are columns or passed over, and those that are
passed over are missing.** So the columns are all there exactly if every element is a column. -/
theorem read_plainTable (dialect : Dialect) {es : List PlainElement}
    (hwords : ∀ e ∈ es, e.IsWords) :
    (∀ schema, Schema.read dialect (plainTable es) = .ok schema ↔
        (∀ e ∈ es, e.isColumn = true ∨ e.isPassedOver = true) ∧ schema = plainSchema dialect es) ∧
      ((plainSchema dialect es).entities.map (fun t => t.columns.map Column.name)
          = [es.map PlainElement.name] ↔ ∀ e ∈ es, e.isColumn = true) := by
  refine ⟨fun schema => ?_, names_plainSchema_iff dialect es⟩
  obtain ⟨hread, hrefused⟩ := read_plain dialect hwords
  constructor
  · intro h
    by_cases hkinds : ∀ e ∈ es, e.isColumn = true ∨ e.isPassedOver = true
    · exact ⟨hkinds, Except.ok.inj (h.symm.trans (hread hkinds))⟩
    · obtain ⟨err, herr⟩ := hrefused hkinds
      exact nomatch herr.symm.trans h
  · rintro ⟨hkinds, rfl⟩
    exact hread hkinds

/-- A table of settings that are pairs of a key and a value is read without its keys. -/
theorem read_plainTable_settings :
    (∀ e ∈ [(⟨"key", "text"⟩ : PlainElement), ⟨"value", "text"⟩], e.IsWords) ∧
      Schema.read .postgres "CREATE TABLE t (key text, value text);"
        = .ok ⟨[⟨"t", [⟨"value", "text", []⟩], []⟩], []⟩ := by
  have hwords : ∀ e ∈ [(⟨"key", "text"⟩ : PlainElement), ⟨"value", "text"⟩], e.IsWords := by decide
  have hread := ((read_plainTable .postgres hwords).1 (plainSchema .postgres _)).2
    ⟨by decide, rfl⟩
  exact ⟨hwords, hread⟩

/-- A declaration may be read without all of its columns. -/
theorem read_plainTable_ne :
    ¬∀ (dialect : Dialect) (es : List PlainElement) (schema : Schema), es ≠ [] →
      (∀ e ∈ es, e.IsWords) → Schema.read dialect (plainTable es) = .ok schema →
      schema.entities.map (fun t => t.columns.map Column.name) = [es.map PlainElement.name] := by
  intro hall
  have hwords : ∀ e ∈ [(⟨"key", "text"⟩ : PlainElement), ⟨"value", "text"⟩], e.IsWords := by decide
  have hread := (read_plain .postgres hwords).1 (by decide)
  exact absurd (hall .postgres _ _ (by simp) hwords hread) (by decide)

end SchemaAudit.Ddl
