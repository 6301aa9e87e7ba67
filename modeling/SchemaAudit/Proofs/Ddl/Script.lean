import SchemaAudit.Proofs.Ddl.Column

/-!
# Written scripts are read back

A canonical script is read as exactly what it declares, in every dialect.

* `ReadsAs`: what it takes for the tokens of an element to be read as that element.
* `elements_begins`, `tableBody_begins`: elements with commas between them, up to the parenthesis.
* `ofElements_elements`: the elements make up the declared entity, with primary keys marked.
* `statements_begins`: one table after another, by induction on the tables; each has a new name,
  so that none takes the place of an earlier one.

The text of a script goes through the scanner and all readers; the last theorem puts them together.
-/

namespace SchemaAudit.Ddl

open Input

/-! ### Elements -/

/-- A token that can begin an element. -/
def StartsElement (t : Token) : Prop :=
  t ∉ [Token.keyword .constraint, .semicolon, .finish, .rightParen]

/-- Lexemes of these tokens are read as this element, if a separator stands behind them. -/
def ReadsAs (dialect : Dialect) (table : String) (ts : List Token) (e : Element) : Prop :=
  ∀ rest s, Begins ts rest s → IsSeparator rest.current →
    ∃ l after, s = l :: after ∧ StartsElement l.token ∧ element dialect table l after = .ok (e, rest)

/-- A column begins with its name. -/
theorem readsAs_named {dialect : Dialect} {table name : String} {t : Token}
    (ht : t.name? = some name) (hother : beginsOther t = false) {ts : List Token} {c : Column}
    {rs : List ForeignKey}
    (h : ∀ rest s, Begins ts rest s → IsSeparator rest.current →
      column dialect table name s = .ok ((c, rs), rest)) :
    ReadsAs dialect table (t :: ts) (.column c rs) := by
  intro rest s hs hrest
  obtain ⟨l, after, rfl, rfl, htail⟩ := begins_cons.1 hs
  have hcolumn := h rest after htail hrest
  refine ⟨l, after, rfl, ?_, ?_⟩
  · intro hmem
    simp only [List.mem_cons, List.not_mem_nil, or_false] at hmem
    rcases hmem with hl | hl | hl | hl <;> simp [hl, Token.name?] at ht
  · rw [element]
    split
    case h_7 => simp [hother, ht, hcolumn, Except.map]
    all_goals simp_all [Token.name?]

theorem readsAs_column (dialect : Dialect) (table : String) (c : WrittenColumn) :
    ReadsAs dialect table c.tokens
      (.column ⟨c.name, c.type.name, modifiersOf (c.options.map WrittenOption.reading)⟩
        (referencesOf table c.name (c.options.map WrittenOption.reading))) :=
  readsAs_named rfl rfl fun _ _ h hrest => column_begins dialect table c.name c.type h hrest

/-- A column of a type of one word, without options. -/
theorem column_word (dialect : Dialect) (table name : String) {w : String} (hw : ' ' ∉ w.toList)
    {rest s : Input} (h : Begins [.word w] rest s) (hrest : IsSeparator rest.current) :
    column dialect table name s
      = .ok ((⟨name, TypeName.canonical dialect w, []⟩, []), rest) := by
  rw [column, columnType?_word table hw h hrest.isFollower]
  simp only [columnOptions_separator table hrest]
  rfl

theorem readsAs_word (dialect : Dialect) (table name : String) {w : String} (hw : ' ' ∉ w.toList) :
    ReadsAs dialect table [.quoted name, .word w]
      (.column ⟨name, TypeName.canonical dialect w, []⟩ []) :=
  readsAs_named rfl rfl fun _ _ h hrest => column_word dialect table name hw h hrest

/-- What a key is read as. -/
def WrittenKey.reading (table : String) : WrittenKey → Element
  | primary columns => .key (.primary columns)
  | unique columns => .key (.unique columns)
  | foreign columns target targetColumns => .reference ⟨table, columns, target, targetColumns⟩

theorem foreignKey_begins (table : String) {columns targetColumns : List String} {target : String}
    {rest s : Input}
    (h : Begins (.keyword .key :: (listTokens columns
      ++ .keyword .references :: .quoted target :: listTokens targetColumns)) rest s)
    (hrest : IsSeparator rest.current) :
    foreignKey table s = .ok (⟨table, columns, target, targetColumns⟩, rest) := by
  obtain ⟨l, after, rfl, hl, htail⟩ := begins_cons.1 h
  obtain ⟨middle, hcolumns, htarget⟩ := begins_append.1 htail
  obtain ⟨l', after', rfl, hl', hreference⟩ := begins_cons.1 htarget
  have hkey : Input.startsWith (.keyword .key) (l :: after) = true := startsWith_of_current hl
  have hword : Input.startsWith (.keyword .references) (l' :: after') = true :=
    startsWith_of_current hl'
  rw [foreignKey, if_pos hkey, eat_cons hl, columnList_begins table hcolumns]
  simp only [hword, if_pos, eat_cons hl', reference_begins table hreference, Except.map,
    skipActions_of_current hrest.isFollower.ne_on]

theorem readsAs_key (dialect : Dialect) (table : String) (k : WrittenKey) :
    ReadsAs dialect table k.tokens (k.reading table) := by
  intro rest s h hrest
  have hskip := skipElement_of_separator table hrest
  cases k with
  | primary columns =>
    obtain ⟨l, after, rfl, hl, htail⟩ := begins_cons.1 h
    obtain ⟨l', after, rfl, hl', hlist⟩ := begins_cons.1 htail
    refine ⟨l, l' :: after, rfl, by simp [hl, StartsElement], ?_⟩
    simp [element, hl, eat_cons hl', columnList_begins table hlist, hskip, Except.map,
      WrittenKey.reading]
  | unique columns =>
    obtain ⟨l, after, rfl, hl, hlist⟩ := begins_cons.1 h
    refine ⟨l, after, rfl, by simp [hl, StartsElement], ?_⟩
    simp [element, hl, columnList_begins table hlist, hskip, Except.map, WrittenKey.reading]
  | foreign columns target targetColumns =>
    obtain ⟨l, after, rfl, hl, htail⟩ := begins_cons.1 h
    refine ⟨l, after, rfl, by simp [hl, StartsElement], ?_⟩
    simp [element, hl, foreignKey_begins table htail hrest, hskip, Except.map, WrittenKey.reading]

theorem skipConstraintNames_of_ne {l : Lexeme} (h : l.token ≠ .keyword .constraint) (rest : Input) :
    skipConstraintNames (l :: rest) = l :: rest := by
  rw [skipConstraintNames, if_neg h]

/-- Once an element is read, the token behind it decides how the elements go on. -/
theorem elements_of_ok {dialect : Dialect} {table : String} {s after rest : Input} {l l' : Lexeme}
    {e : Element} (hs : skipConstraintNames s = l :: after)
    (hl : l.token ∉ [Token.semicolon, .finish, .rightParen])
    (he : element dialect table l after = .ok (e, l' :: rest)) :
    elements dialect table s
      = match l'.token with
        | .comma => (elements dialect table rest).map fun (es, left) => (e :: es, left)
        | .rightParen => .ok ([e], rest)
        | .semicolon | .finish => .error (.unexpectedEnd table)
        | _ => .error (.expected "',' or ')'" l'.token l'.offset) := by
  simp only [List.mem_cons, not_or] at hl
  obtain ⟨hsemicolon, hfinish, hclose, -⟩ := hl
  rw [elements.eq_def]
  split
  · simp_all
  · rename_i l1 after1 hs1
    obtain ⟨rfl, rfl⟩ := List.cons.inj (hs.symm.trans hs1)
    split
    · contradiction
    · contradiction
    · contradiction
    · split
      · simp_all
      · simp_all
      · rename_i he1
        obtain ⟨rfl, rfl, rfl⟩ : _ = e ∧ _ = l' ∧ _ = rest := by simpa [he] using he1.symm
        rfl

/-- Elements are refused with the first of them. -/
theorem elements_of_error {dialect : Dialect} {table : String} {s after : Input} {l : Lexeme}
    {err : ReadError} (hs : skipConstraintNames s = l :: after)
    (hl : l.token ∉ [Token.semicolon, .finish, .rightParen])
    (he : element dialect table l after = .error err) : elements dialect table s = .error err := by
  simp only [List.mem_cons, not_or] at hl
  obtain ⟨hsemicolon, hfinish, hclose, -⟩ := hl
  rw [elements.eq_def]
  split
  · simp_all
  · rename_i l1 after1 hs1
    obtain ⟨rfl, rfl⟩ := List.cons.inj (hs.symm.trans hs1)
    split
    · contradiction
    · contradiction
    · contradiction
    · split <;> simp_all

theorem elements_element {dialect : Dialect} {table : String} {l l' : Lexeme} {after rest : Input}
    {e : Element} (hl : StartsElement l.token)
    (he : element dialect table l after = .ok (e, l' :: rest)) :
    elements dialect table (l :: after)
      = match l'.token with
        | .comma => (elements dialect table rest).map fun (es, left) => (e :: es, left)
        | .rightParen => .ok ([e], rest)
        | .semicolon | .finish => .error (.unexpectedEnd table)
        | _ => .error (.expected "',' or ')'" l'.token l'.offset) := by
  simp only [StartsElement, List.mem_cons, not_or] at hl
  obtain ⟨hconstraint, hsemicolon, hfinish, hclose, -⟩ := hl
  exact elements_of_ok (skipConstraintNames_of_ne hconstraint after)
    (by simp [hsemicolon, hfinish, hclose]) he

/-- **Elements with commas between them are read one after another**, up to the parenthesis that
closes the table. -/
theorem elements_begins {dialect : Dialect} {table : String} (p : List Token × Element)
    (ps : List (List Token × Element)) (h : ∀ q ∈ p :: ps, ReadsAs dialect table q.1 q.2)
    {rest s : Input}
    (hs : Begins ([Token.comma].intercalate ((p :: ps).map Prod.fst) ++ [.rightParen]) rest s) :
    StartsElement s.current
      ∧ elements dialect table s = .ok ((p :: ps).map Prod.snd, rest) := by
  induction ps generalizing p s with
  | nil =>
    rw [List.map_singleton, List.intercalate_singleton] at hs
    obtain ⟨middle, hp, hclose⟩ := begins_append.1 hs
    obtain ⟨l', rfl, hl'⟩ := begins_singleton.1 hclose
    obtain ⟨l, after, rfl, hl, he⟩ := h p List.mem_cons_self _ _ hp (.inr hl')
    refine ⟨hl, ?_⟩
    rw [elements_element hl he, hl']
    rfl
  | cons q ps ih =>
    rw [List.map_cons, List.map_cons, List.intercalate_cons_cons, ← List.map_cons,
      List.append_assoc, List.append_assoc, List.singleton_append] at hs
    obtain ⟨middle, hp, htail⟩ := begins_append.1 hs
    obtain ⟨l', left, rfl, hl', hmore⟩ := begins_cons.1 htail
    obtain ⟨l, after, rfl, hl, he⟩ := h p List.mem_cons_self _ _ hp (.inl hl')
    have hread := (ih q (fun r hr => h r (List.mem_cons_of_mem _ hr)) hmore).2
    refine ⟨hl, ?_⟩
    rw [elements_element hl he, hl']
    simp only [hread]
    rfl

theorem tableBody_begins {dialect : Dialect} {table : String} (ps : List (List Token × Element))
    (h : ∀ q ∈ ps, ReadsAs dialect table q.1 q.2) {rest s : Input}
    (hs : Begins ([Token.comma].intercalate (ps.map Prod.fst) ++ [.rightParen]) rest s) :
    tableBody dialect table s = .ok (ps.map Prod.snd, rest) := by
  cases ps with
  | nil =>
    obtain ⟨l, rfl, hl⟩ := begins_singleton.1 hs
    rw [tableBody, if_pos hl]
    rfl
  | cons p ps =>
    obtain ⟨hstart, hread⟩ := elements_begins p ps h hs
    cases s with
    | nil => exact absurd hstart (by simp [Input.current, StartsElement])
    | cons l after =>
      have hl : l.token ≠ .rightParen := by
        rintro hl
        exact absurd hstart (by simp [Input.current, hl, StartsElement])
      rw [tableBody, if_neg hl, hread]

/-! ### What the elements of a table make up -/

theorem modifier?_reading (o : WrittenOption) : o.reading.modifier? = o.modifier? := by
  cases o <;> rfl

theorem contains_primaryKey_reading (os : List WrittenOption) :
    (os.map WrittenOption.reading).contains .primaryKey = os.contains .primaryKey := by
  induction os with
  | nil => rfl
  | cons o os ih =>
    rw [List.map_cons, List.contains_cons, List.contains_cons, ih]
    cases o <;> rfl

/-- The modifiers that the options of a column give by themselves. -/
theorem modifiersOf_reading (os : List WrittenOption) :
    modifiersOf (os.map WrittenOption.reading)
      = (if os.contains .primaryKey then [.primaryKey] else [])
        ++ os.filterMap WrittenOption.modifier? := by
  have hothers : (os.map WrittenOption.reading).filterMap ColumnOption.modifier?
      = os.filterMap WrittenOption.modifier? := by
    rw [List.filterMap_map]
    congr 1
    exact funext modifier?_reading
  rw [modifiersOf, hothers, contains_primaryKey_reading]
  by_cases hp : os.contains .primaryKey = true
  · rw [if_pos hp, if_pos hp]
    rfl
  · rw [if_neg hp, if_neg hp]
    rfl

theorem primaryKey_not_mem_modifiers (os : List WrittenOption) :
    Modifier.primaryKey ∉ os.filterMap WrittenOption.modifier? := by
  intro h
  obtain ⟨o, -, ho⟩ := List.mem_filterMap.1 h
  cases o <;> simp [WrittenOption.modifier?] at ho

/-- Marking adds the primary key where it is not given, and in front. -/
theorem withPrimaryKey_modifiers (name type : String) {others : List Modifier}
    (h : Modifier.primaryKey ∉ others) (given marked : Bool) :
    (if marked
      then Column.withPrimaryKey ⟨name, type, (if given then [.primaryKey] else []) ++ others⟩
      else ⟨name, type, (if given then [.primaryKey] else []) ++ others⟩)
      = ⟨name, type, (if given || marked then [.primaryKey] else []) ++ others⟩ := by
  cases given <;> cases marked <;> simp [Column.withPrimaryKey, Column.has, h]

theorem column_marked (t : WrittenTable) (c : WrittenColumn) :
    (if (t.keys.flatMap WrittenKey.primaryColumns).contains c.name
      then Column.withPrimaryKey ⟨c.name, c.type.name,
        modifiersOf (c.options.map WrittenOption.reading)⟩
      else ⟨c.name, c.type.name, modifiersOf (c.options.map WrittenOption.reading)⟩)
      = t.column c := by
  rw [modifiersOf_reading]
  exact withPrimaryKey_modifiers _ _ (primaryKey_not_mem_modifiers c.options) _ _

theorem referencesOf_reading (table column : String) (os : List WrittenOption) :
    referencesOf table column (os.map WrittenOption.reading)
      = os.filterMap (WrittenOption.foreignKey? table column) := by
  rw [referencesOf, List.filterMap_map]
  congr 1
  funext o
  cases o <;> rfl

namespace WrittenTable

/-- The tokens of each element, with what they are read as. -/
def elements (t : WrittenTable) : List (List Token × Element) :=
  t.columns.map (fun c => (c.tokens,
      .column ⟨c.name, c.type.name, modifiersOf (c.options.map WrittenOption.reading)⟩
        (referencesOf t.name c.name (c.options.map WrittenOption.reading))))
    ++ t.keys.map fun k => (k.tokens, k.reading t.name)

theorem map_fst_elements (t : WrittenTable) : t.elements.map Prod.fst = t.elementTokens := by
  rw [elements, List.map_append, List.map_map, List.map_map]
  rfl

theorem readsAs_elements (dialect : Dialect) (t : WrittenTable) :
    ∀ q ∈ t.elements, ReadsAs dialect t.name q.1 q.2 := by
  intro q hq
  rcases List.mem_append.1 hq with hq | hq
  · obtain ⟨c, -, rfl⟩ := List.mem_map.1 hq
    exact readsAs_column dialect t.name c
  · obtain ⟨k, -, rfl⟩ := List.mem_map.1 hq
    exact readsAs_key dialect t.name k

theorem filterMap_column?_elements (t : WrittenTable) :
    (t.elements.map Prod.snd).filterMap Element.column?
      = t.columns.map fun c =>
          ⟨c.name, c.type.name, modifiersOf (c.options.map WrittenOption.reading)⟩ := by
  have hkeys : ∀ k : WrittenKey, (k.reading t.name).column? = none := by
    intro k
    cases k <;> rfl
  have hcolumns : ∀ c rs, (Element.column c rs).column? = some c := fun _ _ => rfl
  simp [elements, Function.comp_def, List.filterMap_map, hcolumns, hkeys]

theorem filterMap_key?_elements (t : WrittenTable) :
    (t.elements.map Prod.snd).filterMap Element.key? = t.keys.filterMap WrittenKey.key? := by
  have hkeys : ∀ k : WrittenKey, (k.reading t.name).key? = k.key? := by
    intro k
    cases k <;> rfl
  have hcolumns : ∀ c rs, (Element.column c rs).key? = none := fun _ _ => rfl
  have hnone : t.columns.filterMap (fun _ => (none : Option Key)) = [] := by simp
  simp [elements, Function.comp_def, List.filterMap_map, hcolumns, hkeys, hnone]

theorem flatMap_references_elements (t : WrittenTable) :
    (t.elements.map Prod.snd).flatMap Element.references = t.foreignKeys := by
  have hkeys : t.keys.flatMap (fun k => (k.reading t.name).references)
      = t.keys.filterMap (WrittenKey.foreignKey? t.name) := by
    induction t.keys with
    | nil => rfl
    | cons k ks ih =>
      rw [List.flatMap_cons, ih]
      cases k <;> rfl
  have hcolumns : ∀ c rs, (Element.column c rs).references = rs := fun _ _ => rfl
  simp [elements, foreignKeys, List.flatMap_map, hcolumns, referencesOf_reading, hkeys]

/-- The columns that the keys beside the columns name. -/
theorem flatMap_primaryColumns (ks : List WrittenKey) :
    (ks.filterMap WrittenKey.key?).flatMap Key.primaryColumns
      = ks.flatMap WrittenKey.primaryColumns := by
  induction ks with
  | nil => rfl
  | cons k ks ih =>
    rw [List.flatMap_cons, ← ih]
    cases k <;> rfl

/-- **The elements of a table make up the entity that it declares.** -/
theorem ofElements_elements (t : WrittenTable) :
    Entity.ofElements t.name (t.elements.map Prod.snd) = t.entity := by
  have hcolumns := t.filterMap_column?_elements
  have hkeys := t.filterMap_key?_elements
  have hmarked : t.columns.map t.column = t.columns.map fun c =>
      if (t.keys.flatMap WrittenKey.primaryColumns).contains c.name
      then Column.withPrimaryKey ⟨c.name, c.type.name,
        modifiersOf (c.options.map WrittenOption.reading)⟩
      else ⟨c.name, c.type.name, modifiersOf (c.options.map WrittenOption.reading)⟩ :=
    List.map_congr_left fun c _ => (column_marked t c).symm
  rw [Entity.ofElements, hcolumns, hkeys, entity, hmarked]
  simp only [Entity.markPrimary, Entity.primaryColumns, flatMap_primaryColumns, List.map_map]
  rfl

end WrittenTable

/-! ### Statements -/

/-- No word may stand in front of a keyword. -/
theorem skipTableWords_of_keyword {s : Input} {k : Keyword} (h : s.current = .keyword k) :
    skipTableWords s = s := by
  have hword : ∀ word, s.eatWord word = s := by
    intro word
    cases s with
    | nil => rfl
    | cons l rest =>
      have hl : l.token = .keyword k := h
      rw [eatWord, hl]
      rfl
  simp only [skipTableWords, List.foldl, hword]

/-- Behind the name of a table its body decides. -/
theorem createTable_of_name {dialect : Dialect} {name : String} {l : Lexeme} {s inside : Input}
    (hname : qualifiedName? s = some (name, l :: inside)) (hl : l.token = .leftParen) :
    createTable dialect s
      = (tableBody dialect name inside).map fun (es, left) =>
          ([.declare (Entity.ofElements name es) (es.flatMap Element.references)],
            skipStatement left) := by
  have hopen : Input.current (l :: inside) = .leftParen := hl
  rw [createTable, hname]
  simp only [startsWith_of_current hopen, if_pos, eat_cons hl]

/-- A table is read up to its closing parenthesis, and the rest of its statement is skipped. -/
theorem createTable_body {dialect : Dialect} {name : String} {ps : List (List Token × Element)}
    (h : ∀ q ∈ ps, ReadsAs dialect name q.1 q.2) {rest s : Input}
    (hs : Begins (.quoted name :: .leftParen ::
      ([Token.comma].intercalate (ps.map Prod.fst) ++ [.rightParen])) rest s) :
    createTable dialect s
      = .ok ([.declare (Entity.ofElements name (ps.map Prod.snd))
          ((ps.map Prod.snd).flatMap Element.references)], skipStatement rest) := by
  obtain ⟨l, after, rfl, hl, htail⟩ := begins_cons.1 hs
  obtain ⟨l', inside, rfl, hl', hinside⟩ := begins_cons.1 htail
  have hopen : Input.current (l' :: inside) = .leftParen := hl'
  have hname : qualifiedName? (l :: l' :: inside) = some (name, l' :: inside) :=
    qualifiedName?_quoted hl (by simp [hopen])
  rw [createTable_of_name hname hl', tableBody_begins ps h hinside]
  rfl

theorem createTable_begins (dialect : Dialect) (t : WrittenTable) {rest s : Input}
    (h : Begins (.quoted t.name :: .leftParen ::
      ([Token.comma].intercalate t.elementTokens ++ [.rightParen, .semicolon])) rest s) :
    createTable dialect s = .ok ([.declare t.entity t.foreignKeys], rest) := by
  have htokens : (Token.quoted t.name :: .leftParen ::
      ([Token.comma].intercalate t.elementTokens ++ [.rightParen, .semicolon]))
      = (.quoted t.name :: .leftParen ::
          ([Token.comma].intercalate (t.elements.map Prod.fst) ++ [.rightParen]))
        ++ [.semicolon] := by
    simp [t.map_fst_elements]
  rw [htokens] at h
  obtain ⟨middle, hbody, hend⟩ := begins_append.1 h
  obtain ⟨l, rfl, hl⟩ := begins_singleton.1 hend
  rw [createTable_body (t.readsAs_elements dialect) hbody, t.ofElements_elements,
    t.flatMap_references_elements, skipStatement_of_semicolon hl]

/-- A statement that declares a table, without `IF NOT EXISTS`. -/
theorem createStatement_of_current (dialect : Dialect) {l : Lexeme} (hl : l.token = .keyword .table)
    {after : Input} (hafter : after.current ≠ .keyword .if) :
    createStatement dialect (l :: after) = createTable dialect after := by
  have hcurrent : Input.current (l :: after) = .keyword .table := hl
  have hif : skipIfNotExists after = after := by
    rw [skipIfNotExists, startsWith_of_ne hafter]
    rfl
  rw [createStatement, skipTableWords_of_keyword hcurrent]
  simp only [startsWith_of_current hcurrent, if_pos, eat_cons hl, hif]

theorem createStatement_of_quoted (dialect : Dialect) {l : Lexeme} (hl : l.token = .keyword .table)
    {name : String} {after : Input} (hname : after.current = .quoted name) :
    createStatement dialect (l :: after) = createTable dialect after :=
  createStatement_of_current dialect hl (by simp [hname])

theorem createStatement_begins (dialect : Dialect) (t : WrittenTable) {rest s : Input}
    (h : Begins (.keyword .table :: .quoted t.name :: .leftParen ::
      ([Token.comma].intercalate t.elementTokens ++ [.rightParen, .semicolon])) rest s) :
    createStatement dialect s = .ok ([.declare t.entity t.foreignKeys], rest) := by
  obtain ⟨l, after, rfl, hl, htail⟩ := begins_cons.1 h
  rw [createStatement_of_quoted dialect hl htail.current]
  exact createTable_begins dialect t htail

/-- A statement changes the schema, and the statements behind it follow. -/
theorem statements_create {dialect : Dialect} (schema : Schema) {l : Lexeme}
    (hl : l.token = .keyword .create) {after left : Input} {changes : List Change}
    (h : createStatement dialect after = .ok (changes, left)) :
    statements dialect schema (l :: after)
      = statements dialect (schema.applyAll changes) left := by
  rw [statements.eq_def]
  simp only [hl]
  split
  · rename_i herror
    rw [h] at herror
    contradiction
  · rename_i hok
    obtain ⟨rfl, rfl⟩ : _ = changes ∧ _ = left := by simpa [h] using hok.symm
    rfl

theorem statements_create_error {dialect : Dialect} (schema : Schema) {l : Lexeme}
    (hl : l.token = .keyword .create) {after : Input} {err : ReadError}
    (h : createStatement dialect after = .error err) :
    statements dialect schema (l :: after) = .error err := by
  rw [statements.eq_def]
  simp only [hl]
  split <;> simp_all

theorem statements_alter {dialect : Dialect} (schema : Schema) {l : Lexeme}
    (hl : l.token = .keyword .alter) {after left : Input} {changes : List Change}
    (h : alterStatement after = .ok (changes, left)) :
    statements dialect schema (l :: after)
      = statements dialect (schema.applyAll changes) left := by
  rw [statements.eq_def]
  simp only [hl]
  split
  · rename_i herror
    rw [h] at herror
    contradiction
  · rename_i hok
    obtain ⟨rfl, rfl⟩ : _ = changes ∧ _ = left := by simpa [h] using hok.symm
    rfl

/-- A token that begins no statement is passed over. -/
theorem statements_other {dialect : Dialect} (schema : Schema) {l : Lexeme}
    (hl : l.token ∉ [Token.finish, .keyword .create, .keyword .alter]) (rest : Input) :
    statements dialect schema (l :: rest) = statements dialect schema rest := by
  simp only [List.mem_cons, not_or] at hl
  obtain ⟨hfinish, hcreate, halter, -⟩ := hl
  rw [statements.eq_def]
  simp only

theorem statements_finish (dialect : Dialect) (schema : Schema) {s : Input}
    (h : s.current = .finish) : statements dialect schema s = .ok schema := by
  cases s with
  | nil => rw [statements.eq_def]
  | cons l rest =>
    have hl : l.token = .finish := h
    rw [statements.eq_def]
    simp only [hl]

/-- A declared table is put into the schema, and the statements behind it follow. -/
theorem statements_table (dialect : Dialect) (schema : Schema) (t : WrittenTable) {rest s : Input}
    (h : Begins t.tokens rest s) :
    statements dialect schema s
      = statements dialect (schema.declare t.entity t.foreignKeys) rest := by
  obtain ⟨l, after, rfl, hl, htail⟩ := begins_cons.1 h
  exact statements_create schema hl (createStatement_begins dialect t htail)

/-- An entity of a new name is put behind the others. -/
theorem declare_of_new {schema : Schema} {e : Entity} (references : List ForeignKey)
    (h : e.name ∉ schema.entities.map Entity.name) :
    schema.declare e references
      = ⟨schema.entities ++ [e], schema.foreignKeys ++ references⟩ := by
  have hnew : schema.entities.any (fun old => old.name == e.name) = false := by
    rw [List.any_eq_false]
    intro old hold
    have hne : old.name ≠ e.name := fun heq => h (List.mem_map.2 ⟨old, hold, heq⟩)
    simpa using hne
  rw [Schema.declare, hnew]
  rfl

/-- **Tables of new names are put into the schema one after another.** -/
theorem statements_begins (dialect : Dialect) (schema : Schema) {ts : List WrittenTable}
    (hnames : (schema.entities.map Entity.name ++ ts.map WrittenTable.name).Nodup)
    {l : Lexeme} (hl : l.token = .finish) {s : Input} (h : Begins (scriptTokens ts) [l] s) :
    statements dialect schema s
      = .ok ⟨schema.entities ++ ts.map WrittenTable.entity,
          schema.foreignKeys ++ ts.flatMap WrittenTable.foreignKeys⟩ := by
  induction ts generalizing schema s with
  | nil =>
    obtain rfl := begins_nil.1 h
    have hfinish : Input.current [l] = .finish := hl
    rw [statements_finish dialect schema hfinish]
    simp
  | cons t ts ih =>
    obtain ⟨middle, ht, hts⟩ := begins_append.1 h
    have hnew : t.entity.name ∉ schema.entities.map Entity.name := by
      intro hmem
      exact (List.nodup_append.1 hnames).2.2 t.name hmem t.name List.mem_cons_self rfl
    have hrest : ((schema.entities ++ [t.entity]).map Entity.name
        ++ ts.map WrittenTable.name).Nodup := by
      rw [List.map_append, List.append_assoc]
      exact hnames
    rw [statements_table dialect schema t ht, declare_of_new t.foreignKeys hnew,
      ih ⟨_, _⟩ hrest hts, List.append_assoc, List.append_assoc]
    rfl

/-- **A canonical script is read as exactly what it declares**, in every dialect. -/
theorem read_scriptOf (dialect : Dialect) {ts : List WrittenTable}
    (h : (ts.map WrittenTable.name).Nodup) :
    Schema.read dialect (scriptOf ts) = .ok (schemaOf ts) := by
  obtain ⟨rest, hscript, hrest⟩ := begins_of_map_token (map_token_scan_scriptOf ts)
  obtain ⟨l, left, rfl, hl, hleft⟩ := List.map_eq_cons_iff.1 hrest
  obtain rfl := List.map_eq_nil_iff.1 hleft
  exact statements_begins dialect Schema.empty h hl hscript

/-- Two tables with a key of two columns, a quote in a name, a quote and a backslash in a default,
and keys beside the columns. -/
def ordersTables : List WrittenTable :=
  [⟨"users",
    [⟨"id", .integer, [.autoIncrement, .primaryKey]⟩,
     ⟨"e\"mail", .varchar 120, [.notNull, .default "a\\'b", .unique]⟩],
    [.unique ["e\"mail"]]⟩,
   ⟨"order lines",
    [⟨"user", .integer, [.references "users" "id"]⟩, ⟨"row", .text, []⟩,
     ⟨"price", .decimal 10 2, [.notNull]⟩],
    [.primary ["user", "row"], .foreign ["row"] "rows" ["id"]]⟩]

theorem read_ordersTables :
    (ordersTables.map WrittenTable.name).Nodup
      ∧ Schema.read .mySql (scriptOf ordersTables) = .ok
        { entities :=
            [⟨"users",
              [⟨"id", "integer", [.primaryKey, .increment]⟩,
               ⟨"e\"mail", "varchar(120)", [.notNull, .unique]⟩],
              [.unique ["e\"mail"]]⟩,
             ⟨"order lines",
              [⟨"user", "integer", [.primaryKey]⟩, ⟨"row", "text", [.primaryKey]⟩,
               ⟨"price", "decimal(10,2)", [.notNull]⟩],
              [.primary ["user", "row"]]⟩]
          foreignKeys :=
            [⟨"order lines", ["user"], "users", ["id"]⟩,
             ⟨"order lines", ["row"], "rows", ["id"]⟩] } := by
  have h : (ordersTables.map WrittenTable.name).Nodup := by decide
  exact ⟨h, (read_scriptOf .mySql h).trans (congrArg Except.ok (by decide +kernel))⟩

end SchemaAudit.Ddl
