import SchemaAudit.Proofs.Ddl.Redeclare
import SchemaAudit.Proofs.Token.Literal

/-!
# Columns with a text as default

What a default is does not matter to the schema, only where it ends. A text in quotes ends at its
closing quote if no backslash takes a quote along, whatever else stands in it: commas, parentheses,
marks of comments, doubled quotes.

* `defaultTable`: the declaration of a column with a default, and of a column behind it.
* `column_default`: the option is passed over, and the column goes on behind the literal.
* `read_defaultTable`: both columns are read, in every dialect.
* `read_defaultTable_error`: behind a backslash at the end of the text the rest of the declaration is
  taken for a part of it.
-/

namespace SchemaAudit.Ddl

open Input
open Token (doubled keepsQuotes)

/-! ### The declaration -/

/-- A column with the text `s` as default, and a column behind it. -/
def defaultTable (s : String) : String :=
  declaration "t" ("a text DEFAULT '" ++ String.ofList (doubled '\x27' false s.toList)
    ++ "', b integer")

example : defaultTable "it's (1, 2) -- all"
    = "CREATE TABLE t (a text DEFAULT 'it''s (1, 2) -- all', b integer);" := by decide

def defaultSchema : Schema := ⟨[⟨"t", [⟨"a", "text", []⟩, ⟨"b", "integer", []⟩], []⟩], []⟩

/-- The tokens of the column with the default. -/
def defaultTokens (value : String) : List Token :=
  [.word "a", .word "text", .keyword .default, .literal value]

/-! ### The column -/

theorem columnOptions_default (table : String) {value : String} {l l' : Lexeme}
    (hl : l.token = .keyword .default) (hl' : l'.token = .literal value) {rest : Input}
    (hrest : rest.current ≠ .symbol ':') :
    columnOptions table (l :: l' :: rest)
      = (columnOptions table rest).map fun (options, left) => (.other :: options, left) := by
  have hoption : columnOption table l.token (l' :: rest) = .ok (.other, rest) := by
    rw [hl, columnOption, skipDefault_literal table hl' hrest]
    rfl
  exact columnOptions_option (by simp [hl, IsArgument]) (by simp [hl]) hoption

/-- The options behind a default are those of the column. -/
theorem column_default (dialect : Dialect) (table name : String) {w value : String}
    (hw : ' ' ∉ w.toList) {rest s : Input}
    (h : Begins [.word w, .keyword .default, .literal value] rest s)
    (hrest : rest.current ≠ .symbol ':') :
    column dialect table name s = (columnOptions table rest).map fun (options, left) =>
      ((⟨name, TypeName.canonical dialect w, modifiersOf (.other :: options)⟩,
        referencesOf table name (.other :: options)), left) := by
  obtain ⟨l, after, rfl, hl, hoption⟩ := begins_cons.1 h
  obtain ⟨l', after, rfl, hl', hvalue⟩ := begins_cons.1 hoption
  obtain ⟨l'', rfl, hl''⟩ := begins_singleton.1 hvalue
  have hfollower : IsFollower (Input.current (l' :: l'' :: rest)) := by
    rw [show Input.current (l' :: l'' :: rest) = .keyword .default from hl']
    exact (WrittenOption.default value).isFollower_first
  have htype := columnType?_word table hw (begins_singleton.2 ⟨l, rfl, hl⟩) hfollower
  rw [column, htype]
  simp only [columnOptions_default table hl' hl'' hrest]
  cases columnOptions table rest <;> rfl

theorem readsAs_default (dialect : Dialect) (table : String) {name w value : String}
    (hname : beginsOther (.word name) = false) (hw : ' ' ∉ w.toList) :
    ReadsAs dialect table [.word name, .word w, .keyword .default, .literal value]
      (.column ⟨name, TypeName.canonical dialect w, []⟩ []) := by
  refine readsAs_named rfl hname fun rest s h hrest => ?_
  rw [column_default dialect table name hw h hrest.isFollower.ne_colon,
    columnOptions_separator table hrest]
  rfl

/-! ### Texts that keep their quotes -/

/-- **The default is one token, and the other column stands behind it.** -/
theorem scans_defaultBody {s : String} (h : keepsQuotes s.toList = true) :
    ∃ value, Token.Scans (defaultTokens value ++ [.comma, .word "b", .word "integer"])
      ("a text DEFAULT '" ++ String.ofList (doubled '\x27' false s.toList)
        ++ "', b integer").toList := by
  obtain ⟨value, hvalue⟩ := Token.exists_step_literal h
  have hb : (Token.word "b").Writable := ⟨by decide, by decide⟩
  have hinteger : Token.Scans [.word "integer"] "integer".toList := Token.scans_word (by decide)
  have hrest : Token.Scans [.comma, .word "b", .word "integer"] ", b integer".toList :=
    (hinteger.cons_spelling hb).cons_space.cons_punctuation rfl
  have hliteral : Token.Scans [.literal value, .comma, .word "b", .word "integer"]
      ('\x27' :: (doubled '\x27' false s.toList ++ '\x27' :: ", b integer".toList)) := by
    intro size t ht
    have hstep := hvalue (", b integer".toList ++ t) (by simp)
    have htokens := hrest size t ht
    rw [List.cons_append, List.append_assoc, List.cons_append, Token.scanFrom_take hstep,
      List.map_cons, htokens]
    rfl
  have ha : (Token.word "a").Writable := ⟨by decide, by decide⟩
  have htext : (Token.word "text").Writable := ⟨by decide, by decide⟩
  have hall := ((hliteral.cons_spelling (Token.writable_keyword .default)).cons_spelling
    htext).cons_spelling ha
  refine ⟨value, ?_⟩
  simpa [defaultTokens, Token.spelling, Keyword.spelling] using hall

/-- **A text in which no backslash takes a quote along disturbs nothing as a default**: both columns
are read, in every dialect. -/
theorem read_defaultTable (dialect : Dialect) {s : String} (h : keepsQuotes s.toList = true) :
    Schema.read dialect (defaultTable s) = .ok defaultSchema := by
  obtain ⟨value, hbody⟩ := scans_defaultBody h
  have hname : Token.Scans [.word "t"] "t".toList := Token.scans_word (by decide)
  obtain ⟨inside, rest, hinside, hread, -⟩ := read_declaration dialect
    (hname.before (by decide)) (namesTable_singleton rfl) (hbody.before (by decide))
  have hfirst : ReadsAs dialect "t" (defaultTokens value)
      (.column ⟨"a", TypeName.canonical dialect "text", []⟩ []) :=
    readsAs_default dialect "t" (by decide) (by decide)
  have hsecond : ReadsAs dialect "t" [.word "b", .word "integer"]
      (.column ⟨"b", TypeName.canonical dialect "integer", []⟩ []) :=
    readsAs_named rfl (by decide) fun _ _ hs => column_word dialect "t" "b" (by decide) hs
  have htable := tableBody_begins [(defaultTokens value, _), ([.word "b", .word "integer"], _)]
    (List.forall_mem_cons.2 ⟨hfirst, List.forall_mem_singleton.2 hsecond⟩) hinside
  have htext : TypeName.canonical dialect "text" = "text" := canonical_name dialect .text
  have hinteger : TypeName.canonical dialect "integer" = "integer" := canonical_name dialect .integer
  rw [defaultTable, hread _ htable, htext, hinteger]
  rfl

/-- Quotes, a comma, marks of a comment, and backslashes that take other characters along. -/
theorem read_defaultTable_path :
    keepsQuotes "it's, -- (in) C:\\new\\\\".toList = true ∧
      Schema.read .postgres (defaultTable "it's, -- (in) C:\\new\\\\") = .ok defaultSchema := by
  have h : keepsQuotes "it's, -- (in) C:\\new\\\\".toList = true := by decide +kernel
  exact ⟨h, read_defaultTable .postgres h⟩

/-! ### Texts that take the closing quote along -/

/-- The elements end behind a default. -/
theorem tableBody_default_error (dialect : Dialect) {value : String} {rest s : Input}
    (h : Begins (defaultTokens value) rest s) (hrest : rest.current = .finish) :
    tableBody dialect "t" s = .error (.unexpectedEnd "t") := by
  obtain ⟨l, after, rfl, hl, hcolumn⟩ := begins_cons.1 h
  have hread := column_default dialect "t" "a" (by decide) hcolumn (by simp [hrest])
  rw [columnOptions_finish "t" hrest] at hread
  have hother : beginsOther (.word "a") = false := by decide
  have helement : element dialect "t" l after = .error (.unexpectedEnd "t") := by
    simp [element, hl, hother, Token.name?, hread, Except.map]
  rw [tableBody, if_neg (by simp [hl]),
    elements_of_error (skipConstraintNames_of_ne (by simp [hl]) after) (by simp [hl]) helement]

theorem map_token_scan_defaultTable {s : String} (h : keepsQuotes s.toList = true) :
    ∃ value, (Token.scan (defaultTable (s ++ "\\"))).map Lexeme.token
      = .keyword .create :: .keyword .table :: .word "t" :: .leftParen
        :: (defaultTokens value ++ [.finish]) := by
  obtain ⟨value, hvalue⟩ := Token.exists_step_unclosed h (t := ", b integer);".toList) (by decide)
  have ht : (Token.word "t").Writable := ⟨by decide, by decide⟩
  have ha : (Token.word "a").Writable := ⟨by decide, by decide⟩
  have htext : (Token.word "text").Writable := ⟨by decide, by decide⟩
  have hopen : Token.Scans [.keyword .create, .keyword .table, .word "t", .leftParen, .word "a",
      .word "text", .keyword .default] "CREATE TABLE t (a text DEFAULT ".toList :=
    ((((((Token.Scans.nil.cons_spelling (Token.writable_keyword .default)).cons_spelling
      htext).cons_spelling ha).cons_punctuation rfl).cons_spelling ht).cons_spelling
      (Token.writable_keyword .table)).cons_spelling (Token.writable_keyword .create)
  have hsplit : (defaultTable (s ++ "\\")).toList
      = "CREATE TABLE t (a text DEFAULT ".toList
        ++ '\x27' :: (doubled '\x27' false (s.toList ++ ['\\'])
          ++ '\x27' :: ", b integer);".toList) := by
    simp [defaultTable, toList_declaration]
  refine ⟨value, ?_⟩
  rw [Token.scan, hsplit, hopen _ _ (Token.endsWord_cons (by decide) _),
    Token.scanFrom_take hvalue, Token.scanFrom_nil]
  rfl

/-- **Behind a backslash at the end of the default the declaration has no end**, and it is refused. -/
theorem read_defaultTable_error (dialect : Dialect) {s : String}
    (h : keepsQuotes s.toList = true) :
    Schema.read dialect (defaultTable (s ++ "\\")) = .error (.unexpectedEnd "t") := by
  obtain ⟨value, htokens⟩ := map_token_scan_defaultTable h
  obtain ⟨l, after, hscan, hl, hafter⟩ := List.map_eq_cons_iff.1 htokens
  obtain ⟨l₁, named, rfl, hl₁, hnamed⟩ := List.map_eq_cons_iff.1 hafter
  obtain ⟨l₂, opened, rfl, hl₂, hopened⟩ := List.map_eq_cons_iff.1 hnamed
  obtain ⟨l₃, inside, rfl, hl₃, hinside⟩ := List.map_eq_cons_iff.1 hopened
  obtain ⟨rest, hbody, hrest⟩ := begins_of_map_token hinside
  have hend : rest.current = .finish := by
    obtain ⟨l₄, rfl, hl₄⟩ := List.map_eq_singleton_iff.1 hrest
    exact hl₄
  have hopen : Input.current (l₃ :: inside) = .leftParen := hl₃
  have hname : qualifiedName? (l₂ :: l₃ :: inside) = some ("t", l₃ :: inside) :=
    namesTable_singleton rfl hopen (begins_singleton.2 ⟨l₂, rfl, hl₂⟩)
  have hcreate : createStatement dialect (l₁ :: l₂ :: l₃ :: inside)
      = .error (.unexpectedEnd "t") := by
    rw [createStatement_of_current dialect hl₁ (by simp [Input.current, hl₂]),
      createTable_of_name hname hl₃, tableBody_default_error dialect hbody hend]
    rfl
  rw [Schema.read, hscan, statements_create_error Schema.empty hl hcreate]

/-- A backslash alone is such a text. -/
theorem read_defaultTable_backslash :
    ¬∀ (dialect : Dialect) (s : String), dialect = .postgres ∨ dialect = .msSql →
      ∃ schema, Schema.read dialect (defaultTable s) = .ok schema ∧
        schema.entities.map (fun e => (e.name, e.columns.map Column.name)) = [("t", ["a", "b"])] := by
  intro hall
  have hrefused : Schema.read .postgres (defaultTable ("" ++ "\\")) = .error (.unexpectedEnd "t") :=
    read_defaultTable_error .postgres rfl
  obtain ⟨schema, hread, -⟩ := hall .postgres ("" ++ "\\") (.inl rfl)
  exact nomatch hrefused.symm.trans hread

end SchemaAudit.Ddl
