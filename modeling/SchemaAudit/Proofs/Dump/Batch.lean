import SchemaAudit.Proofs.Ddl.Script
import SchemaAudit.Proofs.Dialect.Batch
import SchemaAudit.Proofs.Outline.RoundTrip
import SchemaAudit.Proofs.Token.Piece

/-!
# Graphs of scripts in batches

A statement ends at a semicolon and nowhere else. The lines between the batches of a script go, and
they leave no semicolon, so that all tables behind the first are read as the end of its statement.

* `scans_line`: the tokens of a table on a line in double quotes.
* `read_line`: whatever stands behind the line without a semicolon is skipped.
* `exists_graph_batchScript`: the graph of a script has one table.
* `graph_batchScript_iff`: the scripts of which the graph has the declared tables.
-/

namespace SchemaAudit

/-! ### From declarations that are read to the graph -/

theorem Dump.graph_of_read {dialect : Dialect} {sql : String} {s : Ddl.Schema}
    (h : Ddl.Schema.read dialect (dialect.portable sql) = .ok s) :
    Dump.graph dialect sql = Dump.graphOfOutline (Outline.ofSchema s) := by
  have himport : importOutline dialect (dialect.portable sql) = .ok (Outline.ofSchema s) := by
    rw [importOutline, h]
  rw [Dump.graph, Dump.graphWith, Dump.outlineWith]
  simp only [himport]
  rfl

theorem Outline.tables_ofOutline {s : Ddl.Schema} (h : Outline.Writable s) :
    (Graph.ofOutline (Outline.ofSchema s)).tables = s.entities.map (Outline.tableOf s) := by
  rw [Graph.ofOutline, Graph.ofLines, Outline.foldl_add_outlineLines h]

namespace Dialect

open Ddl
open Token (Scans EndsWord)

namespace BatchTable

def columnTokens (name : String) : List Token := [.quoted name, .word "int"]

/-- The tokens of the table on a line. -/
def tokens (t : BatchTable) : List Token :=
  [.keyword .create, .keyword .table, .quoted t.name, .leftParen]
    ++ ([Token.comma].intercalate (t.columns.map columnTokens) ++ [.rightParen])

/-- The entity that the table declares. -/
def entity (t : BatchTable) : Entity :=
  ⟨t.name, t.columns.map fun c => ⟨c, "integer", []⟩, []⟩

/-- The table that the declaration stands for. -/
def table (t : BatchTable) : Table :=
  ⟨t.name, t.name, t.columns.map fun c => ⟨c, "integer", Tags.empty⟩⟩

end BatchTable

/-! ### The tokens of a line -/

theorem endsWord_enclosed (s t : List Char) : EndsWord (enclosed '\x22' '\x22' s ++ t) :=
  fun c hc => Option.some.inj hc ▸ by decide

/-- **The tokens of a line**, which ends in a parenthesis, so that anything may stand behind it. -/
theorem map_token_scanFrom_line {t : BatchTable} (ht : t.IsWritten) (size : Nat)
    (left : List Char) :
    (Token.scanFrom size (t.line '\x22' '\x22' ++ left)).map Lexeme.token
      = t.tokens ++ (Token.scanFrom size left).map Lexeme.token := by
  have hends : ∀ {c : Char} (s : List Char), Token.isWordPart c = false → EndsWord (c :: s) :=
    fun s hc d hd => Option.some.inj hd ▸ hc
  have hopen : Scans [.leftParen] ['('] := Token.scans_punctuation rfl
  have hmark : Scans [.comma] [','] := Token.scans_punctuation rfl
  have hint : Scans [.word "int"] "int".toList := Token.scans_word (by decide)
  have hcreate : Scans [.keyword .create, .keyword .table] "CREATE TABLE ".toList :=
    (Scans.nil.cons_spelling (Token.writable_keyword .table)).cons_spelling
      (Token.writable_keyword .create)
  have hname : Scans [.quoted t.name, .leftParen]
      (enclosed '\x22' '\x22' t.name.toList ++ " (".toList) :=
    hopen.cons_quoted (ht.name.isIdentifier.not_mem (by decide))
  have hcomma : Scans [.comma] ", ".toList :=
    hmark.append (hends [] (by decide)) Token.scans_space
  have hcolumn : ∀ c ∈ t.columns, EndsWord (BatchTable.columnText '\x22' '\x22' c)
      ∧ Scans (BatchTable.columnTokens c) (BatchTable.columnText '\x22' '\x22' c) :=
    fun c hc => ⟨endsWord_enclosed _ _, hint.cons_quoted ((ht.column c hc).isIdentifier.not_mem (by decide))⟩
  obtain ⟨hfirst, hcolumns⟩ := Scans.join hcolumn (hends [' '] (by decide)) hcomma
  have hinside := hcreate.append ((endsWord_enclosed _ _).append hfirst)
    (hname.append hfirst hcolumns)
  have hall := hinside size (')' :: left) (hends left (by decide))
  rw [Token.scanFrom_take (Token.step_punctuation rfl left)] at hall
  unfold BatchTable.tokens BatchTable.line
  simp only [List.append_assoc] at hall ⊢
  exact hall

/-! ### The schema of a line -/

theorem canonical_int : TypeName.canonical .msSql "int" = "integer" := by decide

namespace BatchTable

/-- The tokens of each column, with what they are read as. -/
def elements (t : BatchTable) : List (List Token × Element) :=
  t.columns.map fun c => (columnTokens c, .column ⟨c, "integer", []⟩ [])

theorem map_fst_elements (t : BatchTable) :
    t.elements.map Prod.fst = t.columns.map columnTokens := by
  rw [elements, List.map_map]
  rfl

theorem readsAs_elements (t : BatchTable) :
    ∀ q ∈ t.elements, ReadsAs .msSql t.name q.1 q.2 := by
  intro q hq
  obtain ⟨c, -, rfl⟩ := List.mem_map.1 hq
  have hword := readsAs_word .msSql t.name c (w := "int") (by decide)
  rwa [canonical_int] at hword

theorem ofElements_elements (t : BatchTable) :
    Entity.ofElements t.name (t.elements.map Prod.snd) = t.entity := by
  have hcolumns : (t.elements.map Prod.snd).filterMap Element.column?
      = t.columns.map fun c => ⟨c, "integer", []⟩ := by
    simp [elements, Function.comp_def, List.filterMap_map, Element.column?]
  have hkeys : (t.elements.map Prod.snd).filterMap Element.key? = [] := by
    simp [elements, Function.comp_def, List.filterMap_map, Element.key?]
  rw [Entity.ofElements, hcolumns, hkeys]
  simp [Entity.markPrimary, Entity.primaryColumns, entity]

theorem flatMap_references_elements (t : BatchTable) :
    (t.elements.map Prod.snd).flatMap Element.references = [] := by
  simp [elements, Element.references]

end BatchTable

/-- **Whatever stands behind the line without a semicolon is skipped.** -/
theorem read_line {t : BatchTable} (ht : t.IsWritten) {left : List Char} (hleft : ';' ∉ left)
    {sql : String} (hsql : sql.toList = t.line '\x22' '\x22' ++ left) :
    Schema.read .msSql sql = .ok ⟨[t.entity], []⟩ := by
  have htokens := map_token_scanFrom_line ht (Text.byteSize sql.toList) left
  rw [← hsql] at htokens
  obtain ⟨rest, hbegins, hrest⟩ := Input.begins_of_map_token htokens
  have hend : (skipStatement rest).current = .finish := by
    refine current_skipStatement ?_
    rw [hrest]
    exact Token.semicolon_not_mem_scanFrom hleft _
  obtain ⟨l, after, hscan, hl, htail⟩ := Input.begins_cons.1 hbegins
  obtain ⟨l', after, rfl, hl', htable⟩ := Input.begins_cons.1 htail
  have hcreate : createStatement .msSql (l' :: after)
      = .ok ([.declare t.entity []], skipStatement rest) := by
    have hname : Input.current after = .quoted t.name := htable.current
    rw [← t.map_fst_elements] at htable
    rw [createStatement_of_quoted .msSql hl' hname, createTable_body t.readsAs_elements htable,
      t.ofElements_elements, t.flatMap_references_elements]
  show statements .msSql Schema.empty (Token.scanFrom _ _) = _
  rw [hscan, statements_create Schema.empty hl hcreate, statements_finish _ _ hend]
  rfl

/-! ### The graph of a script -/

theorem isPlain_of_isIdentifier {name : String} (hs : IsIdentifier name.toList) :
    Outline.IsPlain name :=
  ⟨fun hempty => hs.ne_nil (by rw [hempty]; rfl), hs.not_mem (by decide), hs.not_mem (by decide)⟩

theorem writable_entity {t : BatchTable} (ht : t.IsWritten) :
    Outline.Writable ⟨[t.entity], []⟩ where
  distinct := by simp
  entity := List.forall_mem_singleton.2 (isPlain_of_isIdentifier ht.name.isIdentifier)
  column := by
    have hinteger : Outline.IsWord "integer" := by decide
    refine List.forall_mem_singleton.2 fun c hc => ?_
    obtain ⟨name, hname, rfl⟩ := List.mem_map.1 hc
    exact ⟨isPlain_of_isIdentifier (ht.column name hname).isIdentifier, hinteger⟩
  reference := by simp

theorem tableOf_entity (t : BatchTable) : Outline.tableOf ⟨[t.entity], []⟩ t.entity = t.table := by
  have hfield : ∀ c : String, Outline.fieldOf ⟨[t.entity], []⟩ t.entity ⟨c, "integer", []⟩
      = ⟨c, "integer", Tags.empty⟩ := by
    intro c
    simp [Outline.fieldOf, Outline.fieldTags, BatchTable.entity, Tags.empty, Entity.primaryColumns]
  rw [Outline.tableOf, BatchTable.table, BatchTable.entity, List.map_map]
  exact congrArg (Table.mk t.name t.name) (List.map_congr_left fun c _ => hfield c)

/-- **Of a script without semicolons only the table on the first line is left.** -/
theorem exists_graph_line {t : BatchTable} (ht : t.IsWritten) {rest : List Char}
    (hrest : ';' ∉ rest) :
    ∃ g, Dump.graph .msSql (String.ofList (t.line '[' ']' ++ '\n' :: rest)) = .ok g
      ∧ g.tables = [(t.mapNames narrowed).table] := by
  obtain ⟨left, hleft, hportable⟩ := exists_portable_line ht hrest
  have hread := read_line ht.mapNames_narrowed hleft hportable
  have htables := Outline.tables_ofOutline (writable_entity ht.mapNames_narrowed)
  rw [List.map_singleton, tableOf_entity] at htables
  refine ⟨Graph.ofOutline (Outline.ofSchema ⟨[(t.mapNames narrowed).entity], []⟩), ?_, htables⟩
  rw [Dump.graph_of_read hread, Dump.graphOfOutline]
  simp only [htables]
  rfl

theorem batchScript_cons (t : BatchTable) (ts : List BatchTable) :
    batchScript (t :: ts)
      = String.ofList (t.line '[' ']' ++ '\n' :: ("GO\n".toList ++ (batchScript ts).toList)) := by
  have hmore : (batchScript ts).toList = ts.flatMap fun t => t.line '[' ']' ++ "\nGO\n".toList :=
    String.toList_ofList
  rw [hmore, batchScript, List.flatMap_cons, List.append_assoc]
  rfl

theorem semicolon_not_mem_batchScript {ts : List BatchTable} (h : ∀ t ∈ ts, t.IsWritten) :
    ';' ∉ (batchScript ts).toList := by
  rw [batchScript, String.toList_ofList]
  intro hm
  obtain ⟨t, ht, hm⟩ := List.mem_flatMap.1 hm
  rcases List.mem_append.1 hm with hm | hm
  · exact not_mem_line (h t ht) (by decide) (by decide) (by decide) (by decide) hm
  · exact absurd hm (by decide)

theorem table_inj {t u : BatchTable} : t.table = u.table ↔ t = u := by
  refine ⟨fun h => ?_, fun h => h ▸ rfl⟩
  obtain ⟨name, columns⟩ := t
  obtain ⟨name', columns'⟩ := u
  obtain ⟨rfl, -, hcolumns⟩ := Table.mk.inj h
  have hname : Function.Injective fun c : String => (⟨c, "integer", Tags.empty⟩ : Field) :=
    fun c d hcd => (Field.mk.inj hcd).1
  exact congrArg (BatchTable.mk name) (List.map_injective_iff.2 hname hcolumns)

/-- **Of all tables of a script only the first is left**, with narrowed names. -/
theorem exists_graph_batchScript {t : BatchTable} {ts : List BatchTable}
    (h : ∀ u ∈ t :: ts, u.IsWritten) :
    ∃ g, Dump.graph .msSql (batchScript (t :: ts)) = .ok g
      ∧ g.tables = [(t.mapNames narrowed).table] := by
  obtain ⟨ht, hts⟩ := List.forall_mem_cons.1 h
  have hrest : ';' ∉ "GO\n".toList ++ (batchScript ts).toList := by
    rw [List.mem_append, not_or]
    exact ⟨by decide, semicolon_not_mem_batchScript hts⟩
  rw [batchScript_cons]
  exact exists_graph_line ht hrest

/-- **The graph of a script has its tables exactly if there is one and it has no narrowed name.** -/
theorem graph_batchScript_iff {t : BatchTable} {ts : List BatchTable}
    (h : ∀ u ∈ t :: ts, u.IsWritten) :
    (∃ g, Dump.graph .msSql (batchScript (t :: ts)) = .ok g
        ∧ g.tables = (t :: ts).map BatchTable.table)
      ↔ ts = [] ∧ t.mapNames narrowed = t := by
  obtain ⟨g, hg, htables⟩ := exists_graph_batchScript h
  constructor
  · rintro ⟨g', hg', htables'⟩
    obtain rfl : g = g' := Except.ok.inj (hg.symm.trans hg')
    rw [htables, List.map_cons] at htables'
    obtain ⟨hfirst, hmore⟩ := List.cons.inj htables'
    exact ⟨List.map_eq_nil_iff.1 hmore.symm, table_inj.1 hfirst⟩
  · rintro ⟨rfl, hsame⟩
    exact ⟨g, hg, by rw [htables, hsame]; rfl⟩

/-- Accounts alone. -/
theorem graph_batchScript_accounts :
    (∀ u ∈ [⟨"accounts", ["id", "owner"]⟩], BatchTable.IsWritten u)
      ∧ ∃ g, Dump.graph .msSql (batchScript [⟨"accounts", ["id", "owner"]⟩]) = .ok g
        ∧ g.tables = [BatchTable.table ⟨"accounts", ["id", "owner"]⟩] := by
  have h : ∀ u ∈ [⟨"accounts", ["id", "owner"]⟩], BatchTable.IsWritten u :=
    List.forall_mem_singleton.2 (by decide)
  exact ⟨h, (graph_batchScript_iff h).2 ⟨rfl, by decide⟩⟩

/-- Behind the accounts a table of entries is lost. -/
theorem graph_batchScript_entries :
    ¬∀ ts : List BatchTable, ts ≠ [] → (ts.map BatchTable.name).Nodup → (∀ t ∈ ts, t.IsWritten) →
      ∃ g, Dump.graph .msSql (batchScript ts) = .ok g ∧ g.tables = ts.map BatchTable.table := by
  intro hall
  have hwritten : ∀ t ∈ [⟨"accounts", ["id", "owner"]⟩, ⟨"entries", ["amount"]⟩],
      BatchTable.IsWritten t :=
    List.forall_mem_cons.2 ⟨by decide, List.forall_mem_singleton.2 (by decide)⟩
  obtain ⟨g, hg, htables⟩ := hall _ (List.cons_ne_nil _ _) (by decide) hwritten
  obtain ⟨g', hg', htables'⟩ := exists_graph_batchScript hwritten
  obtain rfl : g = g' := Except.ok.inj (hg.symm.trans hg')
  exact absurd (htables.symm.trans htables') (by decide)

end Dialect

end SchemaAudit
