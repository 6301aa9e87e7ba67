import SchemaAudit.Proofs.Ddl.Redeclare
import SchemaAudit.Proofs.Dialect.QuotedColumn
import SchemaAudit.Proofs.Dump.Batch
import SchemaAudit.Proofs.Outline.Names

/-!
# Graphs of columns with quoted names

A quoted name is never a keyword to the reader of declarations, whatever it is. Only the rules that
come before the reader take some names for words of the dialect.

* `read_column`: a declaration of a column in double quotes declares just this column.
* `graph_quotedColumn_iff`: the graph has the column exactly if no rule replaces its name.
-/

namespace SchemaAudit

/-! ### Reading the declaration -/

namespace Ddl

open Input

/-- The declaration of a column with a name in double quotes. -/
def columnBody (name : String) : String := "\"" ++ name ++ "\" integer"

def columnSchema (name : String) : Schema := ⟨[⟨"t", [⟨name, "integer", []⟩], []⟩], []⟩

theorem scans_columnBody {name : String} (h : '\x22' ∉ name.toList) :
    Token.Scans [.quoted name, .word "integer"] (columnBody name).toList := by
  have hinteger : Token.Scans [.word "integer"] "integer".toList :=
    Token.scans_word (by decide)
  have hname := hinteger.cons_quoted h
  have htext : (columnBody name).toList
      = '\x22' :: (name.toList ++ ['\x22']) ++ ' ' :: "integer".toList := by
    simp [columnBody]
  rwa [htext]

theorem read_column (dialect : Dialect) {name : String} (h : '\x22' ∉ name.toList) :
    Schema.read dialect (declaration "t" (columnBody name)) = .ok (columnSchema name) := by
  have hname : Token.Scans [.word "t"] "t".toList := Token.scans_word (by decide)
  have hbody := scans_columnBody h
  obtain ⟨inside, rest, hinside, hread, -⟩ := read_declaration dialect
    (hname.before (by decide)) (namesTable_singleton rfl) (hbody.before (by decide))
  have hword := readsAs_word dialect "t" name (w := "integer") (by decide)
  rw [show TypeName.canonical dialect "integer" = "integer" from canonical_name dialect .integer]
    at hword
  exact hread _ (tableBody_begins [([.quoted name, .word "integer"], _)]
    (List.forall_mem_singleton.2 hword) hinside)

end Ddl

/-! ### The graph of the declaration -/

namespace Dialect

open Ddl
open Outline (namesOf)

theorem ofList_inQuotes (name : String) :
    String.ofList (inQuotes name.toList) = declaration "t" (columnBody name) := by
  refine String.toList_injective ?_
  rw [String.toList_ofList, inQuotes, columnText_eq]
  simp [toList_declaration, columnBody, enclosed]

/-- The name that comes to the reader. -/
def nameLeft (dialect : Dialect) (name : String) : String :=
  (replacement dialect name.toList).getD name

theorem portable_eq_declaration (dialect : Dialect) {name : String}
    (hs : IsIdentifier name.toList) : dialect.portable (quotedColumn dialect name)
      = declaration "t" (columnBody (nameLeft dialect name)) := by
  have hleft : leftOf name.toList (replacement dialect name.toList)
      = (nameLeft dialect name).toList := by
    rw [leftOf, nameLeft]
    cases replacement dialect name.toList <;> rfl
  rw [portable_quotedColumn dialect hs, hleft, ofList_inQuotes]

theorem isPlain_of_mem_replacements {dialect : Dialect} :
    ∀ w ∈ replacements dialect, w = "" ∨ Outline.IsPlain w := by
  cases dialect <;> decide

theorem isPlain_nameLeft (dialect : Dialect) {name : String} (hs : IsIdentifier name.toList) :
    nameLeft dialect name = "" ∨ Outline.IsPlain (nameLeft dialect name) := by
  rw [nameLeft]
  cases h : replacement dialect name.toList with
  | none => exact Or.inr (isPlain_of_isIdentifier hs)
  | some w => exact isPlain_of_mem_replacements w (mem_replacements h)

theorem writable_columnSchema {name : String} (hname : Outline.IsPlain name) :
    Outline.Writable (columnSchema name) where
  distinct := by simp [columnSchema]
  entity := by
    have htable : Outline.IsPlain "t" := by decide
    exact List.forall_mem_singleton.2 htable
  column := by
    have hinteger : Outline.IsWord "integer" := by decide
    exact List.forall_mem_singleton.2 (List.forall_mem_singleton.2 ⟨hname, hinteger⟩)
  reference := by simp [columnSchema]

/-- A column without a name is lost on the way to the graph. -/
theorem map_namesOf_columnSchema {name : String} (h : name = "" ∨ Outline.IsPlain name) :
    (Graph.ofOutline (Outline.ofSchema (columnSchema name))).tables.map namesOf
      = [("t", if name = "" then [] else [name])] := by
  rcases h with rfl | hplain
  · decide
  · rw [Outline.tables_ofOutline (writable_columnSchema hplain), if_neg hplain.1]
    rfl

/-- **The graph of a declaration has one table with the column that comes to the reader**, or with
no column if its name is lost. -/
theorem exists_graph_quotedColumn (dialect : Dialect) {name : String}
    (hs : IsIdentifier name.toList) :
    ∃ g, Dump.graph dialect (quotedColumn dialect name) = .ok g ∧ g.tables.map namesOf
      = [("t", if nameLeft dialect name = "" then [] else [nameLeft dialect name])] := by
  have hplain := isPlain_nameLeft dialect hs
  have hquote : '\x22' ∉ (nameLeft dialect name).toList := by
    rcases hplain with hempty | hplain
    · rw [hempty]
      decide
    · exact hplain.2.1
  have hread := read_column dialect hquote
  rw [← portable_eq_declaration dialect hs] at hread
  have htables := map_namesOf_columnSchema hplain
  refine ⟨Graph.ofOutline (Outline.ofSchema (columnSchema (nameLeft dialect name))), ?_, htables⟩
  have hone : (Graph.ofOutline
      (Outline.ofSchema (columnSchema (nameLeft dialect name)))).tables.isEmpty = false := by
    rw [← List.isEmpty_map, htables]
    rfl
  rw [Dump.graph_of_read hread, Dump.graphOfOutline]
  simp only [hone]
  rfl

/-- What stands instead of a name comes through itself. -/
theorem replacement_of_mem_replacements {dialect : Dialect} :
    ∀ w ∈ replacements dialect, replacement dialect w.toList = none := by
  cases dialect <;> decide

/-- **The graph of a declaration has one table with the one column exactly if no rule replaces the
name of the column.** -/
theorem graph_quotedColumn_iff (dialect : Dialect) {name : String} (hs : IsIdentifier name.toList) :
    (∃ g, Dump.graph dialect (quotedColumn dialect name) = .ok g
        ∧ g.tables.map namesOf = [("t", [name])])
      ↔ replacement dialect name.toList = none := by
  obtain ⟨g, hg, hnames⟩ := exists_graph_quotedColumn dialect hs
  have hname : name ≠ "" := (isPlain_of_isIdentifier hs).1
  constructor
  · rintro ⟨g', hg', hnames'⟩
    obtain rfl : g = g' := Except.ok.inj (hg.symm.trans hg')
    rw [hnames] at hnames'
    have hleft : nameLeft dialect name = name := by
      by_cases hempty : nameLeft dialect name = "" <;> simp_all
    cases hw : replacement dialect name.toList with
    | none => rfl
    | some w =>
      have hagain := replacement_of_mem_replacements w (mem_replacements hw)
      rw [nameLeft, hw, Option.getD_some] at hleft
      rw [hleft, hw] at hagain
      exact hagain
  · intro hnone
    have hleft : nameLeft dialect name = name := by rw [nameLeft, hnone, Option.getD_none]
    rw [hleft, if_neg hname] at hnames
    exact ⟨g, hg, hnames⟩

/-- The name of an option alone comes through. -/
theorem graph_quotedColumn_charset :
    IsIdentifier "charset".toList ∧ ∃ g, Dump.graph .mySql (quotedColumn .mySql "charset") = .ok g
      ∧ g.tables.map namesOf = [("t", ["charset"])] := by
  have hs : IsIdentifier "charset".toList := by decide
  exact ⟨hs, (graph_quotedColumn_iff .mySql hs).2 (by decide)⟩

/-- A column with the name of a counting type is renamed. -/
theorem graph_quotedColumn_serial_ne :
    ¬∀ (dialect : Dialect) (name : String), IsIdentifier name.toList →
      ∃ g, Dump.graph dialect (quotedColumn dialect name) = .ok g
        ∧ g.tables.map namesOf = [("t", [name])] := by
  intro hall
  have hs : IsIdentifier "serial".toList := by decide
  obtain ⟨g, hg, hnames⟩ := hall .postgres "serial" hs
  obtain ⟨g', hg', hnames'⟩ := exists_graph_quotedColumn .postgres hs
  obtain rfl : g = g' := Except.ok.inj (hg.symm.trans hg')
  exact absurd (hnames.symm.trans hnames') (by decide)

end Dialect

end SchemaAudit
