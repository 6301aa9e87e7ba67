import SchemaAudit.Proofs.Graph.Block

/-!
# Outlines with references that break their lines

The lines of references stand behind those of all tables. A name in a reference may hold a line feed,
and then its line breaks into pieces, each of which is read as a line of its own: it may open a table,
anew or for the first time, and give it fields. Here is when the tables of the graph still are the
entities of the schema, whatever names it holds.

* `blockFields_append`, `openedNames_append`: the tables of lines with further lines behind them.
* `referencePieces`: what is read of the references.
* `ComesThrough`: an entity that the outline gives back.
* `exists_tables_ofOutline_ofSchema`: the tables that an outline with plain names in front describes.
* `tables_ofOutline_eq_iff`: nothing is lost, changed or added exactly if all entities come through and
  no reference opens another table.
-/

namespace SchemaAudit.Graph

open Outline (Line)

/-! ### Lines with further lines behind them -/

/-- What counts is the last line that opens the table. -/
theorem behindOpening_append_of_mem {more : List Line} {name : String}
    (h : Line.opening name ∈ more) (lines : List Line) :
    behindOpening (lines ++ more) name = behindOpening more name := by
  have hstop : ¬∀ line ∈ more.reverse, (line != .opening name) = true := fun hall => by
    simpa using hall _ (List.mem_reverse.2 h)
  rw [behindOpening, behindOpening, List.rtakeWhile, List.rtakeWhile, List.reverse_append,
    takeWhile_append_of_not_forall hstop]

theorem behindOpening_append_of_not_mem {more : List Line} {name : String}
    (h : Line.opening name ∉ more) (lines : List Line) :
    behindOpening (lines ++ more) name = behindOpening lines name ++ more := by
  have hall : ∀ line ∈ more.reverse, (line != .opening name) = true := fun line hline => by
    have hne : line ≠ .opening name := fun heq => h (heq ▸ List.mem_reverse.1 hline)
    simpa using hne
  rw [behindOpening, behindOpening, List.rtakeWhile, List.rtakeWhile, List.reverse_append,
    List.takeWhile_append_of_pos hall, List.reverse_append, List.reverse_reverse]

/-- Behind lines that leave no table open, a table has the fields of its last block there, or else
those that it had. -/
theorem blockFields_append {lines : List Line} (hclosed : openedBehind lines = none) {name : String}
    (h : Line.opening name ∈ lines) (more : List Line) :
    blockFields (lines ++ more) name
      = if Line.opening name ∈ more then blockFields more name else blockFields lines name := by
  split
  · rename_i hmem
    rw [blockFields, behindOpening_append_of_mem hmem, blockFields]
  · rename_i hmem
    have hends : ¬∀ line ∈ behindOpening lines name, (!line.isEdge) = true := fun hall => by
      rw [(openedBehind_eq_some_iff h).2 hall] at hclosed
      cases hclosed
    rw [blockFields, behindOpening_append_of_not_mem hmem, takeWhile_append_of_not_forall hends,
      blockFields]

/-- Further lines add the names that they open and that were not opened before. -/
theorem openedNames_append (lines more : List Line) :
    ∃ new, openedNames (lines ++ more) = openedNames lines ++ new ∧
      (new = [] ↔ ∀ name, Line.opening name ∈ more → name ∈ openedNames lines) := by
  have hsplit : openedNames (lines ++ more) = openedNames lines
      ++ ((more.filterMap Line.opened?).removeAll (lines.filterMap Line.opened?)).eraseDups := by
    rw [openedNames, List.filterMap_append, List.eraseDups_append]
    rfl
  have hmem : ∀ {ls : List Line} {name : String},
      name ∈ ls.filterMap Line.opened? ↔ Line.opening name ∈ ls := fun {ls name} => by
    rw [← mem_openedNames, openedNames, List.mem_eraseDups]
  refine ⟨_, hsplit, ?_⟩
  simp only [List.eq_nil_iff_forall_not_mem, List.mem_eraseDups, List.removeAll, List.mem_filter,
    List.elem_eq_contains, List.contains_eq_mem, hmem, mem_openedNames]
  simp

end SchemaAudit.Graph

namespace SchemaAudit.Outline

open Ddl
open SchemaAudit.Graph (Draft blockFields blockTable blockTables draftOf openedBehind openedNames)
open Text (FitsLine)

/-! ### Lines of entities -/

/-- What is read of the lines of entities. -/
def entityPieces (s : Schema) : List Line :=
  s.entities.flatMap fun e => (entityLines s e).filterMap reading?

/-- What is read of the references: a line for each, or the pieces of one that breaks. -/
def referencePieces (s : Schema) : List Line :=
  Graph.outlineLines
    (String.join ((s.foreignKeys.flatMap (referenceLines s)).map fun line => line ++ "\n"))

/-- Behind the lines of entities no table is open. -/
theorem openedBehind_entityPieces (s : Schema) : openedBehind (entityPieces s) = none := by
  rcases List.eq_nil_or_concat s.entities with hnil | ⟨es, e, hlast⟩
  · rw [entityPieces, hnil]
    rfl
  · have hclosing : ∃ front, (entityLines s e).filterMap reading? = front ++ [.closing] := by
      rw [entityLines, List.filterMap_append, List.filterMap_cons, reading?_closing.2]
      exact ⟨_, rfl⟩
    obtain ⟨front, hfront⟩ := hclosing
    rw [entityPieces, hlast, List.concat_eq_append, List.flatMap_append, List.flatMap_singleton,
      hfront, ← List.append_assoc, Graph.openedBehind_append]
    rfl

section Plain
variable {s : Schema} (hs : s.IsSound) (hplain : HoldsPlainNames s)
include hs hplain

theorem map_namesOf_entityPieces :
    (blockTables (entityPieces s)).map namesOf = s.entities.map (shownNames s) := by
  have htables := congrArg Draft.tables (Graph.foldl_add_eq_draftOf (entityPieces s))
  rw [← show (draftOf (entityPieces s)).tables = blockTables (entityPieces s) from rfl, ← htables,
    entityPieces, foldl_add_entitiesLines ?_ hs.distinct (by simp [Draft.empty])]
  · rfl
  · exact fun e he => ⟨hplain.entity e he, fun c hc =>
      ⟨hplain.column e he c hc, hs.unspaced e he c hc⟩⟩

theorem openedNames_entityPieces :
    openedNames (entityPieces s) = s.entities.map Entity.name := by
  have hnames := congrArg (List.map Prod.fst) (map_namesOf_entityPieces hs hplain)
  rw [List.map_map, List.map_map] at hnames
  rw [← Graph.map_name_blockTables]
  exact hnames

/-- The block of an entity holds the columns that are shown. -/
theorem map_name_blockFields_entityPieces {e : Entity} (he : e ∈ s.entities) :
    (blockFields (entityPieces s) e.name).map Field.name
      = (e.columns.filter (IsShown s e ·)).map Column.name := by
  have hnames := map_namesOf_entityPieces hs hplain
  rw [blockTables, openedNames_entityPieces hs hplain, List.map_map, List.map_map] at hnames
  exact congrArg Prod.snd (List.map_inj_left.1 hnames e he)

/-- The lines of the outline are those of its entities, and behind them what is read of its
references. -/
theorem outlineLines_ofSchema_eq :
    Graph.outlineLines (ofSchema s) = entityPieces s ++ referencePieces s := by
  have hfits : ∀ line ∈ entitiesLines s, FitsLine line.toList := by
    refine forall_mem_flatten_intersperse (fun line => FitsLine line.toList) Text.fitsLine_nil ?_
    intro group hgroup line hline
    obtain ⟨e, he, rfl⟩ := List.mem_map.1 hgroup
    simp only [entityLines, List.mem_append, List.mem_singleton, List.mem_map] at hline
    rcases hline with (rfl | ⟨c, hc, rfl⟩) | rfl
    · exact (reading?_opening (hplain.entity e he)).1
    · exact (exists_reading?_columnLine (hplain.column e he c hc) (hs.unspaced e he c hc)).1
    · exact reading?_closing.1
  -- an empty line stands before the references, if there are any
  obtain ⟨blank, hblank, hlines⟩ : ∃ blank, (∀ line ∈ blank, line = "") ∧
      lines s = (entitiesLines s ++ blank) ++ s.foreignKeys.flatMap (referenceLines s) := by
    rw [lines]
    split
    · rename_i hnone
      exact ⟨[], by simp, by simp [List.isEmpty_iff.1 hnone]⟩
    · exact ⟨[""], by simp, by simp⟩
  have hfront : ∀ line ∈ entitiesLines s ++ blank, FitsLine line.toList :=
    List.forall_mem_append.2 ⟨hfits, fun line hline => hblank line hline ▸ Text.fitsLine_nil⟩
  have hnothing : blank.filterMap reading? = [] :=
    List.filterMap_eq_nil_iff.2 fun line hline => hblank line hline ▸ reading?_nil
  rw [ofSchema, hlines, List.map_append, String.join_append, outlineLines_append hfront,
    List.filterMap_append, hnothing, List.append_nil, filterMap_entitiesLines]
  rfl

/-- The names that an outline gives back for the columns of an entity: those of the last block that a
piece of a reference opens for it, or else those of the columns that are shown. -/
def readColumns (s : Schema) (e : Entity) : List String :=
  if Line.opening e.name ∈ referencePieces s then
    (blockFields (referencePieces s) e.name).map Field.name
  else (e.columns.filter (IsShown s e ·)).map Column.name

/-- **With plain names in front, the tables are the entities in order**, and behind them those that
references open. -/
theorem exists_tables_ofOutline_ofSchema :
    ∃ new, (Graph.ofOutline (ofSchema s)).tables.map namesOf
        = (s.entities.map fun e => (e.name, readColumns s e)) ++ new ∧
      (new = [] ↔ ∀ name, Line.opening name ∈ referencePieces s →
        name ∈ s.entities.map Entity.name) := by
  have htables : (Graph.ofOutline (ofSchema s)).tables
      = blockTables (entityPieces s ++ referencePieces s) := by
    rw [← outlineLines_ofSchema_eq hs hplain]
    exact congrArg Draft.tables (Graph.foldl_add_eq_draftOf _)
  obtain ⟨new, hopened, hnew⟩ := Graph.openedNames_append (entityPieces s) (referencePieces s)
  rw [openedNames_entityPieces hs hplain] at hopened hnew
  have hentity : ∀ e ∈ s.entities,
      namesOf (blockTable (entityPieces s ++ referencePieces s) e.name)
        = (e.name, readColumns s e) := by
    intro e he
    have hin : Line.opening e.name ∈ entityPieces s := by
      rw [← Graph.mem_openedNames, openedNames_entityPieces hs hplain]
      exact List.mem_map_of_mem he
    have hfields := Graph.blockFields_append (openedBehind_entityPieces s) hin (referencePieces s)
    have hshown := map_name_blockFields_entityPieces hs hplain he
    rw [readColumns, ← hshown, ← apply_ite (List.map Field.name), ← hfields]
    rfl
  refine ⟨new.map fun name =>
    namesOf (blockTable (entityPieces s ++ referencePieces s) name), ?_, ?_⟩
  · rw [htables, blockTables, hopened, List.map_append, List.map_append, List.map_map, List.map_map,
      List.map_map]
    congr 1
    exact List.map_congr_left hentity
  · rw [List.map_eq_nil_iff, hnew]

end Plain

/-! ### Tables that are the entities -/

/-- The outline gives an entity back: its names are plain, and its columns are shown, or those that a
piece of a reference opens it with have the names of its columns. -/
structure ComesThrough (s : Schema) (e : Entity) : Prop where
  name : IsPlain e.name
  columns : ∀ c ∈ e.columns, IsPlain c.name
  shown : Line.opening e.name ∉ referencePieces s → ∀ c ∈ e.columns, IsShown s e c
  opened : Line.opening e.name ∈ referencePieces s →
    (blockFields (referencePieces s) e.name).map Field.name = e.columns.map Column.name

/-- References that stand on one line each open no table. -/
theorem opening_not_mem_referencePieces {s : Schema}
    (h : ∀ r ∈ s.foreignKeys, ∀ line ∈ referenceLines s r, '\n' ∉ line.toList) (name : String) :
    Line.opening name ∉ referencePieces s := by
  have hread : ∀ text ∈ s.foreignKeys.flatMap (referenceLines s), FitsLine text.toList ∧
      ∃ line, reading? text = some line ∧ (line = .other ∨ ∃ r, line = .reference r) := by
    intro text htext
    obtain ⟨r, hr, htext⟩ := List.mem_flatMap.1 htext
    obtain ⟨⟨column, target⟩, -, rfl⟩ := List.mem_map.1 htext
    exact exists_reading?_referenceLine (h r hr _ htext)
  rw [referencePieces, outlineLines_eq_filterMap fun text htext => (hread text htext).1]
  intro hmem
  obtain ⟨text, htext, hline⟩ := List.mem_filterMap.1 hmem
  obtain ⟨-, line, hsome, hkind⟩ := hread text htext
  obtain rfl := Option.some.inj (hsome.symm.trans hline)
  rcases hkind with h | ⟨r, h⟩ <;> cases h

theorem readColumns_eq_iff {s : Schema} {e : Entity} (hname : IsPlain e.name)
    (hcolumns : ∀ c ∈ e.columns, IsPlain c.name) :
    readColumns s e = e.columns.map Column.name ↔ ComesThrough s e := by
  unfold readColumns
  split
  · rename_i hopened
    constructor
    · intro heq
      exact ⟨hname, hcolumns, fun hnot => absurd hopened hnot, fun _ => heq⟩
    · intro hthrough
      exact hthrough.opened hopened
  · rename_i hnot
    constructor
    · intro heq
      have hlength := congrArg List.length heq
      rw [List.length_map, List.length_map] at hlength
      have hshown := List.length_filter_eq_length_iff.1 hlength
      exact ⟨hname, hcolumns, fun _ c hc => by simpa using hshown c hc, fun h => absurd h hnot⟩
    · intro hthrough
      rw [List.filter_eq_self.2]
      intro c hc
      simpa using hthrough.shown hnot c hc

/-- **The tables of the graph are the entities of the schema exactly if all entities come through and
references open no other table.** A name with a double quote or a line feed is cut, and an empty one is
dropped, although quoted identifiers may hold them. If all references stand on one line each, this is
so exactly if all names are plain and something stands behind each on its line. -/
theorem tables_ofOutline_eq_iff {dialect : Dialect} {script : String} {s : Schema}
    (h : Schema.read dialect script = .ok s) :
    ((Graph.ofOutline (ofSchema s)).tables.map namesOf = s.entities.map entityNames ↔
      (∀ e ∈ s.entities, ComesThrough s e) ∧
        ∀ name, Line.opening name ∈ referencePieces s → name ∈ s.entities.map Entity.name) ∧
    ((∀ r ∈ s.foreignKeys, ∀ line ∈ referenceLines s r, '\n' ∉ line.toList) →
      ((Graph.ofOutline (ofSchema s)).tables.map namesOf = s.entities.map entityNames ↔
        ∀ e ∈ s.entities, IsPlain e.name ∧ ∀ c ∈ e.columns, IsPlain c.name ∧ IsShown s e c)) := by
  have hs := isSound_read h
  have hgeneral : (Graph.ofOutline (ofSchema s)).tables.map namesOf = s.entities.map entityNames ↔
      (∀ e ∈ s.entities, ComesThrough s e) ∧
        ∀ name, Line.opening name ∈ referencePieces s → name ∈ s.entities.map Entity.name := by
    constructor
    · intro heq
      have hplain := holdsPlainNames_of_eq heq
      obtain ⟨new, htables, hnew⟩ := exists_tables_ofOutline_ofSchema hs hplain
      rw [heq] at htables
      have hnone : new = [] := by
        have hlength := congrArg List.length htables
        rw [List.length_append, List.length_map, List.length_map] at hlength
        exact List.length_eq_zero_iff.1 (by omega)
      rw [hnone, List.append_nil] at htables
      refine ⟨fun e he => ?_, hnew.1 hnone⟩
      have hread : e.columns.map Column.name = readColumns s e :=
        congrArg Prod.snd (List.map_inj_left.1 htables e he)
      exact (readColumns_eq_iff (hplain.entity e he) (hplain.column e he)).1 hread.symm
    · rintro ⟨hall, hold⟩
      have hplain : HoldsPlainNames s :=
        ⟨fun e he => (hall e he).name, fun e he => (hall e he).columns⟩
      obtain ⟨new, htables, hnew⟩ := exists_tables_ofOutline_ofSchema hs hplain
      rw [htables, hnew.2 hold, List.append_nil]
      refine List.map_congr_left fun e he => ?_
      have hread := (readColumns_eq_iff (hplain.entity e he) (hplain.column e he)).2 (hall e he)
      exact congrArg (Prod.mk e.name) hread
  refine ⟨hgeneral, fun hreferences => hgeneral.trans ?_⟩
  have hnone := opening_not_mem_referencePieces hreferences
  constructor
  · rintro ⟨hall, -⟩ e he
    have hthrough := hall e he
    exact ⟨hthrough.name, fun c hc => ⟨hthrough.columns c hc, hthrough.shown (hnone _) c hc⟩⟩
  · intro hall
    refine ⟨fun e he => ?_, fun name hmem => absurd hmem (hnone name)⟩
    obtain ⟨hname, hcolumns⟩ := hall e he
    exact ⟨hname, fun c hc => (hcolumns c hc).1, fun _ c hc => (hcolumns c hc).2,
      fun hmem => absurd hmem (hnone _)⟩

/-- A name with a blank comes through. -/
theorem tables_ofOutline_orderLines :
    Schema.read .postgres "CREATE TABLE \"order lines\" (row int REFERENCES goods);"
        = .ok ⟨[⟨"order lines", [⟨"row", "integer", []⟩], []⟩],
          [⟨"order lines", ["row"], "goods", []⟩]⟩ ∧
      (Graph.ofOutline (ofSchema ⟨[⟨"order lines", [⟨"row", "integer", []⟩], []⟩],
          [⟨"order lines", ["row"], "goods", []⟩]⟩)).tables.map namesOf
        = [("order lines", ["row"])] := by
  have hread : Schema.read .postgres "CREATE TABLE \"order lines\" (row int REFERENCES goods);"
      = .ok ⟨[⟨"order lines", [⟨"row", "integer", []⟩], []⟩],
        [⟨"order lines", ["row"], "goods", []⟩]⟩ := eq_ok_of_toOption (by decide +kernel)
  exact ⟨hread, ((tables_ofOutline_eq_iff hread).2 (by decide +kernel)).2 (by decide +kernel)⟩

/-- A reference with a line feed in the name of its target opens a table. -/
example : (Graph.ofOutline (ofSchema ⟨[⟨"row", [⟨"goods", "integer", []⟩], []⟩],
    [⟨"row", ["goods"], "goods\nTable stock", []⟩]⟩)).tables.map namesOf
      = [("row", ["goods"]), ("stock", [])] := by
  decide +kernel

/-- Of a name with a double quote the outline gives back what stands before it. -/
theorem tables_ofOutline_quote_ne :
    Schema.read .postgres "CREATE TABLE \"a\"\"b\" (x int);"
        = .ok ⟨[⟨"a\"b", [⟨"x", "integer", []⟩], []⟩], []⟩ ∧
      (Graph.ofOutline (ofSchema ⟨[⟨"a\"b", [⟨"x", "integer", []⟩], []⟩], []⟩)).tables.map namesOf
        ≠ [("a\"b", ["x"])] :=
  ⟨eq_ok_of_toOption (by decide +kernel), by decide +kernel⟩

end SchemaAudit.Outline
