import Mathlib.Data.List.Basic
import SchemaAudit.Graph.Outline
import SchemaAudit.Proofs.Outline.Line

/-!
# The outline of a schema gives its graph

A schema is written as an outline and the outline is read as a graph. The graph is what the schema
declares: a table for each entity, a field for each column, an edge for each pair of columns of a
foreign key, and behind these the edges that the names of fields show.

* `graphOf`: the graph that a schema declares, without any text.
* `reading?_columnLine` and its neighbours: what each line of an outline is read as.
* `foldl_add_entityReadings`: the lines of an entity add its table to what has been read before.
* `foldl_add_outlineLines`: all lines together give the graph that the schema declares.
-/

namespace SchemaAudit.Outline

open Ddl
open Text (isBlank EndsInk FitsLine)

/-! ### The graph that a schema declares -/

/-- The tags of the field that a column becomes. -/
def fieldTags (s : Schema) (e : Entity) (c : Column) : Tags where
  primaryKey := decide (Modifier.primaryKey ∈ c.modifiers)
  compositeKey := decide (1 < e.primaryColumns.length ∧ c.name ∈ e.primaryColumns)
  foreignKey := decide (∃ r ∈ s.foreignKeys, r.table = e.name ∧ c.name ∈ r.columns)
  unique := decide (Modifier.unique ∈ c.modifiers ∨ Ddl.Key.unique [c.name] ∈ e.keys)
  notNull := decide (Modifier.notNull ∈ c.modifiers)

def fieldOf (s : Schema) (e : Entity) (c : Column) : Field := ⟨c.name, c.type, fieldTags s e c⟩

def tableOf (s : Schema) (e : Entity) : Table := ⟨e.name, e.name, e.columns.map (fieldOf s e)⟩

/-- The pairs of columns of all foreign keys, in order. -/
def referencesOf (s : Schema) : List Reference :=
  s.foreignKeys.flatMap fun r =>
    (r.columns.zip (targetColumns s r)).map fun (column, target) =>
      ⟨r.table, column, r.target, target⟩

/-- The edge from one column to another; its cardinality is read off the field that refers, as it
stands in the tables. -/
def edgeOf (tables : List Table) (r : Reference) : Relationship where
  id := "ref:" ++ r.source ++ "." ++ r.sourceField ++ "->" ++ r.target ++ "." ++ r.targetField
  source := r.source
  target := r.target
  sourceField := r.sourceField
  targetField := r.targetField
  cardinality := (Graph.fieldAt tables r.source r.sourceField).cardinality

/-- The graph that a schema declares. -/
def graphOf (s : Schema) : Graph where
  tables := s.entities.map (tableOf s)
  relationships := (referencesOf s).map (edgeOf (s.entities.map (tableOf s)))
    ++ inferRelationships (s.entities.map (tableOf s))

/-- A schema that an outline can hold: no two entities have one name, and names and types can stand
on a line. -/
structure Writable (s : Schema) : Prop where
  distinct : (s.entities.map Entity.name).Nodup
  entity : ∀ e ∈ s.entities, IsPlain e.name
  column : ∀ e ∈ s.entities, ∀ c ∈ e.columns, IsPlain c.name ∧ IsWord c.type
  reference : ∀ r ∈ s.foreignKeys, IsPlain r.table ∧ IsPlain r.target
    ∧ (∀ c ∈ r.columns, IsPlain c) ∧ ∀ c ∈ targetColumns s r, IsPlain c

/-! ### Tags -/

theorem isTagWord_of_mem_tagNames {s : Schema} {e : Entity} {c : Column} {t : String}
    (h : t ∈ tagNames s e c) : IsTagWord t := by
  have hall : ∀ t ∈ ["pk", "composite-pk", "increment", "fk", "unique", "not null"],
      IsTagWord t := by decide
  apply hall
  simp only [tagNames, List.mem_append, List.mem_ite_nil_right, List.mem_singleton] at h
  rcases h with ((((⟨-, rfl⟩ | ⟨-, rfl⟩) | ⟨-, rfl⟩) | ⟨-, rfl⟩) | ⟨-, rfl⟩) | ⟨-, rfl⟩ <;> simp

theorem has_eq_decide (c : Column) (m : Modifier) : c.has m = decide (m ∈ c.modifiers) := by
  simp [Column.has]

theorem isUniqueOn_eq_decide (e : Entity) (column : String) :
    e.isUniqueOn column = decide (Ddl.Key.unique [column] ∈ e.keys) := by
  have hkey : ∀ k : Ddl.Key, k.isUniqueOn column = true ↔ k = .unique [column] := by
    intro k
    cases k <;> simp [Ddl.Key.isUniqueOn]
  rw [Bool.eq_iff_iff, Entity.isUniqueOn, List.any_eq_true, decide_eq_true_iff]
  constructor
  · rintro ⟨k, hk, hu⟩
    exact (hkey k).1 hu ▸ hk
  · exact fun hk => ⟨_, hk, (hkey _).2 rfl⟩

theorem filterMap_ite_singleton {α β : Type} (f : α → Option β) (b : Bool) (a : α) :
    (if b then [a] else []).filterMap f = if b then (f a).toList else [] := by
  cases b
  · rfl
  · cases h : f a <;> simp [h]

/-- The tags that a list of tags gives, whichever of them are written. -/
theorem tagsOf_conditional (primary composite increment foreign unique notNull : Bool) :
    tagsOf ((if primary then ["pk"] else []) ++ (if composite then ["composite-pk"] else [])
        ++ (if increment then ["increment"] else []) ++ (if foreign then ["fk"] else [])
        ++ (if unique then ["unique"] else []) ++ (if notNull then ["not null"] else []))
      = ⟨primary, composite, foreign, unique, notNull⟩ := by
  have hpk : Tag.ofText? "pk".toList = some .primaryKey := by decide
  have hcomposite : Tag.ofText? "composite-pk".toList = some .compositeKey := by decide
  have hincrement : Tag.ofText? "increment".toList = none := by decide
  have hfk : Tag.ofText? "fk".toList = some .foreignKey := by decide
  have hunique : Tag.ofText? "unique".toList = some .unique := by decide
  have hnotNull : Tag.ofText? "not null".toList = some .notNull := by decide
  simp only [tagsOf, List.filterMap_append, filterMap_ite_singleton, hpk, hcomposite, hincrement,
    hfk, hunique, hnotNull]
  cases primary <;> cases composite <;> cases increment <;> cases foreign <;> cases unique
    <;> cases notNull <;> rfl

theorem tagsOf_tagNames (s : Schema) (e : Entity) (c : Column) :
    tagsOf (tagNames s e c) = fieldTags s e c := by
  unfold tagNames
  rw [tagsOf_conditional]
  have hcomposite : (e.primaryColumns.length > 1 && e.primaryColumns.contains c.name)
      = decide (1 < e.primaryColumns.length ∧ c.name ∈ e.primaryColumns) := by
    simp [Bool.decide_and]
  have hforeign : (s.foreignKeys.any fun r => r.table == e.name && r.columns.contains c.name)
      = decide (∃ r ∈ s.foreignKeys, r.table = e.name ∧ c.name ∈ r.columns) := by
    rw [Bool.eq_iff_iff, List.any_eq_true, decide_eq_true_iff]
    simp
  simp only [fieldTags, has_eq_decide, isUniqueOn_eq_decide, hcomposite, hforeign,
    Bool.decide_or]

/-! ### What the lines of a schema are read as -/

/-- What a line says, blanks around it left out; a blank line says nothing. -/
def reading? (line : String) : Option Line :=
  let ink := Text.trim line.toList
  if ink.isEmpty then none else some (Line.ofText ink)

/-- Lines in front of any other text. -/
theorem outlineLines_append {ls : List String} (h : ∀ l ∈ ls, FitsLine l.toList) (t : String) :
    Graph.outlineLines (String.join (ls.map fun line => line ++ "\n") ++ t)
      = ls.filterMap reading? ++ Graph.outlineLines t := by
  have htext : (String.join (ls.map fun line => line ++ "\n") ++ t).toList
      = (ls.map String.toList).flatMap (· ++ ['\n']) ++ t.toList := by
    simp [String.toList_join, List.flatMap_map]
  have hlines : Text.lines ((ls.map String.toList).flatMap (· ++ ['\n']) ++ t.toList)
      = ls.map String.toList ++ Text.lines t.toList :=
    Text.lines_flatMap_newline_append (by simpa using h) t.toList
  rw [Graph.outlineLines, htext, hlines, List.map_append, List.filterMap_append, List.map_map,
    List.filterMap_map]
  rfl

theorem outlineLines_eq_filterMap {ls : List String} (h : ∀ l ∈ ls, FitsLine l.toList) :
    Graph.outlineLines (String.join (ls.map fun line => line ++ "\n")) = ls.filterMap reading? := by
  have happend := outlineLines_append h ""
  rwa [String.append_empty, show Graph.outlineLines "" = [] from rfl, List.append_nil] at happend

/-- A line that fits, of blanks and of ink that says something. -/
theorem reading?_of_ink {line : String} (blanks : List Char) {ink : List Char} {c : Char}
    (hl : line.toList = blanks ++ c :: ink) (hb : ∀ b ∈ blanks, isBlank b = true)
    (hc : isBlank c = false) (he : EndsInk (c :: ink)) :
    reading? line = some (Line.ofText (c :: ink)) := by
  rw [reading?, hl, Text.trim_of_ends hb hc he]
  rfl

theorem reading?_nil : reading? "" = none := rfl

theorem isBlank_quote : isBlank '\x22' = false := by decide

theorem endsInk_quote (name : String) : EndsInk (quote name).toList := by
  rw [quote_toList, ← List.cons_append]
  exact Text.endsInk_append_singleton _ isBlank_quote

theorem reading?_opening {name : String} (h : IsPlain name) :
    FitsLine ("Table " ++ quote name ++ " " ++ brace).toList
      ∧ reading? ("Table " ++ quote name ++ " " ++ brace) = some (.opening name) := by
  have htext : ("Table " ++ quote name ++ " " ++ brace).toList
      = "Table ".toList ++ ((quote name).toList ++ " \x7b".toList) := by
    simp [brace]
  have hend : EndsInk ("Table ".toList ++ ((quote name).toList ++ " \x7b".toList)) := by
    rw [← List.append_assoc]
    exact EndsInk.append ⟨[' '], '\x7b', rfl, by decide⟩ _
  refine ⟨.of_endsInk ?_ (htext ▸ hend), ?_⟩
  · rw [htext]
    simp [newline_not_mem_quote h]
  · rw [reading?_of_ink [] htext (by simp) (by decide) hend]
    exact congrArg some (Line.ofText_opening h _)

theorem reading?_closing :
    FitsLine closingBrace.toList ∧ reading? closingBrace = some .closing :=
  ⟨.of_endsInk (by decide) ⟨[], '\x7d', rfl, by decide⟩, rfl⟩

theorem endsInk_tagList {tags : List String} (h : tags ≠ []) : EndsInk (tagList tags).toList := by
  obtain ⟨first, rest, rfl⟩ := List.exists_cons_of_ne_nil h
  refine ⟨" [".toList ++ (String.intercalate ", " (first :: rest)).toList, ']', ?_, by decide⟩
  simp [tagList]

theorem endsInk_fieldText (name : String) {type : String} (h : IsWord type) (tags : List String) :
    EndsInk (fieldText name type tags) := by
  have htail : EndsInk (type.toList ++ (tagList tags).toList) := by
    cases tags with
    | nil =>
      rw [show (tagList []).toList = [] from rfl, List.append_nil]
      exact Text.endsInk_of_forall (fun e => h.1 (String.toList_eq_nil_iff.1 e)) h.2
    | cons first rest => exact (endsInk_tagList (List.cons_ne_nil first rest)).append _
  exact (htail.append [' ']).append _

theorem newline_not_mem_tagList {tags : List String} (h : ∀ t ∈ tags, IsTagWord t) :
    '\n' ∉ (tagList tags).toList := by
  cases tags with
  | nil => simp [tagList]
  | cons first rest =>
    have hlist : '\n' ∉ (String.intercalate ", " (first :: rest)).toList := by
      rw [String.toList_intercalate]
      refine Text.not_mem_intercalate (by decide) fun l hl => ?_
      obtain ⟨t, ht, rfl⟩ := List.mem_map.1 hl
      exact (h t ht).2.2
    simpa [tagList] using hlist

theorem reading?_columnLine {s : Schema} {e : Entity} {c : Column} (hn : IsPlain c.name)
    (ht : IsWord c.type) :
    FitsLine (columnLine s e c).toList
      ∧ reading? (columnLine s e c) = some (.field (fieldOf s e c)) := by
  have hk : ∀ t ∈ tagNames s e c, IsTagWord t := fun t => isTagWord_of_mem_tagNames
  have htext : (columnLine s e c).toList = [' ', ' '] ++ fieldText c.name c.type (tagNames s e c) := by
    simp [columnLine, fieldText]
  have hend := endsInk_fieldText c.name ht (tagNames s e c)
  refine ⟨.of_endsInk ?_ (htext ▸ hend.append _), ?_⟩
  · have htype : '\n' ∉ c.type.toList := fun hm => absurd (ht.2 _ hm) (by decide)
    rw [htext, fieldText]
    simp [newline_not_mem_quote hn, htype, newline_not_mem_tagList hk]
  · have hhead : fieldText c.name c.type (tagNames s e c)
        = '\x22' :: (fieldText c.name c.type (tagNames s e c)).tail := by
      rw [fieldText, quote_toList]
      rfl
    rw [hhead] at htext hend
    have hblanks : [' ', ' '].all isBlank = true := by decide
    rw [reading?_of_ink [' ', ' '] htext (List.all_eq_true.1 hblanks) isBlank_quote hend, ← hhead,
      Line.ofText_field hn ht hk, tagsOf_tagNames]
    rfl

/-- The sign of a written reference depends on its first column. -/
theorem exists_referenceText (s : Schema) (r : ForeignKey) (column target : String) :
    ∃ sign, (sign = " - " ∨ sign = " > ") ∧ (referenceLine s r column target).toList
      = referenceText ⟨r.table, column, r.target, target⟩ sign := by
  obtain ⟨sign, hs, hsign⟩ : ∃ sign, (sign = " - " ∨ sign = " > ")
      ∧ (if isOneToOne s r column then " - " else " > ") = sign := by
    split
    · exact ⟨_, .inl rfl, rfl⟩
    · exact ⟨_, .inr rfl, rfl⟩
  refine ⟨sign, hs, ?_⟩
  rw [referenceLine, hsign, referenceText]
  simp only [String.toList_append, List.append_assoc, List.append_nil]
  rfl

theorem endsInk_referenceText (r : Reference) (sign : String) :
    EndsInk (referenceText r sign) := by
  have hlast := (endsInk_quote r.targetField).append ("Ref: ".toList ++ ((quote r.source).toList ++
    '.' :: ((quote r.sourceField).toList ++ (sign.toList ++ ((quote r.target).toList ++ ['.'])))))
  simpa [referenceText] using hlast

theorem reading?_referenceLine {s : Schema} {r : ForeignKey} {column target : String}
    (h : Reference.IsPlain ⟨r.table, column, r.target, target⟩) :
    FitsLine (referenceLine s r column target).toList
      ∧ reading? (referenceLine s r column target)
        = some (.reference ⟨r.table, column, r.target, target⟩) := by
  obtain ⟨sign, hs, htext⟩ := exists_referenceText s r column target
  have hend := endsInk_referenceText ⟨r.table, column, r.target, target⟩ sign
  obtain ⟨h1, h2, h3, h4⟩ := h
  refine ⟨.of_endsInk ?_ (htext ▸ hend), ?_⟩
  · have hnl : '\n' ∉ sign.toList := by rcases hs with rfl | rfl <;> decide
    rw [htext, referenceText]
    simp [newline_not_mem_quote h1, newline_not_mem_quote h2, newline_not_mem_quote h3,
      newline_not_mem_quote h4, hnl]
  · rw [reading?_of_ink [] htext (by simp) (by decide) hend]
    exact congrArg some (Line.ofText_reference ⟨h1, h2, h3, h4⟩ hs)

/-! ### All lines of a schema -/

/-- The lines of an entity, as they are read. -/
def entityReadings (s : Schema) (e : Entity) : List Line :=
  .opening e.name :: (e.columns.map fun c => .field (fieldOf s e c)) ++ [.closing]

theorem filterMap_eq_map_of_forall {α β γ : Type} {f : α → Option β} {g : γ → α} {k : γ → β}
    {l : List γ} (h : ∀ a ∈ l, f (g a) = some (k a)) : (l.map g).filterMap f = l.map k := by
  rw [List.filterMap_map, ← List.filterMap_eq_map']
  exact List.filterMap_congr h

theorem filterMap_entityLines {s : Schema} {e : Entity} (hn : IsPlain e.name)
    (hc : ∀ c ∈ e.columns, IsPlain c.name ∧ IsWord c.type) :
    (entityLines s e).filterMap reading? = entityReadings s e := by
  have hcolumns : (e.columns.map (columnLine s e)).filterMap reading?
      = e.columns.map fun c => Line.field (fieldOf s e c) :=
    filterMap_eq_map_of_forall fun c hm => (reading?_columnLine (hc c hm).1 (hc c hm).2).2
  simp only [entityLines, List.filterMap_append, hcolumns, List.singleton_append,
    List.filterMap_cons, (reading?_opening hn).2, reading?_closing.2, List.filterMap_nil,
    entityReadings]

/-- Blank lines between groups of lines say nothing. -/
theorem filterMap_flatten_intersperse (groups : List (List String)) :
    (List.flatten (groups.intersperse [""])).filterMap reading?
      = groups.flatMap fun g => g.filterMap reading? := by
  induction groups with
  | nil => rfl
  | cons g groups ih =>
    cases groups with
    | nil => simp
    | cons g' groups =>
      rw [List.intersperse_cons_cons, List.flatten_cons, List.flatten_cons, List.filterMap_append,
        List.filterMap_append, ih, List.flatMap_cons]
      rfl

/-- A line between groups of lines is in one of the groups, or blank. -/
theorem forall_mem_flatten_intersperse {groups : List (List String)} (p : String → Prop)
    (hblank : p "") (h : ∀ g ∈ groups, ∀ l ∈ g, p l) :
    ∀ l ∈ List.flatten (groups.intersperse [""]), p l := by
  induction groups with
  | nil => simp
  | cons g groups ih =>
    have hfirst := h g List.mem_cons_self
    have hrest := ih fun g' hg' => h g' (List.mem_cons_of_mem _ hg')
    cases groups with
    | nil => simpa using hfirst
    | cons g' groups =>
      intro l hl
      rw [List.intersperse_cons_cons, List.flatten_cons, List.flatten_cons, List.mem_append,
        List.mem_append] at hl
      rcases hl with hl | hl | hl
      · exact hfirst l hl
      · exact List.mem_singleton.1 hl ▸ hblank
      · exact hrest l hl

theorem filterMap_referenceLines {s : Schema} {r : ForeignKey}
    (h : IsPlain r.table ∧ IsPlain r.target ∧ (∀ c ∈ r.columns, IsPlain c)
      ∧ ∀ c ∈ targetColumns s r, IsPlain c) :
    (referenceLines s r).filterMap reading?
      = (r.columns.zip (targetColumns s r)).map fun (column, target) =>
          Line.reference ⟨r.table, column, r.target, target⟩ := by
  obtain ⟨ht, hg, hc, hk⟩ := h
  apply filterMap_eq_map_of_forall
  rintro ⟨column, target⟩ hm
  obtain ⟨hcolumn, htarget⟩ := List.of_mem_zip hm
  exact (reading?_referenceLine ⟨ht, hc _ hcolumn, hg, hk _ htarget⟩).2

/-- A line of a schema is one of an entity or of a reference, or blank. -/
theorem forall_mem_lines {s : Schema} (p : String → Prop) (hblank : p "")
    (hentities : ∀ e ∈ s.entities, ∀ l ∈ entityLines s e, p l)
    (hreferences : ∀ r ∈ s.foreignKeys, ∀ l ∈ referenceLines s r, p l) : ∀ l ∈ lines s, p l := by
  intro l hl
  rcases List.mem_append.1 hl with hl | hl
  · refine forall_mem_flatten_intersperse p hblank (fun g hg => ?_) l hl
    obtain ⟨e, he, rfl⟩ := List.mem_map.1 hg
    exact hentities e he
  · split at hl
    · exact absurd hl List.not_mem_nil
    · rcases List.mem_cons.1 hl with rfl | hl
      · exact hblank
      · obtain ⟨r, hr, hl⟩ := List.mem_flatMap.1 hl
        exact hreferences r hr l hl

theorem fitsLine_of_mem_lines {s : Schema} (h : Writable s) {l : String} (hl : l ∈ lines s) :
    FitsLine l.toList := by
  refine forall_mem_lines (fun l => FitsLine l.toList) Text.fitsLine_nil ?_ ?_ l hl
  · intro e he l hl
    simp only [entityLines, List.mem_append, List.mem_singleton, List.mem_map] at hl
    rcases hl with (rfl | ⟨c, hc, rfl⟩) | rfl
    · exact (reading?_opening (h.entity e he)).1
    · exact (reading?_columnLine (h.column e he c hc).1 (h.column e he c hc).2).1
    · exact reading?_closing.1
  · intro r hr l hl
    obtain ⟨⟨column, target⟩, hm, rfl⟩ := List.mem_map.1 hl
    obtain ⟨hcolumn, htarget⟩ := List.of_mem_zip hm
    obtain ⟨ht, hg, hc, hk⟩ := h.reference r hr
    exact (reading?_referenceLine ⟨ht, hc _ hcolumn, hg, hk _ htarget⟩).1

/-- Blank lines say nothing. -/
theorem filterMap_entitiesLines (s : Schema) :
    (entitiesLines s).filterMap reading?
      = s.entities.flatMap fun e => (entityLines s e).filterMap reading? := by
  rw [entitiesLines, filterMap_flatten_intersperse, List.flatMap_map]

theorem filterMap_lines (s : Schema) :
    (lines s).filterMap reading?
      = (s.entities.flatMap fun e => (entityLines s e).filterMap reading?)
        ++ s.foreignKeys.flatMap fun r => (referenceLines s r).filterMap reading? := by
  rw [lines, List.filterMap_append, filterMap_entitiesLines]
  congr 1
  split
  · rename_i hnone
    rw [List.isEmpty_iff.1 hnone]
    rfl
  · rw [List.filterMap_cons, reading?_nil, List.filterMap_flatMap]

/-- **The lines of an outline are read as the entities and references they were written from.** -/
theorem outlineLines_ofSchema {s : Schema} (h : Writable s) :
    Graph.outlineLines (ofSchema s)
      = s.entities.flatMap (entityReadings s) ++ (referencesOf s).map Line.reference := by
  have hentities : (s.entities.flatMap fun e => (entityLines s e).filterMap reading?)
      = s.entities.flatMap (entityReadings s) :=
    List.flatMap_congr fun e he => filterMap_entityLines (h.entity e he) (h.column e he)
  have hreferences : (s.foreignKeys.flatMap fun r => (referenceLines s r).filterMap reading?)
      = (referencesOf s).map Line.reference := by
    rw [referencesOf, List.map_flatMap]
    exact List.flatMap_congr fun r hr => by
      rw [filterMap_referenceLines (h.reference r hr), List.map_map]
      rfl
  rw [ofSchema, outlineLines_eq_filterMap fun l => fitsLine_of_mem_lines h, filterMap_lines,
    hentities, hreferences]

/-! ### The graph that the lines make up -/

open SchemaAudit.Graph (Draft)

theorem add_opening {d : Draft} {name : String} (h : ∀ t ∈ d.tables, t.name ≠ name) :
    d.add (.opening name) = ⟨d.tables ++ [⟨name, name, []⟩], some name, d.references⟩ := by
  have hany : (d.tables.any fun t => t.name == name) = false := by simpa using h
  simp [Draft.add, hany]

/-- Fields go to the table that was opened last. -/
theorem foldl_add_fields {tables : List Table} {name : String} (h : ∀ t ∈ tables, t.name ≠ name)
    (references : List Reference) (fields more : List Field) :
    (more.map Line.field).foldl Draft.add
        ⟨tables ++ [⟨name, name, fields⟩], some name, references⟩
      = ⟨tables ++ [⟨name, name, fields ++ more⟩], some name, references⟩ := by
  induction more generalizing fields with
  | nil => simp
  | cons f more ih =>
    have hstep : Draft.add ⟨tables ++ [⟨name, name, fields⟩], some name, references⟩ (.field f)
        = ⟨tables ++ [⟨name, name, fields ++ [f]⟩], some name, references⟩ := by
      have hlast : updateFirst (fun t : Table => t.name == name)
          (fun t => { t with fields := t.fields ++ [f] }) (tables ++ [⟨name, name, fields⟩])
          = tables ++ [⟨name, name, fields ++ [f]⟩] :=
        updateFirst_append_singleton _ (by simpa using h) (by simp)
      simp only [Draft.add, hlast]
    rw [List.map_cons, List.foldl_cons, hstep, ih, List.append_assoc, List.singleton_append]

/-- **The lines of an entity add its table.** The table is new, so that no earlier one is emptied. -/
theorem foldl_add_entityReadings (s : Schema) {e : Entity} {d : Draft}
    (h : ∀ t ∈ d.tables, t.name ≠ e.name) :
    (entityReadings s e).foldl Draft.add d = ⟨d.tables ++ [tableOf s e], none, d.references⟩ := by
  have hfields : (e.columns.map fun c => Line.field (fieldOf s e c))
      = (e.columns.map (fieldOf s e)).map Line.field := by rw [List.map_map]; rfl
  rw [entityReadings, List.cons_append, List.foldl_cons, add_opening h, List.foldl_append, hfields,
    foldl_add_fields h]
  rfl

theorem foldl_add_entities (s : Schema) {es : List Entity} {d : Draft} (ho : d.opened = none)
    (hd : (es.map Entity.name).Nodup) (h : ∀ e ∈ es, ∀ t ∈ d.tables, t.name ≠ e.name) :
    (es.flatMap (entityReadings s)).foldl Draft.add d
      = ⟨d.tables ++ es.map (tableOf s), none, d.references⟩ := by
  induction es generalizing d with
  | nil =>
    obtain ⟨tables, opened, references⟩ := d
    simp only at ho
    simp [ho]
  | cons e es ih =>
    obtain ⟨hnew, hrest⟩ := List.nodup_cons.1 hd
    have hfirst := h e List.mem_cons_self
    rw [List.flatMap_cons, List.foldl_append, foldl_add_entityReadings s hfirst, ih rfl hrest]
    · simp
    · intro e' he' t ht
      rcases List.mem_append.1 ht with ht | ht
      · exact h e' (List.mem_cons_of_mem _ he') t ht
      · rw [List.mem_singleton.1 ht]
        exact fun hname => hnew (List.mem_map.2 ⟨e', he', hname.symm⟩)

theorem foldl_add_references (d : Draft) (references : List Reference) :
    (references.map Line.reference).foldl Draft.add d
      = { d with references := d.references ++ references } := by
  induction references generalizing d with
  | nil => simp
  | cons r references ih =>
    rw [List.map_cons, List.foldl_cons, ih]
    simp [Draft.add]

/-- What has been read at the end of the outline of a schema. -/
theorem foldl_add_outlineLines {s : Schema} (h : Writable s) :
    (Graph.outlineLines (ofSchema s)).foldl Draft.add Draft.empty
      = ⟨s.entities.map (tableOf s), none, referencesOf s⟩ := by
  rw [outlineLines_ofSchema h, List.foldl_append,
    foldl_add_entities s rfl h.distinct (by simp [Draft.empty]), foldl_add_references]
  simp [Draft.empty]

/-- **The outline of a schema is read as the graph that the schema declares**: its tables in order
with their fields, types and tags, an edge for each pair of columns of a foreign key, and then the
edges that names show. -/
theorem ofOutline_ofSchema (s : Schema) (h : Writable s) :
    Graph.ofOutline (ofSchema s) = graphOf s := by
  rw [Graph.ofOutline, Graph.ofLines, foldl_add_outlineLines h]
  rfl

/-- Orders and their lines, with a key of two columns, a blank in a name, and a foreign key that
leaves its target column open. -/
def ordersSchema : Schema where
  entities :=
    [⟨"orders", [⟨"id", "integer", [.primaryKey, .increment]⟩, ⟨"note", "varchar(20)", [.unique]⟩],
      [.primary ["id"]]⟩,
     ⟨"order lines",
      [⟨"order_id", "integer", [.primaryKey]⟩, ⟨"row", "decimal(4,0)[]", [.primaryKey, .notNull]⟩],
      [.primary ["order_id", "row"], .unique ["row"]]⟩]
  foreignKeys := [⟨"order lines", ["order_id"], "orders", []⟩]

theorem ofOutline_ordersSchema :
    Writable ordersSchema ∧ Graph.ofOutline (ofSchema ordersSchema) =
      { tables :=
          [⟨"orders", "orders",
            [⟨"id", "integer", ⟨true, false, false, false, false⟩⟩,
             ⟨"note", "varchar(20)", ⟨false, false, false, true, false⟩⟩]⟩,
           ⟨"order lines", "order lines",
            [⟨"order_id", "integer", ⟨true, true, true, false, false⟩⟩,
             ⟨"row", "decimal(4,0)[]", ⟨true, true, false, true, true⟩⟩]⟩]
        relationships :=
          [⟨"ref:order lines.order_id->orders.id", "order lines", "orders", "order_id", "id",
            ⟨.oneToOne, true, true⟩⟩,
           ⟨"implicit:order lines.order_id->orders.id", "order lines", "orders", "order_id", "id",
            ⟨.oneToOne, true, true⟩⟩] } := by
  have h : Writable ordersSchema := ⟨by decide, by decide, by decide, by decide⟩
  exact ⟨h, (ofOutline_ofSchema ordersSchema h).trans (by decide +kernel)⟩

end SchemaAudit.Outline
