import Mathlib.Data.List.DropRight
import SchemaAudit.Proofs.Outline.Names

/-!
# What the lines of an outline say together

An outline is read one line after another. A line may open a table anew, which empties it, and
references and unreadable lines stand between the fields. Here is what the lines come to, read off
all of them at once.

* `draftOf`: the draft that lines make up. The tables stand where they are opened first, and
  the fields of each are those of its last block.
* `add_draftOf`: a further line changes the draft as it changes what is read off the lines.
* `tables_ofOutline_eq_blocks`: the tables of the graph of any outline.
* `foldl_add_eq`: lines about tables and references do not meddle with each other.
* `ofOutline_congr_of_filter`: so it does not matter where the references stand.

The lines are taken as they are read; how a line is classified is not treated here.
-/

namespace SchemaAudit.Outline.Line

/-- The table that a line opens. -/
def opened? : Line → Option String
  | opening name => some name
  | _ => none

/-- The reference that a line holds. -/
def referred? : Line → Option Reference
  | reference r => some r
  | _ => none

/-- A line at which the table before it ends. -/
def isEdge : Line → Bool
  | opening _ | closing => true
  | _ => false

/-- A line that opens or closes a table, or holds a field. -/
def isTabular : Line → Bool
  | opening _ | closing | field _ => true
  | _ => false

def isReference : Line → Bool
  | reference _ => true
  | _ => false

end SchemaAudit.Outline.Line

namespace SchemaAudit.Graph

open Outline (Line Reference)

/-! ### Blocks -/

/-- The names of the tables that lines open, each where it is opened first. -/
def openedNames (lines : List Line) : List String := (lines.filterMap Line.opened?).eraseDups

/-- The lines behind the last one that opens a table; all lines if none does. -/
def behindOpening (lines : List Line) (name : String) : List Line :=
  lines.rtakeWhile (· != .opening name)

/-- The fields of a table: those on the lines behind the last one that opens it, up to the next
line that opens or closes a table. -/
def blockFields (lines : List Line) (name : String) : List Field :=
  ((behindOpening lines name).takeWhile fun line => !line.isEdge).filterMap Line.entry?

/-- A table with the fields of its last block. -/
def blockTable (lines : List Line) (name : String) : Table := ⟨name, name, blockFields lines name⟩

/-- The table that is open behind lines. -/
def openedBehind (lines : List Line) : Option String :=
  (lines.filter Line.isEdge).getLast?.bind Line.opened?

theorem mem_openedNames {lines : List Line} {name : String} :
    name ∈ openedNames lines ↔ Line.opening name ∈ lines := by
  rw [openedNames, List.mem_eraseDups, List.mem_filterMap]
  constructor
  · rintro ⟨line, hline, hname⟩
    cases line with
    | opening other =>
      obtain rfl := Option.some.inj hname
      exact hline
    | _ => cases hname
  · intro h
    exact ⟨_, h, rfl⟩

/-- A further member is kept if it has not been there before. -/
theorem eraseDups_append_singleton {α : Type} [DecidableEq α] (as : List α) (a : α) :
    (as ++ [a]).eraseDups = if a ∈ as then as.eraseDups else as.eraseDups ++ [a] := by
  rw [List.eraseDups_append]
  by_cases h : a ∈ as
  · simp [List.removeAll, h]
  · simp [List.removeAll, h, List.eraseDups_cons]

/-- Where a run ends before the end of a list, nothing behind the list belongs to it. -/
theorem takeWhile_append_of_not_forall {α : Type} {p : α → Bool} {as : List α}
    (h : ¬∀ a ∈ as, p a = true) (more : List α) :
    (as ++ more).takeWhile p = as.takeWhile p := by
  rw [List.takeWhile_append, if_neg]
  intro hlength
  have hself : as.takeWhile p = as := (List.takeWhile_prefix p).eq_of_length hlength
  exact h (List.takeWhile_eq_self_iff.1 hself)

theorem openedNames_opening (lines : List Line) (name : String) :
    openedNames (lines ++ [.opening name])
      = if name ∈ openedNames lines then openedNames lines else openedNames lines ++ [name] := by
  have hsplit : openedNames (lines ++ [.opening name])
      = (lines.filterMap Line.opened? ++ [name]).eraseDups := by
    rw [openedNames, List.filterMap_append]
    rfl
  rw [hsplit]
  simp only [eraseDups_append_singleton, openedNames, List.mem_eraseDups]

theorem openedNames_append_of_opened? {lines : List Line} {line : Line}
    (h : line.opened? = none) : openedNames (lines ++ [line]) = openedNames lines := by
  simp [openedNames, List.filterMap_append, h]

theorem nodup_openedNames (lines : List Line) : (openedNames lines).Nodup := by
  induction lines using List.reverseRecOn with
  | nil => exact List.nodup_nil
  | append_singleton lines line ih =>
    cases line with
    | opening name =>
      rw [openedNames_opening]
      split
      · exact ih
      · rename_i hnew
        apply List.nodup_append.2 ⟨ih, by simp, ?_⟩
        intro other hother new hmem heq
        exact hnew (List.mem_singleton.1 hmem ▸ heq ▸ hother)
    | _ => rwa [openedNames_append_of_opened? rfl]

theorem behindOpening_opening (lines : List Line) (name : String) :
    behindOpening (lines ++ [.opening name]) name = [] :=
  List.rtakeWhile_concat_neg _ _ _ (by simp)

theorem behindOpening_append_of_ne {line : Line} {name : String} (h : line ≠ .opening name)
    (lines : List Line) :
    behindOpening (lines ++ [line]) name = behindOpening lines name ++ [line] := by
  apply List.rtakeWhile_concat_pos
  simpa using h

/-- A line that opens a table empties it. -/
theorem blockFields_opening (lines : List Line) (name : String) :
    blockFields (lines ++ [.opening name]) name = [] := by
  rw [blockFields, behindOpening_opening]
  rfl

/-- Other lines without a field leave the fields of a table as they are. -/
theorem blockFields_append_of_entry? {line : Line} {name : String} (hopen : line ≠ .opening name)
    (hentry : line.entry? = none) (lines : List Line) :
    blockFields (lines ++ [line]) name = blockFields lines name := by
  rw [blockFields, behindOpening_append_of_ne hopen]
  by_cases hinner : ∀ inner ∈ behindOpening lines name, (!inner.isEdge) = true
  · rw [List.takeWhile_append_of_pos hinner, List.filterMap_append, blockFields,
      List.takeWhile_eq_self_iff.2 hinner]
    by_cases hedge : line.isEdge = true
    · simp [hedge]
    · simp [hedge, hentry]
  · rw [takeWhile_append_of_not_forall hinner, blockFields]

theorem openedBehind_append (lines : List Line) (line : Line) :
    openedBehind (lines ++ [line])
      = if line.isEdge then line.opened? else openedBehind lines := by
  by_cases hedge : line.isEdge = true
  · simp [openedBehind, hedge]
  · simp [openedBehind, hedge]

/-- A table is open if none of the lines behind the last one that opens it ends it. -/
theorem openedBehind_eq_some_iff {lines : List Line} {name : String}
    (h : Line.opening name ∈ lines) :
    openedBehind lines = some name
      ↔ ∀ line ∈ behindOpening lines name, (!line.isEdge) = true := by
  induction lines using List.reverseRecOn with
  | nil => exact absurd h List.not_mem_nil
  | append_singleton lines line ih =>
    by_cases hopen : line = .opening name
    · subst hopen
      rw [behindOpening_opening]
      simp [openedBehind_append, Line.isEdge, Line.opened?]
    · have hbefore : Line.opening name ∈ lines := by
        rcases List.mem_append.1 h with h | h
        · exact h
        · exact absurd (List.mem_singleton.1 h).symm hopen
      rw [behindOpening_append_of_ne hopen, List.forall_mem_append, List.forall_mem_singleton]
      by_cases hedge : line.isEdge = true
      · have hother : line.opened? ≠ some name := by
          intro heq
          cases line with
          | opening other => exact hopen (congrArg _ (Option.some.inj heq))
          | _ => cases heq
        simp [openedBehind_append, hedge, hother]
      · simpa [openedBehind_append, hedge] using ih hbefore

/-- A field belongs to the table that is open, and to no other. -/
theorem blockFields_field {lines : List Line} {name : String} (h : Line.opening name ∈ lines)
    (f : Field) :
    blockFields (lines ++ [.field f]) name
      = if openedBehind lines = some name then blockFields lines name ++ [f]
        else blockFields lines name := by
  rw [blockFields, behindOpening_append_of_ne (by simp)]
  split
  · rename_i hopen
    have hinner := (openedBehind_eq_some_iff h).1 hopen
    rw [List.takeWhile_append_of_pos hinner, blockFields, List.takeWhile_eq_self_iff.2 hinner]
    simp [Line.isEdge, Line.entry?]
  · rename_i hclosed
    rw [takeWhile_append_of_not_forall (hclosed ∘ (openedBehind_eq_some_iff h).2), blockFields]

/-! ### The draft that lines make up -/

/-- The tables of all names that lines open. -/
def blockTables (lines : List Line) : List Table := (openedNames lines).map (blockTable lines)

/-- The draft that lines make up. -/
def draftOf (lines : List Line) : Draft :=
  ⟨blockTables lines, openedBehind lines, lines.filterMap Line.referred?⟩

theorem map_name_blockTables (lines : List Line) :
    (blockTables lines).map Table.name = openedNames lines := by
  rw [blockTables, List.map_map]
  exact List.map_id _

/-- No name stands twice, so that all tables of a name are changed with the first. -/
theorem updateFirst_blockTables (lines : List Line) (name : String) (f : Table → Table) :
    updateFirst (fun t => t.name == name) f (blockTables lines)
      = (openedNames lines).map fun other =>
          if other = name then f (blockTable lines other) else blockTable lines other := by
  have hnodup : ((blockTables lines).map Table.name).Nodup := by
    rw [map_name_blockTables]
    exact nodup_openedNames lines
  rw [updateFirst_eq_map hnodup, blockTables, List.map_map]
  rfl

theorem blockTable_append_of_entry? {line : Line} {name : String} (hopen : line ≠ .opening name)
    (hentry : line.entry? = none) (lines : List Line) :
    blockTable (lines ++ [line]) name = blockTable lines name := by
  rw [blockTable, blockTable, blockFields_append_of_entry? hopen hentry]

/-- A line that opens no table and holds no field leaves the tables as they are. -/
theorem blockTables_append {line : Line} (hopen : line.opened? = none) (hentry : line.entry? = none)
    (lines : List Line) : blockTables (lines ++ [line]) = blockTables lines := by
  rw [blockTables, blockTables, openedNames_append_of_opened? hopen]
  apply List.map_congr_left
  intro name _
  apply blockTable_append_of_entry? ?_ hentry
  intro heq
  rw [heq] at hopen
  cases hopen

/-- A line that opens a table empties it where it stands, or adds it at the end. -/
theorem blockTables_opening (lines : List Line) (name : String) :
    blockTables (lines ++ [.opening name])
      = if (blockTables lines).any (fun t => t.name == name) then
          updateFirst (fun t => t.name == name) (fun t => { t with fields := [] })
            (blockTables lines)
        else blockTables lines ++ [⟨name, name, []⟩] := by
  have hany : (blockTables lines).any (fun t => t.name == name) = true
      ↔ name ∈ openedNames lines := by
    simp [← map_name_blockTables lines]
  have hothers : ∀ other, other ≠ name →
      blockTable (lines ++ [.opening name]) other = blockTable lines other := by
    intro other hother
    exact blockTable_append_of_entry? (by simpa using hother.symm) rfl lines
  have hnew : blockTable (lines ++ [.opening name]) name = ⟨name, name, []⟩ := by
    rw [blockTable, blockFields_opening]
  rw [blockTables, openedNames_opening]
  by_cases h : name ∈ openedNames lines
  · rw [if_pos h, if_pos (hany.2 h), updateFirst_blockTables]
    apply List.map_congr_left
    intro other _
    by_cases hother : other = name
    · rw [if_pos hother, hother, hnew]
      rfl
    · rw [if_neg hother, hothers other hother]
  · rw [if_neg h, if_neg (h ∘ hany.1), List.map_append, List.map_singleton, hnew, blockTables]
    congr 1
    apply List.map_congr_left
    intro other hmem
    apply hothers
    intro heq
    exact h (heq ▸ hmem)

/-- A field goes to the table that is open. -/
theorem blockTables_field (lines : List Line) (f : Field) :
    blockTables (lines ++ [.field f])
      = match openedBehind lines with
        | none => blockTables lines
        | some name =>
          updateFirst (fun t => t.name == name) (fun t => { t with fields := t.fields ++ [f] })
            (blockTables lines) := by
  have hblock : ∀ name ∈ openedNames lines, blockFields (lines ++ [.field f]) name
      = if openedBehind lines = some name then blockFields lines name ++ [f]
        else blockFields lines name := by
    intro name hname
    exact blockFields_field (mem_openedNames.1 hname) f
  rw [blockTables, openedNames_append_of_opened? rfl]
  split
  · rename_i hnone
    apply List.map_congr_left
    intro name hname
    rw [blockTable, hblock name hname, hnone, if_neg (by simp)]
    rfl
  · rename_i opened hsome
    rw [updateFirst_blockTables]
    apply List.map_congr_left
    intro name hname
    rw [blockTable, hblock name hname, hsome]
    by_cases h : name = opened
    · rw [if_pos h, if_pos (congrArg some h.symm)]
      rfl
    · rw [if_neg h, if_neg (by simpa using Ne.symm h)]
      rfl

/-- **One more line changes the draft as it changes what is read off the lines.** -/
theorem add_draftOf (lines : List Line) (line : Line) :
    (draftOf lines).add line = draftOf (lines ++ [line]) := by
  rw [draftOf, draftOf, List.filterMap_append, openedBehind_append]
  cases line with
  | opening name => simp [Draft.add, blockTables_opening, Line.isEdge, Line.opened?, Line.referred?]
  | closing =>
    rw [blockTables_append rfl rfl]
    simp [Draft.add, Line.isEdge, Line.opened?, Line.referred?]
  | field f =>
    rw [blockTables_field]
    cases hopened : openedBehind lines with
    | none => simp [Draft.add, Line.isEdge, Line.referred?]
    | some name => simp [Draft.add, Line.isEdge, Line.referred?]
  | reference r =>
    rw [blockTables_append rfl rfl]
    simp [Draft.add, Line.isEdge, Line.referred?]
  | other =>
    rw [blockTables_append rfl rfl]
    simp [Draft.add, Line.isEdge, Line.referred?]

/-- **All lines together make up the draft that is read off them.** -/
theorem foldl_add_eq_draftOf (lines : List Line) :
    lines.foldl Draft.add Draft.empty = draftOf lines := by
  induction lines using List.reverseRecOn with
  | nil => rfl
  | append_singleton lines line ih =>
    rw [List.foldl_append, ih]
    exact add_draftOf lines line

/-- **The tables of a graph are those that its outline opens, each with the fields of its last
block**, whatever the outline. They stand in the order in which they are opened first, no name
stands twice or is empty, and fields elsewhere belong to no table. -/
theorem tables_ofOutline_eq_blocks (outline : String) :
    ((ofOutline outline).tables.map Table.name).Nodup ∧
      (∀ t ∈ (ofOutline outline).tables, t.name ≠ "" ∧ t.id = t.name) ∧
      (ofOutline outline).tables.map Table.name
        = ((outlineLines outline).filterMap Line.opened?).eraseDups ∧
      ∀ t ∈ (ofOutline outline).tables, t.fields = blockFields (outlineLines outline) t.name := by
  have htables : (ofOutline outline).tables = blockTables (outlineLines outline) :=
    congrArg Draft.tables (foldl_add_eq_draftOf (outlineLines outline))
  have hnames : (ofOutline outline).tables.map Table.name = openedNames (outlineLines outline) := by
    rw [htables, map_name_blockTables]
  have hblock : ∀ t ∈ (ofOutline outline).tables, ∃ name,
      t = blockTable (outlineLines outline) name := by
    intro t ht
    rw [htables] at ht
    obtain ⟨name, -, rfl⟩ := List.mem_map.1 ht
    exact ⟨name, rfl⟩
  refine ⟨hnames ▸ nodup_openedNames _, ?_, hnames, ?_⟩
  · intro t ht
    obtain ⟨name, rfl⟩ := hblock t ht
    exact ⟨(Outline.hasPlainNames_ofOutline outline _ ht).1.1, rfl⟩
  · intro t ht
    obtain ⟨name, rfl⟩ := hblock t ht
    rfl

/-- A table that is opened again keeps its place and loses its fields; fields outside of tables and
other lines are passed over. -/
example : (ofOutline ("\"x\" int\nTable a \x7b\n\"x\" int\nTable b\n\x7d\n\"z\" int\nTable a\nNote\n"
    ++ "\"y\" int [unique]\n")).tables
      = [⟨"a", "a", [⟨"y", "int", ⟨false, false, false, true, false⟩⟩]⟩, ⟨"b", "b", []⟩] := by
  decide +kernel

/-! ### The place of references -/

/-- What a line says of tables does not depend on the references before it. -/
theorem add_of_isTabular {line : Line} (h : line.isTabular = true) (d : Draft)
    (references : List Reference) :
    { d with references }.add line = { d.add line with references } := by
  cases line with
  | opening name => rfl
  | closing => rfl
  | field f =>
    simp only [Draft.add]
    split
    · rfl
    · rfl
  | _ => cases h

/-- **Lines about tables and lines with references do not meddle with each other**: the tables are
those of the first alone, and the references those of the others. -/
theorem foldl_add_eq (lines : List Line) (d : Draft) :
    lines.foldl Draft.add d
      = { (lines.filter Line.isTabular).foldl Draft.add d with
          references := d.references ++ lines.filterMap Line.referred? } := by
  induction lines using List.reverseRecOn with
  | nil => simp
  | append_singleton lines line ih =>
    rw [List.foldl_append, ih, List.filter_append, List.foldl_append, List.filterMap_append]
    by_cases h : line.isTabular = true
    · have hnone : line.referred? = none := by
        cases line with
        | reference r => cases h
        | _ => rfl
      rw [List.filter_cons_of_pos h, List.filterMap_cons_none hnone, List.filterMap_nil,
        List.append_nil]
      exact add_of_isTabular h _ _
    · rw [List.filter_cons_of_neg h]
      cases line with
      | reference r => simp [Draft.add, Line.referred?]
      | other => simp [Draft.add, Line.referred?]
      | _ => exact absurd rfl h

theorem filterMap_referred?_filter (lines : List Line) :
    (lines.filter Line.isReference).filterMap Line.referred? = lines.filterMap Line.referred? := by
  rw [List.filterMap_filter]
  congr 1
  funext line
  cases line <;> rfl

/-- **References may stand anywhere**: two outlines whose lines have the same references in order and
say the same of tables in order describe the same graph, however these lines are mixed with each
other and with lines that say nothing. -/
theorem ofOutline_congr_of_filter {outline other : String}
    (hreferences : (outlineLines outline).filter Line.isReference
      = (outlineLines other).filter Line.isReference)
    (htables : (outlineLines outline).filter Line.isTabular
      = (outlineLines other).filter Line.isTabular) :
    ofOutline outline = ofOutline other := by
  have hdraft : (outlineLines outline).foldl Draft.add Draft.empty
      = (outlineLines other).foldl Draft.add Draft.empty := by
    rw [foldl_add_eq (outlineLines outline), foldl_add_eq (outlineLines other), htables,
      ← filterMap_referred?_filter (outlineLines outline), hreferences,
      filterMap_referred?_filter (outlineLines other)]
  rw [ofOutline, ofLines, hdraft]
  rfl

/-- A reference in front of its tables. -/
def visitsOutline : String :=
  "Ref: \"visit\".\"pet_id\" > \"pet\".\"id\"\nTable visit \x7b\n\"pet_id\" int\n\x7d\n"
    ++ "Table pet \x7b\n\"id\" int [pk]\n\x7d\n"

/-- The same reference within a table, behind a line that says nothing. -/
def mixedVisitsOutline : String :=
  "Table visit \x7b\n  Note: kept for a year\n  Ref: \"visit\".\"pet_id\" > \"pet\".\"id\"\n"
    ++ "  \"pet_id\" int\n\x7d\n\nTable \"pet\" \x7b\n  \"id\" int [pk]\n\x7d"

theorem ofOutline_mixedVisitsOutline :
    (outlineLines visitsOutline).filter Line.isReference
        = (outlineLines mixedVisitsOutline).filter Line.isReference ∧
      (outlineLines visitsOutline).filter Line.isTabular
        = (outlineLines mixedVisitsOutline).filter Line.isTabular ∧
      ofOutline visitsOutline = ofOutline mixedVisitsOutline := by
  have hreferences : (outlineLines visitsOutline).filter Line.isReference
      = (outlineLines mixedVisitsOutline).filter Line.isReference := by decide +kernel
  have htables : (outlineLines visitsOutline).filter Line.isTabular
      = (outlineLines mixedVisitsOutline).filter Line.isTabular := by decide +kernel
  exact ⟨hreferences, htables, ofOutline_congr_of_filter hreferences htables⟩

end SchemaAudit.Graph
