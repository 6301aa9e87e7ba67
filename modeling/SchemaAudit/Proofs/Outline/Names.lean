import SchemaAudit.Proofs.Ddl.Sound
import SchemaAudit.Proofs.Outline.RoundTrip

/-!
# Which names come through an outline

A script may quote any name. Its schema holds the name, the outline writes it between double quotes
as it is, and a line of the outline is read up to the next double quote. Here is which names are read
from an outline, and what the lines of plain names are read as.

* `hasPlainNames_ofOutline`: all names that are read from an outline are plain, whatever it holds.
* `exists_reading?_columnLine`, `exists_reading?_referenceLine`: what the lines are read as when the
  names in front are plain.
* `foldl_add_entitiesLines`: the tables that the lines of entities make up. A column is shown if a
  type or a tag stands behind its name.
* `holdsPlainNames_of_eq`: only plain names come back.
-/

namespace SchemaAudit.Outline

open Ddl
open Text (FitsLine EndsInk)

/-! ### Names that are read are plain -/

theorem isPlain_of_quotedName? {s left : List Char} {name : String} (hs : '\n' ∉ s)
    (h : quotedName? s = some (name, left)) : IsPlain name := by
  cases s with
  | nil => cases h
  | cons c s =>
    rw [quotedName?] at h
    split at h
    · split at h
      · cases h
      · cases h
      · rename_i before after hne hcut
        obtain ⟨rfl, rfl⟩ := Prod.mk.injEq .. ▸ Option.some.inj h
        obtain ⟨rfl, hquote⟩ := Text.eq_append_of_cutAt? hcut
        refine ⟨fun hempty => ?_, ?_, ?_⟩
        · exact hne (by simpa using congrArg String.toList hempty)
        · rwa [String.toList_ofList]
        · rw [String.toList_ofList]
          exact fun hm => hs (by simp [hm])
    · cases h

theorem skipGap?_subset {s rest : List Char} (h : skipGap? s = some rest) : rest ⊆ s := by
  cases s with
  | nil => cases h
  | cons c s =>
    rw [skipGap?] at h
    split at h
    · obtain rfl := Option.some.inj h
      exact fun d hd => List.mem_cons_of_mem c ((List.dropWhile_sublist Text.isBlank).subset hd)
    · cases h

theorem isPlain_of_opening? {line : List Char} {name : String} (hline : '\n' ∉ line)
    (h : opening? line = some name) : IsPlain name := by
  obtain ⟨rest, hstrip, h⟩ := Option.bind_eq_some_iff.1 h
  obtain ⟨gap, hgap, h⟩ := Option.bind_eq_some_iff.1 h
  have hrest : '\n' ∉ gap := fun hm => hline (by
    rw [Text.eq_append_of_strip? hstrip]
    exact List.mem_append_right _ (skipGap?_subset hgap hm))
  split at h
  · rename_i quoted left hquoted
    obtain rfl := Option.some.inj h
    exact isPlain_of_quotedName? hrest hquoted
  · split at h
    · cases h
    · rename_i hbare
      obtain rfl := Option.some.inj h
      have hkind : ∀ c ∈ gap.takeWhile isBareChar, isBareChar c = true :=
        List.all_eq_true.1 List.all_takeWhile
      have hnot : ∀ {c : Char}, isBareChar c = false → c ∉ gap.takeWhile isBareChar := by
        intro c hc hm
        rw [hkind c hm] at hc
        cases hc
      refine ⟨fun hempty => hbare (by simpa using congrArg String.toList hempty), ?_, ?_⟩
      · rw [String.toList_ofList]
        exact hnot (by decide)
      · rw [String.toList_ofList]
        exact hnot (by decide)

theorem isPlain_of_field? {line : List Char} {f : Field} (hline : '\n' ∉ line)
    (h : field? line = some f) : IsPlain f.name := by
  obtain ⟨⟨name, rest⟩, hname, h⟩ := Option.bind_eq_some_iff.1 h
  obtain ⟨gap, hgap, h⟩ := Option.bind_eq_some_iff.1 h
  split at h
  · cases h
  · obtain rfl := Option.some.inj h
    exact isPlain_of_quotedName? hline hname

/-- The names that a line gives to a table or a field are plain. -/
def Line.IsPlain : Line → Prop
  | opening name => Outline.IsPlain name
  | field f => Outline.IsPlain f.name
  | _ => True

theorem Line.isPlain_ofText {line : List Char} (h : '\n' ∉ line) : (Line.ofText line).IsPlain := by
  rw [Line.ofText]
  split
  · trivial
  · split
    · rename_i name hname
      exact isPlain_of_opening? h hname
    · split
      · trivial
      · split
        · rename_i f hf
          exact isPlain_of_field? h hf
        · trivial

theorem isPlain_of_mem_outlineLines {outline : String} {line : Line}
    (h : line ∈ Graph.outlineLines outline) : line.IsPlain := by
  obtain ⟨text, htext, hline⟩ := List.mem_filterMap.1 h
  obtain ⟨raw, hraw, rfl⟩ := List.mem_map.1 htext
  split at hline
  · cases hline
  · obtain rfl := Option.some.inj hline
    exact Line.isPlain_ofText fun hm => Text.newline_not_mem_lines hraw (Text.trim_subset raw hm)

open SchemaAudit.Graph (Draft)

/-- The names of the table and of its fields are plain. -/
def HasPlainNames (t : Table) : Prop := IsPlain t.name ∧ ∀ f ∈ t.fields, IsPlain f.name

theorem hasPlainNames_add {d : Draft} {line : Line} (hd : ∀ t ∈ d.tables, HasPlainNames t)
    (hline : line.IsPlain) : ∀ t ∈ (d.add line).tables, HasPlainNames t := by
  cases line with
  | opening name =>
    show ∀ t ∈ ite _ _ _, HasPlainNames t
    split
    · exact forall_mem_updateFirst hd fun t ht => ⟨(hd t ht).1, by simp⟩
    · exact List.forall_mem_append.2 ⟨hd, List.forall_mem_singleton.2 ⟨hline, by simp⟩⟩
  | closing => exact hd
  | field f =>
    simp only [Draft.add]
    split
    · exact hd
    · refine forall_mem_updateFirst hd fun t ht => ⟨(hd t ht).1, ?_⟩
      exact List.forall_mem_append.2 ⟨(hd t ht).2, List.forall_mem_singleton.2 hline⟩
  | reference r => exact hd
  | other => exact hd

theorem hasPlainNames_foldl {lines : List Line} (hlines : ∀ line ∈ lines, line.IsPlain) {d : Draft}
    (hd : ∀ t ∈ d.tables, HasPlainNames t) :
    ∀ t ∈ (lines.foldl Draft.add d).tables, HasPlainNames t := by
  induction lines generalizing d with
  | nil => exact hd
  | cons line lines ih =>
    obtain ⟨hfirst, hrest⟩ := List.forall_mem_cons.1 hlines
    exact ih hrest (hasPlainNames_add hd hfirst)

/-- **All names in a graph that is read from an outline are plain**, whatever the outline. -/
theorem hasPlainNames_ofOutline (outline : String) :
    ∀ t ∈ (Graph.ofOutline outline).tables, HasPlainNames t :=
  hasPlainNames_foldl (fun _ => isPlain_of_mem_outlineLines) (by simp [Draft.empty])

/-! ### Lines of plain names -/

/-- Something stands behind the name on the line of the column. -/
def IsShown (s : Schema) (e : Entity) (c : Column) : Prop := c.type ≠ "" ∨ tagNames s e c ≠ []

instance (s : Schema) (e : Entity) (c : Column) : Decidable (IsShown s e c) :=
  inferInstanceAs (Decidable (_ ∨ _))

/-- The field that a line holds. -/
def Line.entry? : Line → Option Field
  | field f => some f
  | _ => none

/-- A line within a table. -/
def Line.IsInner (line : Line) : Prop := line = .other ∨ ∃ f, line = .field f

theorem Line.ofText_quote {s : List Char} (h : s.head? = some '\x22') :
    Line.ofText s = ((field? s).map Line.field).getD .other := by
  obtain ⟨rest, rfl⟩ := List.head?_eq_some_iff.1 h
  have hbrace : ('\x22' :: rest) ≠ ofText.closingBrace := by
    intro e
    exact absurd (List.cons.inj e).1 (by decide)
  have ho : opening? ('\x22' :: rest) = none := rfl
  have hr : reference? ('\x22' :: rest) = none := rfl
  rw [Line.ofText, if_neg hbrace, ho, hr]
  cases field? ('\x22' :: rest) <;> rfl

/-- Without a type, the tags are taken for one. -/
theorem field?_untyped {name : String} (hn : IsPlain name) {tags : List String} (hne : tags ≠ []) :
    ∃ f, field? (fieldText name "" tags) = some f ∧ f.name = name := by
  obtain ⟨first, more, rfl⟩ := List.exists_cons_of_ne_nil hne
  let list := (String.intercalate ", " (first :: more)).toList ++ [']']
  have htext : fieldText name "" (first :: more) = (quote name).toList ++ ' ' :: ' ' :: '[' :: list := by
    simp [fieldText, tagList, list]
  have hgap : skipGap? (' ' :: ' ' :: '[' :: list) = some ('[' :: list) := by
    rw [skipGap?, if_pos (by decide)]
    have hblank : [' '].all Text.isBlank = true := by decide
    exact congrArg some (Text.trimStart_append_of_blank (List.all_eq_true.1 hblank) _)
  have hopen : ('[' :: list).takeWhile (fun c => !Text.isBlank c)
      = '[' :: list.takeWhile (fun c => !Text.isBlank c) := List.takeWhile_cons_of_pos (by decide)
  simp only [field?, htext, quotedName?_quote hn, Option.bind_eq_bind, Option.bind_some, hgap, hopen]
  exact ⟨_, rfl, rfl⟩

/-- Without a type and tags, nothing stands behind the name. -/
theorem reading?_bare {name : String} (hn : IsPlain name) :
    FitsLine ("  " ++ quote name ++ " ").toList ∧
      reading? ("  " ++ quote name ++ " ") = some .other := by
  have htext : ("  " ++ quote name ++ " ").toList = [' ', ' '] ++ (quote name).toList ++ [' '] := by
    simp
  refine ⟨⟨?_, ?_⟩, ?_⟩
  · rw [htext]
    simp [newline_not_mem_quote hn]
  · rw [htext]
    exact Text.dropReturn_append_singleton (by decide) _
  · have hink : (quote name).toList ++ [' '] = ('\x22' :: name.toList) ++ '\x22' :: [' '] := by
      rw [quote_toList]
      simp
    have hblanks : [' ', ' '].all Text.isBlank = true := by decide
    have htrim : Text.trim ("  " ++ quote name ++ " ").toList = (quote name).toList := by
      rw [htext, List.append_assoc, Text.trim,
        Text.trimStart_append_of_blank (List.all_eq_true.1 hblanks), trimStart_quote, hink,
        Text.trimEnd_append_cons isBlank_quote, quote_toList]
      rfl
    have hfield : field? (quote name).toList = none := by
      have hquoted := quotedName?_quote hn []
      rw [List.append_nil] at hquoted
      simp [field?, hquoted, skipGap?]
    have hhead : (quote name).toList.head? = some '\x22' := by rw [quote_toList]; rfl
    rw [reading?, htrim, Line.ofText_quote hhead, hfield, quote_toList]
    rfl

theorem reading?_untyped {name : String} (hn : IsPlain name) {tags : List String}
    (hne : tags ≠ []) (htags : ∀ t ∈ tags, IsTagWord t) {line : String}
    (htext : line.toList = [' ', ' '] ++ fieldText name "" tags) :
    FitsLine line.toList ∧ ∃ f, reading? line = some (.field f) ∧ f.name = name := by
  obtain ⟨f, hf, hname⟩ := field?_untyped hn hne
  have hhead : (fieldText name "" tags).head? = some '\x22' := by
    rw [fieldText, quote_toList]
    rfl
  have hend : EndsInk (fieldText name "" tags) := ((endsInk_tagList hne).append [' ']).append _
  refine ⟨.of_endsInk ?_ (htext ▸ hend.append _), f, ?_, hname⟩
  · rw [htext, fieldText]
    simp [newline_not_mem_quote hn, newline_not_mem_tagList htags]
  · have hblanks : [' ', ' '].all Text.isBlank = true := by decide
    have hquote := Line.ofText_quote hhead
    rw [hf] at hquote
    obtain ⟨rest, hrest⟩ := List.head?_eq_some_iff.1 hhead
    rw [hrest] at htext hend hquote
    rw [reading?_of_ink [' ', ' '] htext (List.all_eq_true.1 hblanks) isBlank_quote hend, hquote]
    rfl

/-- The line of a column is read as a field of its name, or as nothing. -/
theorem exists_reading?_columnLine {s : Schema} {e : Entity} {c : Column} (hn : IsPlain c.name)
    (ht : TypeName.Unspaced c.type.toList) :
    FitsLine (columnLine s e c).toList ∧ ∃ line, reading? (columnLine s e c) = some line ∧
      line.IsInner ∧
      line.entry?.map Field.name = if IsShown s e c then some c.name else none := by
  by_cases htype : c.type = ""
  · by_cases htags : tagNames s e c = []
    · obtain ⟨hfits, hread⟩ := reading?_bare hn
      have hline : columnLine s e c = "  " ++ quote c.name ++ " " := by
        simp [columnLine, htype, htags, tagList]
      have hshown : ¬IsShown s e c := fun h => h.elim (· htype) (· htags)
      rw [hline, if_neg hshown]
      exact ⟨hfits, .other, hread, .inl rfl, rfl⟩
    · have hline : (columnLine s e c).toList
          = [' ', ' '] ++ fieldText c.name "" (tagNames s e c) := by
        simp [columnLine, fieldText, htype]
      obtain ⟨hfits, f, hread, hname⟩ :=
        reading?_untyped hn htags (fun t => isTagWord_of_mem_tagNames) hline
      have hshown : IsShown s e c := .inr htags
      rw [if_pos hshown]
      exact ⟨hfits, _, hread, .inr ⟨f, rfl⟩, congrArg some hname⟩
  · have hshown : IsShown s e c := .inl htype
    obtain ⟨hfits, hread⟩ := reading?_columnLine (s := s) (e := e) hn ⟨htype, ht⟩
    rw [if_pos hshown]
    exact ⟨hfits, _, hread, .inr ⟨_, rfl⟩, rfl⟩

/-- The line of a reference opens no table and holds no field. -/
theorem exists_reading?_referenceLine {s : Schema} {r : ForeignKey} {column target : String}
    (h : '\n' ∉ (referenceLine s r column target).toList) :
    FitsLine (referenceLine s r column target).toList ∧
      ∃ line, reading? (referenceLine s r column target) = some line ∧
        (line = .other ∨ ∃ r, line = .reference r) := by
  obtain ⟨sign, -, htext⟩ := exists_referenceText s r column target
  have hend := endsInk_referenceText ⟨r.table, column, r.target, target⟩ sign
  refine ⟨.of_endsInk h (htext ▸ hend), _,
    reading?_of_ink [] htext (by simp) (by decide) hend, ?_⟩
  have hbrace : referenceText ⟨r.table, column, r.target, target⟩ sign
      ≠ Line.ofText.closingBrace := by
    intro e
    exact absurd (List.cons.inj e).1 (by decide)
  have ho : opening? (referenceText ⟨r.table, column, r.target, target⟩ sign) = none := rfl
  have hf : field? (referenceText ⟨r.table, column, r.target, target⟩ sign) = none := rfl
  cases hr : reference? (referenceText ⟨r.table, column, r.target, target⟩ sign) with
  | none =>
    refine .inl ?_
    show Line.ofText (referenceText ⟨r.table, column, r.target, target⟩ sign) = .other
    rw [Line.ofText, if_neg hbrace, ho, hr, hf]
  | some reference =>
    refine .inr ⟨reference, ?_⟩
    show Line.ofText (referenceText ⟨r.table, column, r.target, target⟩ sign) = .reference reference
    rw [Line.ofText, if_neg hbrace, ho, hr]

/-! ### The tables that the lines make up -/

/-- Lines within a table add their fields to it. -/
theorem foldl_add_inner {lines : List Line} (h : ∀ line ∈ lines, line.IsInner) (d : Draft) :
    lines.foldl Draft.add d = ((lines.filterMap Line.entry?).map Line.field).foldl Draft.add d := by
  induction lines generalizing d with
  | nil => rfl
  | cons line lines ih =>
    obtain ⟨hfirst, hrest⟩ := List.forall_mem_cons.1 h
    rw [List.foldl_cons, ih hrest]
    rcases hfirst with rfl | ⟨f, rfl⟩ <;> rfl

/-- The name of a table with the names of its fields. -/
def namesOf (t : Table) : String × List String := (t.name, t.fields.map Field.name)

/-- The name of an entity with the names of those of its columns that are shown. -/
def shownNames (s : Schema) (e : Entity) : String × List String :=
  (e.name, (e.columns.filter (IsShown s e ·)).map Column.name)

/-- A schema of which all names can stand on a line. -/
structure HoldsPlainNames (s : Schema) : Prop where
  entity : ∀ e ∈ s.entities, IsPlain e.name
  column : ∀ e ∈ s.entities, ∀ c ∈ e.columns, IsPlain c.name

/-- The lines of columns give the fields that are shown, and nothing else. -/
theorem entries_columnLines {s : Schema} {e : Entity} {cs : List Column}
    (hc : ∀ c ∈ cs, IsPlain c.name ∧ TypeName.Unspaced c.type.toList) :
    (∀ line ∈ (cs.map (columnLine s e)).filterMap reading?, line.IsInner) ∧
      (((cs.map (columnLine s e)).filterMap reading?).filterMap Line.entry?).map Field.name
        = (cs.filter (IsShown s e ·)).map Column.name := by
  induction cs with
  | nil => exact ⟨by simp, rfl⟩
  | cons c cs ih =>
    obtain ⟨⟨hn, ht⟩, hrest⟩ := List.forall_mem_cons.1 hc
    obtain ⟨hinner, hnames⟩ := ih hrest
    obtain ⟨-, line, hread, hline, hname⟩ := exists_reading?_columnLine (s := s) (e := e) hn ht
    rw [List.map_cons, List.filterMap_cons, hread]
    refine ⟨List.forall_mem_cons.2 ⟨hline, hinner⟩, ?_⟩
    by_cases hshown : IsShown s e c
    · rw [if_pos hshown] at hname
      obtain ⟨f, hf, hfname⟩ := Option.map_eq_some_iff.1 hname
      rw [List.filter_cons_of_pos (by simpa using hshown)]
      simp only [List.filterMap_cons, hf, List.map_cons, hfname, hnames]
    · rw [if_neg hshown] at hname
      have hentry := Option.map_eq_none_iff.1 hname
      rw [List.filter_cons_of_neg (by simpa using hshown)]
      simp only [List.filterMap_cons, hentry, hnames]

/-- The lines of an entity add a table of its name. -/
theorem foldl_add_entityLines {s : Schema} {e : Entity} (hn : IsPlain e.name)
    (hc : ∀ c ∈ e.columns, IsPlain c.name ∧ TypeName.Unspaced c.type.toList) {d : Draft}
    (hd : ∀ t ∈ d.tables, t.name ≠ e.name) :
    ∃ t : Table, ((entityLines s e).filterMap reading?).foldl Draft.add d
        = ⟨d.tables ++ [t], none, d.references⟩ ∧ namesOf t = shownNames s e := by
  obtain ⟨hinner, hnames⟩ := entries_columnLines (s := s) (e := e) hc
  have hlines : (entityLines s e).filterMap reading? = Line.opening e.name ::
      ((e.columns.map (columnLine s e)).filterMap reading? ++ [.closing]) := by
    simp only [entityLines, List.filterMap_append, List.filterMap_cons, List.filterMap_nil,
      (reading?_opening hn).2, reading?_closing.2, List.cons_append, List.nil_append]
  refine ⟨⟨e.name, e.name,
    ((e.columns.map (columnLine s e)).filterMap reading?).filterMap Line.entry?⟩, ?_, ?_⟩
  · rw [hlines, List.foldl_cons, add_opening hd, List.foldl_append, foldl_add_inner hinner,
      foldl_add_fields hd]
    rfl
  · exact congrArg (Prod.mk e.name) hnames

theorem foldl_add_entitiesLines {s : Schema} {es : List Entity}
    (hes : ∀ e ∈ es, IsPlain e.name ∧
      ∀ c ∈ e.columns, IsPlain c.name ∧ TypeName.Unspaced c.type.toList)
    (hdistinct : (es.map Entity.name).Nodup) {d : Draft}
    (hd : ∀ e ∈ es, ∀ t ∈ d.tables, t.name ≠ e.name) :
    ((es.flatMap fun e => (entityLines s e).filterMap reading?).foldl Draft.add d).tables.map namesOf
      = d.tables.map namesOf ++ es.map (shownNames s) := by
  induction es generalizing d with
  | nil => simp
  | cons e es ih =>
    obtain ⟨⟨hn, hc⟩, hrest⟩ := List.forall_mem_cons.1 hes
    obtain ⟨hnew, hmore⟩ := List.nodup_cons.1 hdistinct
    obtain ⟨hfirst, hothers⟩ := List.forall_mem_cons.1 hd
    obtain ⟨t, hfold, hnames⟩ := foldl_add_entityLines (s := s) hn hc hfirst
    have htable : t.name = e.name := congrArg Prod.fst hnames
    rw [List.flatMap_cons, List.foldl_append, hfold, ih hrest hmore]
    · simp [hnames]
    · intro e' he' t' ht'
      rcases List.mem_append.1 ht' with ht' | ht'
      · exact hothers e' he' t' ht'
      · rw [List.mem_singleton.1 ht', htable]
        exact fun hname => hnew (List.mem_map.2 ⟨e', he', hname.symm⟩)

/-- The name of an entity with the names of its columns. -/
def entityNames (e : Entity) : String × List String := (e.name, e.columns.map Column.name)

/-- Names that come back are plain, because all names that are read are. -/
theorem holdsPlainNames_of_eq {s : Schema} {outline : String}
    (h : (Graph.ofOutline outline).tables.map namesOf = s.entities.map entityNames) :
    HoldsPlainNames s := by
  have htable : ∀ e ∈ s.entities, ∃ t, HasPlainNames t ∧ namesOf t = entityNames e := by
    intro e he
    have hmem : entityNames e ∈ (Graph.ofOutline outline).tables.map namesOf := by
      rw [h]
      exact List.mem_map_of_mem he
    obtain ⟨t, ht, hnames⟩ := List.mem_map.1 hmem
    exact ⟨t, hasPlainNames_ofOutline outline t ht, hnames⟩
  refine ⟨fun e he => ?_, fun e he c hc => ?_⟩
  · obtain ⟨t, hplain, hnames⟩ := htable e he
    have hname : t.name = e.name := congrArg Prod.fst hnames
    exact hname ▸ hplain.1
  · obtain ⟨t, hplain, hnames⟩ := htable e he
    have hfields : t.fields.map Field.name = e.columns.map Column.name := congrArg Prod.snd hnames
    have hmem : c.name ∈ t.fields.map Field.name := by
      rw [hfields]
      exact List.mem_map_of_mem hc
    obtain ⟨f, hf, hname⟩ := List.mem_map.1 hmem
    exact hname ▸ hplain.2 f hf

end SchemaAudit.Outline
