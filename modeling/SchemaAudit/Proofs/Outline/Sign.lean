import SchemaAudit.FirstMatch
import SchemaAudit.Proofs.Outline.RoundTrip

/-!
# The sign of a reference and the kind of its edge

Whether a foreign key goes from one row to one row is decided twice: for the sign that its line has
in the outline, and for the edge that is made from that line, off the tags of the field. Here is
when both decisions agree.

* `sign?`: the sign between the two ends of a written reference.
* `sign?_eq_dash_iff`, `kind_edgeOf_iff`: each decision in terms of the declared columns and keys.
* `IsKeyPart`, `IsOutdone`: the columns about which they differ. A column that is one of several of
  a primary key gets the sign of many rows and the kind of one; so, the other way round, does a
  column that stands before another one of its name.
* `sign_agrees_iff`: they agree on all other columns, and on none of these.

The lines are those of any schema that an outline can hold. The signs of other texts, which no
schema is written as, are not considered.
-/

namespace SchemaAudit.Outline

open Ddl

/-! ### Lines of references and their signs -/

/-- The lines of an outline that hold references. -/
def referenceTexts (s : Schema) : List String :=
  (lines s).filter fun line => "Ref".toList.isPrefixOf line.toList

/-- The sign between the two ends of a written reference. -/
def sign? (line : List Char) : Option Char := do
  let (_, rest) ← qualifiedField? (← Text.strip? "Ref: ".toList line)
  (Text.trimStart rest).head?

/-- The line of a reference. Its sign depends on the table and the column that refer. -/
def lineOf (s : Schema) (r : Reference) : String :=
  referenceLine s ⟨r.source, [], r.target, []⟩ r.sourceField r.targetField

/-- The sign and the kind say the same: one row to one row, or not. -/
def Agrees (line : String) (edge : Relationship) : Prop :=
  sign? line.toList = some '-' ↔ edge.cardinality.kind = .oneToOne

theorem isPrefixOf_referenceLine (s : Schema) (r : ForeignKey) (column target : String) :
    "Ref".toList.isPrefixOf (referenceLine s r column target).toList = true := by
  obtain ⟨sign, -, htext⟩ := exists_referenceText s r column target
  rw [htext, referenceText]
  rfl

/-- No line of an entity begins like a reference. -/
theorem isPrefixOf_entityLine {s : Schema} {e : Entity} {line : String}
    (h : line ∈ entityLines s e) : "Ref".toList.isPrefixOf line.toList = false := by
  simp only [entityLines, List.mem_append, List.mem_singleton, List.mem_map] at h
  rcases h with (rfl | ⟨c, -, rfl⟩) | rfl
  · rw [String.toList_append, String.toList_append, String.toList_append]
    rfl
  · rw [columnLine, String.toList_append, String.toList_append, String.toList_append,
      String.toList_append]
    rfl
  · rfl

/-- **The lines of references are written in the order of the references.** -/
theorem referenceTexts_eq (s : Schema) : referenceTexts s = (referencesOf s).map (lineOf s) := by
  have hentities : (entitiesLines s).filter (fun line => "Ref".toList.isPrefixOf line.toList)
      = [] := by
    refine List.filter_eq_nil_iff.2 fun line hline => ?_
    have hnone := forall_mem_flatten_intersperse
      (fun line => "Ref".toList.isPrefixOf line.toList = false) rfl (fun g hg line hline => by
        obtain ⟨e, -, rfl⟩ := List.mem_map.1 hg
        exact isPrefixOf_entityLine hline) line hline
    rw [hnone]
    exact Bool.false_ne_true
  have hreferences : (s.foreignKeys.flatMap (referenceLines s)).filter
      (fun line => "Ref".toList.isPrefixOf line.toList)
      = s.foreignKeys.flatMap (referenceLines s) := by
    refine List.filter_eq_self.2 fun line hline => ?_
    obtain ⟨r, -, hline⟩ := List.mem_flatMap.1 hline
    obtain ⟨⟨column, target⟩, -, rfl⟩ := List.mem_map.1 hline
    exact isPrefixOf_referenceLine s r column target
  have hlines : s.foreignKeys.flatMap (referenceLines s) = (referencesOf s).map (lineOf s) := by
    rw [referencesOf, List.map_flatMap]
    refine List.flatMap_congr fun r _ => ?_
    rw [List.map_map]
    rfl
  rw [referenceTexts, lines, List.filter_append, hentities, List.nil_append, ← hlines]
  split
  · rename_i hnone
    rw [List.isEmpty_iff.1 hnone]
    rfl
  · rw [List.filter_cons_of_neg (by decide)]
    exact hreferences

theorem sign?_lineOf {s : Schema} {r : Reference} (h : r.IsPlain) :
    sign? (lineOf s r).toList
      = some (if isOneToOne s ⟨r.source, [], r.target, []⟩ r.sourceField then '-' else '>') := by
  obtain ⟨hsource, hsourceField, -, -⟩ := h
  have hread : ∀ sign : String, ∀ c more, sign.toList = ' ' :: c :: more →
      Text.isBlank c = false →
      sign? (referenceText r sign) = some c := by
    intro sign c more hsign hc
    have hstrip : Text.strip? "Ref: ".toList (referenceText r sign) = some
        ((quote r.source).toList ++ '.' :: ((quote r.sourceField).toList
          ++ (sign.toList ++ ((quote r.target).toList
            ++ '.' :: ((quote r.targetField).toList ++ []))))) :=
      Text.strip?_append "Ref: ".toList _
    have hblank : Text.trimStart (sign.toList ++ ((quote r.target).toList
        ++ '.' :: ((quote r.targetField).toList ++ [])))
        = c :: (more ++ ((quote r.target).toList ++ '.' :: ((quote r.targetField).toList ++ []))) := by
      rw [hsign]
      exact Text.trimStart_cons hc _
    rw [sign?, hstrip]
    simp only [Option.bind_eq_bind, Option.bind_some, qualifiedField?_quote hsource hsourceField,
      hblank, List.head?_cons]
  have htext : (lineOf s r).toList = referenceText r
      (if isOneToOne s ⟨r.source, [], r.target, []⟩ r.sourceField then " - " else " > ") := by
    rw [lineOf, referenceLine, referenceText]
    simp only [String.toList_append, List.append_assoc, List.append_nil]
    rfl
  rw [htext]
  split
  · exact hread " - " '-' [' '] rfl (by decide)
  · exact hread " > " '>' [' '] rfl (by decide)

/-! ### The two decisions -/

/-- Something beside a primary key makes the column unique by itself. -/
def IsUnique (e : Entity) (column : String) : Prop :=
  Ddl.Key.unique [column] ∈ e.keys ∨ ∃ c ∈ e.columns, c.name = column ∧ .unique ∈ c.modifiers

/-- The column is one of several of the primary key, and not unique by itself. -/
def IsKeyPart (e : Entity) (c : Column) : Prop :=
  .primaryKey ∈ c.modifiers ∧ 1 < e.primaryColumns.length ∧ ¬ IsUnique e c.name

/-- The column is neither a key nor unique, but another one of its name is. -/
def IsOutdone (e : Entity) (c : Column) : Prop :=
  .primaryKey ∉ c.modifiers ∧ .unique ∉ c.modifiers ∧ Ddl.Key.unique [c.name] ∉ e.keys
    ∧ ∃ c' ∈ e.columns, c'.name = c.name ∧ (.unique ∈ c'.modifiers
      ∨ .primaryKey ∈ c'.modifiers ∧ e.primaryColumns.length ≤ 1)

/-- **The sign** depends on all columns of the name. -/
theorem isOneToOne_iff {s : Schema} {e : Entity} {r : ForeignKey} (he : s.entity? r.table = some e)
    (column : String) : isOneToOne s r column = true ↔ Ddl.Key.unique [column] ∈ e.keys
      ∨ ∃ c ∈ e.columns, c.name = column ∧ (.unique ∈ c.modifiers
        ∨ .primaryKey ∈ c.modifiers ∧ e.primaryColumns.length ≤ 1) := by
  rw [isOneToOne, he, Option.any_some, isUniqueOn_eq_decide, Bool.or_eq_true, decide_eq_true_iff,
    or_comm, List.any_eq_true]
  simp only [has_eq_decide, Bool.and_eq_true, Bool.or_eq_true, decide_eq_true_iff, beq_iff_eq]

theorem kind_cardinality_iff (f : Field) : f.cardinality.kind = .oneToOne
    ↔ (f.has .foreignKey = true ∨ namedLikeReference f.name = true)
      ∧ (f.has .primaryKey = true ∨ f.has .unique = true) := by
  rw [Field.cardinality]
  cases f.has .foreignKey <;> cases namedLikeReference f.name <;> cases f.has .primaryKey
    <;> cases f.has .unique <;> simp

theorem fieldAt_tableOf {s : Schema} {e : Entity} {c : Column} {table field : String}
    (he : s.entity? table = some e) (hc : e.columns.find? (fun c => c.name == field) = some c) :
    Graph.fieldAt (s.entities.map (tableOf s)) table field = fieldOf s e c := by
  have htable : (s.entities.map (tableOf s)).find? (fun t => t.name == table)
      = some (tableOf s e) := by
    have hnames : ((fun t : Table => t.name == table) ∘ tableOf s)
        = fun e : Entity => e.name == table := rfl
    rw [List.find?_map, hnames, show s.entities.find? _ = some e from he]
    rfl
  have hfield : (tableOf s e).field? field = some (fieldOf s e c) := by
    have hnames : ((fun f : Field => f.name == field) ∘ fieldOf s e)
        = fun c : Column => c.name == field := rfl
    rw [Table.field?, tableOf, List.find?_map, hnames, hc]
    rfl
  rw [Graph.fieldAt, htable, Option.bind_some, hfield, Option.getD_some]

/-- **The kind** depends on the first column of the name, which is tagged as a foreign key. -/
theorem kind_edgeOf_iff {s : Schema} {e : Entity} {c : Column} {r : Reference}
    (he : s.entity? r.source = some e)
    (hc : e.columns.find? (fun c => c.name == r.sourceField) = some c)
    (hr : ∃ k ∈ s.foreignKeys, k.table = r.source ∧ r.sourceField ∈ k.columns) :
    (edgeOf (s.entities.map (tableOf s)) r).cardinality.kind = .oneToOne
      ↔ .primaryKey ∈ c.modifiers ∨ .unique ∈ c.modifiers
        ∨ Ddl.Key.unique [r.sourceField] ∈ e.keys := by
  have hname : c.name = r.sourceField := name_of_find? hc
  have hentity : e.name = r.source := name_of_find? he
  have htagged : (fieldOf s e c).has .foreignKey = true := by
    rw [← hname, ← hentity] at hr
    exact decide_eq_true hr
  have hprimary : (fieldOf s e c).has .primaryKey = decide (.primaryKey ∈ c.modifiers) := rfl
  have hunique : (fieldOf s e c).has .unique
      = decide (.unique ∈ c.modifiers ∨ Ddl.Key.unique [c.name] ∈ e.keys) := rfl
  show (Graph.fieldAt _ r.source r.sourceField).cardinality.kind = .oneToOne ↔ _
  rw [fieldAt_tableOf he hc, kind_cardinality_iff, htagged, hprimary, hunique, hname]
  simp

/-- **The two decisions differ on parts of keys and on outdone columns, and only there.** -/
theorem decisions_agree_iff {e : Entity} {c : Column} (hc : c ∈ e.columns) :
    ((Ddl.Key.unique [c.name] ∈ e.keys ∨ ∃ c' ∈ e.columns, c'.name = c.name ∧
        (.unique ∈ c'.modifiers ∨ .primaryKey ∈ c'.modifiers ∧ e.primaryColumns.length ≤ 1))
      ↔ .primaryKey ∈ c.modifiers ∨ .unique ∈ c.modifiers ∨ Ddl.Key.unique [c.name] ∈ e.keys)
    ↔ ¬ IsKeyPart e c ∧ ¬ IsOutdone e c := by
  unfold IsKeyPart IsOutdone IsUnique
  by_cases hkey : Ddl.Key.unique [c.name] ∈ e.keys
  · simp [hkey]
  by_cases hunique : Modifier.unique ∈ c.modifiers
  · have hwitness : ∃ c' ∈ e.columns, c'.name = c.name ∧ Modifier.unique ∈ c'.modifiers :=
      ⟨c, hc, rfl, hunique⟩
    have hsign : ∃ c' ∈ e.columns, c'.name = c.name ∧ (Modifier.unique ∈ c'.modifiers
        ∨ Modifier.primaryKey ∈ c'.modifiers ∧ e.primaryColumns.length ≤ 1) :=
      ⟨c, hc, rfl, .inl hunique⟩
    simp only [hkey, hunique, hwitness, hsign, or_true, true_or, not_true_eq_false, and_false,
      not_false_eq_true, and_true]
  by_cases hprimary : Modifier.primaryKey ∈ c.modifiers
  · by_cases hlong : 1 < e.primaryColumns.length
    · have hshort : ¬ e.primaryColumns.length ≤ 1 := by omega
      simp only [hkey, hunique, hprimary, hlong, hshort, false_or, or_false, and_false, true_and,
        not_true_eq_false, false_and, not_false_eq_true, and_true, iff_true, not_not]
    · have hsign : ∃ c' ∈ e.columns, c'.name = c.name ∧ (Modifier.unique ∈ c'.modifiers
          ∨ Modifier.primaryKey ∈ c'.modifiers ∧ e.primaryColumns.length ≤ 1) :=
        ⟨c, hc, rfl, .inr ⟨hprimary, by omega⟩⟩
      simp only [hkey, hunique, hprimary, hlong, hsign, or_true, true_or, and_false, false_and,
        not_true_eq_false, not_false_eq_true, and_true]
  · simp only [hkey, hunique, hprimary, false_or, or_false, iff_false, false_and,
      not_false_eq_true, true_and]

/-! ### All references of a schema -/

theorem isPlain_of_mem_referencesOf {s : Schema} (h : Writable s) {r : Reference}
    (hr : r ∈ referencesOf s) : r.IsPlain
      ∧ ∃ k ∈ s.foreignKeys, k.table = r.source ∧ r.sourceField ∈ k.columns := by
  obtain ⟨k, hk, hr⟩ := List.mem_flatMap.1 hr
  obtain ⟨⟨column, target⟩, hpair, rfl⟩ := List.mem_map.1 hr
  obtain ⟨hcolumn, htarget⟩ := List.of_mem_zip hpair
  obtain ⟨htable, hgoal, hcolumns, htargets⟩ := h.reference k hk
  exact ⟨⟨htable, hcolumns _ hcolumn, hgoal, htargets _ htarget⟩, k, hk, rfl, hcolumn⟩

/-- The edges that are read from an outline are those that its schema declares. -/
theorem relationships_ofOutline {s : Schema} (h : Writable s) :
    (Graph.ofOutline (ofSchema s)).relationships = (graphOf s).relationships := by
  rw [Graph.ofOutline, Graph.ofLines, foldl_add_outlineLines h]
  rfl

/-- The tables and the columns that foreign keys refer from are declared. -/
def DeclaresSources (s : Schema) : Prop :=
  ∀ k ∈ s.foreignKeys, ∃ e ∈ s.entities, e.name = k.table ∧ k.columns ⊆ e.columns.map Column.name

/-- **For each line of a reference, the sign and the kind of its edge agree exactly if the column
that refers, which is the first one of its name, is neither part of a key of several columns nor
outdone by another column of its name.** -/
theorem sign_agrees_iff {s : Schema} (h : Writable s) (hsources : DeclaresSources s) {i : Nat}
    {line : String} (hline : (referenceTexts s)[i]? = some line) :
    ∃ edge e c, (Graph.ofOutline (ofSchema s)).relationships[i]? = some edge
      ∧ s.entity? edge.source = some e
      ∧ e.columns.find? (fun c => c.name == edge.sourceField) = some c
      ∧ (Agrees line edge ↔ ¬ IsKeyPart e c ∧ ¬ IsOutdone e c) := by
  rw [referenceTexts_eq, List.getElem?_map] at hline
  obtain ⟨r, hr, rfl⟩ := Option.map_eq_some_iff.1 hline
  obtain ⟨hplain, k, hk, htable, hcolumn⟩ := isPlain_of_mem_referencesOf h (List.mem_of_getElem? hr)
  obtain ⟨e, he, hname, hcolumns⟩ := hsources k hk
  have hentity : s.entity? r.source = some e := by
    rw [← htable, ← hname]
    exact find?_name h.distinct he
  obtain ⟨c, hc⟩ : ∃ c, e.columns.find? (fun c => c.name == r.sourceField) = some c := by
    obtain ⟨c, hmem, hc⟩ := List.mem_map.1 (hcolumns hcolumn)
    exact Option.isSome_iff_exists.1 (List.find?_isSome.2 ⟨c, hmem, beq_iff_eq.2 hc⟩)
  have hfield : c.name = r.sourceField := name_of_find? hc
  have hedge : (Graph.ofOutline (ofSchema s)).relationships[i]?
      = some (edgeOf (s.entities.map (tableOf s)) r) := by
    have hlength : i < ((referencesOf s).map (edgeOf (s.entities.map (tableOf s)))).length := by
      rw [List.length_map]
      exact (List.getElem?_eq_some_iff.1 hr).1
    rw [relationships_ofOutline h, graphOf, List.getElem?_append_left hlength, List.getElem?_map, hr]
    rfl
  refine ⟨_, e, c, hedge, hentity, hc, ?_⟩
  have hsign : sign? (lineOf s r).toList = some '-'
      ↔ isOneToOne s ⟨r.source, [], r.target, []⟩ r.sourceField = true := by
    rw [sign?_lineOf hplain]
    split <;> simp_all
  rw [← decisions_agree_iff (List.mem_of_find?_eq_some hc), Agrees, hsign,
    isOneToOne_iff hentity, kind_edgeOf_iff hentity hc ⟨k, hk, htable, hcolumn⟩, hfield]

theorem sign_agrees_iff_ordersSchema :
    Writable ordersSchema ∧ DeclaresSources ordersSchema ∧
      (referenceTexts ordersSchema)[0]? = some "Ref: \"order lines\".\"order_id\" > \"orders\".\"id\"" ∧
      ∃ edge e c, (Graph.ofOutline (ofSchema ordersSchema)).relationships[0]? = some edge
        ∧ ordersSchema.entity? edge.source = some e
        ∧ e.columns.find? (fun c => c.name == edge.sourceField) = some c
        ∧ (Agrees "Ref: \"order lines\".\"order_id\" > \"orders\".\"id\"" edge
          ↔ ¬ IsKeyPart e c ∧ ¬ IsOutdone e c) := by
  have h : Writable ordersSchema := ⟨by decide, by decide, by decide, by decide⟩
  have hsources : DeclaresSources ordersSchema := by unfold DeclaresSources; decide
  have hline : (referenceTexts ordersSchema)[0]?
      = some "Ref: \"order lines\".\"order_id\" > \"orders\".\"id\"" := by decide +kernel
  exact ⟨h, hsources, hline, sign_agrees_iff h hsources hline⟩

/-- A key of two columns, of which the first refers to orders that are not declared. -/
def orderItemsSchema : Schema where
  entities := [⟨"order_items",
    [⟨"order_id", "integer", [.primaryKey]⟩, ⟨"product_id", "integer", [.primaryKey]⟩],
    [.primary ["order_id", "product_id"]]⟩]
  foreignKeys := [⟨"order_items", ["order_id"], "orders", []⟩]

/-- The line of a part of a key has the sign of many rows, and its edge is of one row. -/
theorem not_agrees_orderItemsSchema :
    Writable orderItemsSchema ∧ DeclaresSources orderItemsSchema ∧
      ∃ line edge, referenceTexts orderItemsSchema = [line]
        ∧ (Graph.ofOutline (ofSchema orderItemsSchema)).relationships = [edge]
        ∧ line = "Ref: \"order_items\".\"order_id\" > \"orders\".\"id\""
        ∧ edge.cardinality.kind = .oneToOne ∧ ¬ Agrees line edge := by
  have h : Writable orderItemsSchema := ⟨by decide, by decide, by decide, by decide⟩
  refine ⟨h, by unfold DeclaresSources; decide, _,
    ⟨"ref:order_items.order_id->orders.id", "order_items", "orders", "order_id", "id",
      ⟨.oneToOne, true, true⟩⟩, by decide +kernel, ?_, rfl, rfl, ?_⟩
  · rw [relationships_ofOutline h]
    decide +kernel
  · unfold Agrees
    decide +kernel

end SchemaAudit.Outline
