import SchemaAudit.Exchange
import SchemaAudit.Proofs.Json.Shape
import SchemaAudit.Proofs.Json.Written

/-!
# Graphs come back from their texts

The value that a graph is written as is decoded to that graph: keys, names of tags and kinds, and
the lists of any length line up. With the text of the value read back, the text of a graph is read
as that graph, whatever is in its texts. What is audited behind an exchange of texts is therefore
the very graph of the dump.

* `Field.decode_toJson`, `Table.decode_toJson`, `Relationship.decode_toJson`: the parts of a graph.
* `Graph.isComplete_toJson`: a graph is written without numbers, so its text is read back.
* `Graph.read_text`: the text of a graph is read as that graph.
* `Exchange.auditText_graphText`: texts are exchanged as if the graphs were.
-/

namespace SchemaAudit

open Decoder Shape

/-! ### Decoding -/

theorem Tag.mem_all (t : Tag) : t ∈ Tag.all := by cases t <;> decide

theorem Multiplicity.mem_all (m : Multiplicity) : m ∈ Multiplicity.all := by cases m <;> decide

theorem Field.decode_toJson (f : Field) : Field.shape.decode "Field" f.toJson = .ok f := by
  have htags : list (oneOf Tag.all Tag.name)
      (.list (f.tags.toList.map fun t => .string t.name)) = .ok f.tags.toList :=
    list_map fun t _ => oneOf_string (by decide) t.mem_all
  have h : Field.shape.Reads [("name", .string f.name), ("type", .string f.type),
      ("constraints", .list (f.tags.toList.map fun t => .string t.name))]
      ⟨f.name, f.type, Tags.ofList f.tags.toList⟩ := by
    refine Reads.map (x := (f.name, f.type, f.tags.toList)) ?_ _
    exact .cons rfl (.cons rfl (reads_field htags) (by simp)) (by simp)
  rw [Tags.ofList_toList] at h
  exact h.decode "Field"

theorem Table.decode_toJson (t : Table) : Table.shape.decode "Table" t.toJson = .ok t := by
  have hfields : list (Field.shape.decode "Field") (.list (t.fields.map Field.toJson))
      = .ok t.fields :=
    list_map fun f _ => f.decode_toJson
  have h : Table.shape.Reads [("id", .string t.id), ("name", .string t.name),
      ("fields", .list (t.fields.map Field.toJson))] t := by
    refine Reads.map (x := (t.id, t.name, t.fields)) ?_ _
    exact .cons rfl (.cons rfl (reads_field hfields) (by simp)) (by simp)
  exact h.decode "Table"

theorem Cardinality.decode_toJson (c : Cardinality) :
    Cardinality.shape.decode "RelationshipType" c.toJson = .ok c := by
  have hkind : oneOf Multiplicity.all Multiplicity.name (.string c.kind.name) = .ok c.kind :=
    oneOf_string (by decide) c.kind.mem_all
  have h : Cardinality.shape.Reads [("kind", .string c.kind.name),
      ("sourceRequired", .bool c.sourceRequired),
      ("targetRequired", .bool c.targetRequired)] c := by
    refine Reads.map (x := (c.kind, c.sourceRequired, c.targetRequired)) ?_ _
    exact .cons hkind (.cons rfl (reads_field rfl) (by simp)) (by simp)
  exact h.decode "RelationshipType"

theorem Relationship.decode_toJson (r : Relationship) :
    Relationship.shape.decode "Relationship" r.toJson = .ok r := by
  have h : Relationship.shape.Reads [("id", .string r.id), ("source", .string r.source),
      ("target", .string r.target), ("sourceField", .string r.sourceField),
      ("targetField", .string r.targetField), ("type", r.cardinality.toJson)] r := by
    refine Reads.map
      (x := (r.id, r.source, r.target, r.sourceField, r.targetField, r.cardinality)) ?_ _
    refine .cons rfl (.cons rfl (.cons rfl (.cons rfl (.cons rfl
      (reads_field r.cardinality.decode_toJson) ?_) ?_) ?_) ?_) ?_ <;> simp
  exact h.decode "Relationship"

/-- **The value of a graph is decoded to that graph.** -/
theorem Graph.ofJson_toJson (g : Graph) : Graph.ofJson g.toJson = .ok g := by
  have htables : list (Table.shape.decode "Table") (.list (g.tables.map Table.toJson))
      = .ok g.tables :=
    list_map fun t _ => t.decode_toJson
  have hrelationships : list (Relationship.shape.decode "Relationship")
      (.list (g.relationships.map Relationship.toJson)) = .ok g.relationships :=
    list_map fun r _ => r.decode_toJson
  have h : Graph.shape.Reads [("tables", .list (g.tables.map Table.toJson)),
      ("relationships", .list (g.relationships.map Relationship.toJson))] g := by
    refine Reads.map (x := (g.tables, g.relationships)) ?_ _
    exact .cons htables (reads_field hrelationships) (by simp)
  exact h.decode "SchemaGraph"

/-! ### Reading -/

open Json (IsComplete)

theorem Field.isComplete_toJson (f : Field) : IsComplete f.toJson := by
  have htags : IsComplete (.list (f.tags.toList.map fun t => .string t.name)) :=
    .list (List.forall_mem_map.2 fun t _ => .string t.name)
  exact .record (by simp [htags])

theorem Table.isComplete_toJson (t : Table) : IsComplete t.toJson := by
  have hfields : IsComplete (.list (t.fields.map Field.toJson)) :=
    .list (List.forall_mem_map.2 fun f _ => f.isComplete_toJson)
  exact .record (by simp [hfields])

theorem Relationship.isComplete_toJson (r : Relationship) : IsComplete r.toJson := by
  have hcardinality : IsComplete r.cardinality.toJson := .record (by simp)
  exact .record (by simp [hcardinality])

theorem Graph.isComplete_toJson (g : Graph) : IsComplete g.toJson := by
  have htables : IsComplete (.list (g.tables.map Table.toJson)) :=
    .list (List.forall_mem_map.2 fun t _ => t.isComplete_toJson)
  have hrelationships : IsComplete (.list (g.relationships.map Relationship.toJson)) :=
    .list (List.forall_mem_map.2 fun r _ => r.isComplete_toJson)
  exact .record (by simp [htables, hrelationships])

/-- **The text of a graph is read as that graph.** -/
theorem Graph.read_text (g : Graph) : Graph.read g.text = .ok g := by
  rw [Graph.read, Graph.text, Json.read_print g.isComplete_toJson, Decoder.accept, g.ofJson_toJson]
  rfl

/-- Graphs that differ have texts that differ. -/
theorem Graph.text_injective : Function.Injective Graph.text := by
  intro g g' h
  have hread : (Except.ok g : Except Refusal Graph) = .ok g' := by
    rw [← g.read_text, h, g'.read_text]
  exact Except.ok.inj hread

/-! ### Exchange -/

namespace Exchange

theorem auditText_text (g : Graph) : auditText g.text = .ok (audit g).text := by
  rw [auditText, g.read_text]
  rfl

/-- **Exchange of texts.** Every graph comes back from its text, and where a dump is answered by a
text, that text is answered by the text of the audit of the very graph of the dump. -/
theorem auditText_graphText (g : Graph) (sql : String) (dialectName : Option String) :
    Graph.read g.text = .ok g ∧
      (graphText sql dialectName).map auditText = (do
        let dialect ← requestedDialect sql dialectName
        let g ← Dump.graph dialect sql
        return .ok (audit g).text) := by
  refine ⟨g.read_text, ?_⟩
  rw [graphText]
  cases requestedDialect sql dialectName with
  | error e => rfl
  | ok dialect =>
    show (do return (← Dump.graph dialect sql).text : Except DumpError String).map auditText
      = (do return .ok (audit (← Dump.graph dialect sql)).text)
    cases Dump.graph dialect sql with
    | error e => rfl
    | ok g => exact congrArg Except.ok (auditText_text g)

end Exchange

end SchemaAudit
