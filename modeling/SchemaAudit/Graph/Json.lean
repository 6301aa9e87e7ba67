import SchemaAudit.Graph.Basic
import SchemaAudit.Json.Print
import SchemaAudit.Json.Read
import SchemaAudit.Json.Shape

/-!
# Graphs in object notation

Writing a graph as a text and reading it back. Lists of tables, relationships, fields and tags may
be left out when they are empty.
-/

namespace SchemaAudit

def Multiplicity.all : List Multiplicity := [.oneToOne, .oneToMany, .manyToMany]

def Multiplicity.name : Multiplicity → String
  | oneToOne => "one-to-one"
  | oneToMany => "one-to-many"
  | manyToMany => "many-to-many"

/-! ## Writing -/

def Field.toJson (f : Field) : Json :=
  .record [("name", .string f.name), ("type", .string f.type),
    ("constraints", .list (f.tags.toList.map fun t => .string t.name))]

def Table.toJson (t : Table) : Json :=
  .record [("id", .string t.id), ("name", .string t.name),
    ("fields", .list (t.fields.map Field.toJson))]

def Cardinality.toJson (c : Cardinality) : Json :=
  .record [("kind", .string c.kind.name), ("sourceRequired", .bool c.sourceRequired),
    ("targetRequired", .bool c.targetRequired)]

def Relationship.toJson (r : Relationship) : Json :=
  .record [("id", .string r.id), ("source", .string r.source), ("target", .string r.target),
    ("sourceField", .string r.sourceField), ("targetField", .string r.targetField),
    ("type", r.cardinality.toJson)]

def Graph.toJson (g : Graph) : Json :=
  .record [("tables", .list (g.tables.map Table.toJson)),
    ("relationships", .list (g.relationships.map Relationship.toJson))]

/-! ## Reading -/

open Decoder Shape

def Field.shape : Shape Field :=
  map (fun (name, type, tags) => ⟨name, type, Tags.ofList tags⟩)
    (both (required "name" string)
      (both (required "type" string)
        (withDefault [] "constraints" (list (oneOf Tag.all Tag.name)))))

def Table.shape : Shape Table :=
  map (fun (id, name, fields) => ⟨id, name, fields⟩)
    (both (required "id" string)
      (both (required "name" string)
        (withDefault [] "fields" (list (Field.shape.decode "Field")))))

def Cardinality.shape : Shape Cardinality :=
  map (fun (kind, source, target) => ⟨kind, source, target⟩)
    (both (required "kind" (oneOf Multiplicity.all Multiplicity.name))
      (both (required "sourceRequired" bool) (required "targetRequired" bool)))

def Relationship.shape : Shape Relationship :=
  map (fun (id, source, target, sourceField, targetField, cardinality) =>
      ⟨id, source, target, sourceField, targetField, cardinality⟩)
    (both (required "id" string)
      (both (required "source" string)
        (both (required "target" string)
          (both (required "sourceField" string)
            (both (required "targetField" string)
              (required "type" (Cardinality.shape.decode "RelationshipType")))))))

def Graph.shape : Shape Graph :=
  map (fun (tables, relationships) => ⟨tables, relationships⟩)
    (both (withDefault [] "tables" (list (Table.shape.decode "Table")))
      (withDefault [] "relationships" (list (Relationship.shape.decode "Relationship"))))

/-- The graph that a value describes. -/
def Graph.ofJson : Decoder Graph := Graph.shape.decode "SchemaGraph"

end SchemaAudit
