import SchemaAudit.FirstMatch
import SchemaAudit.Graph.Inference
import SchemaAudit.Outline.Line

/-!
# Graphs from outlines

The lines of an outline are read one after another. Fields go to the table that is open; a table
that is opened again loses the fields it had. References count wherever they stand, and they are
looked up in the tables as they are at the end.
-/

namespace SchemaAudit.Graph

open Outline (Line Reference)

/-- What has been read of an outline. -/
structure Draft where
  tables : List Table
  /-- The name of the table that is open. -/
  opened : Option String
  references : List Reference
  deriving DecidableEq, Repr

namespace Draft

def empty : Draft := ⟨[], none, []⟩

/-- The draft after a line. -/
def add (d : Draft) : Line → Draft
  | .opening name =>
    { d with
      tables :=
        if d.tables.any (fun t => t.name == name) then
          updateFirst (fun t => t.name == name) (fun t => { t with fields := [] }) d.tables
        else d.tables ++ [⟨name, name, []⟩]
      opened := some name }
  | .closing => { d with opened := none }
  | .field f =>
    match d.opened with
    | none => d
    | some name =>
      { d with
        tables :=
          updateFirst (fun t => t.name == name) (fun t => { t with fields := t.fields ++ [f] })
            d.tables }
  | .reference r => { d with references := d.references ++ [r] }
  | .other => d

end Draft

/-- The lines of an outline that are not blank. -/
def outlineLines (outline : String) : List Line :=
  ((Text.lines outline.toList).map Text.trim).filterMap fun line =>
    if line.isEmpty then none else some (Line.ofText line)

/-- The field of a table, or one of which only the name is known. -/
def fieldAt (tables : List Table) (table field : String) : Field :=
  ((tables.find? fun t => t.name == table).bind fun t => t.field? field).getD (.unknown field)

/-- The relationship that a reference declares. -/
def declared (tables : List Table) (r : Reference) : Relationship :=
  { id := "ref:" ++ r.source ++ "." ++ r.sourceField ++ "->" ++ r.target ++ "." ++ r.targetField
    source := r.source
    target := r.target
    sourceField := r.sourceField
    targetField := r.targetField
    cardinality := (fieldAt tables r.source r.sourceField).cardinality }

/-- The graph that lines of an outline make up: declared relationships first, then inferred
ones. -/
def ofLines (lines : List Line) : Graph :=
  let draft := lines.foldl Draft.add Draft.empty
  { tables := draft.tables
    relationships := draft.references.map (declared draft.tables) ++ inferRelationships draft.tables }

/-- The graph that an outline describes: `build`. -/
def ofOutline (outline : String) : Graph := ofLines (outlineLines outline)

end SchemaAudit.Graph
