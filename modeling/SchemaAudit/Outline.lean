import SchemaAudit.Ddl.Schema

/-!
# Outlines

An outline is the text of a schema, one thing to a line: the opening line of a table, its fields
with their types and tags, a closing brace, and a line for each pair of columns of a foreign key. It is
the intermediate text between a schema and its graph, which `serialize` writes and `build` reads.
-/

namespace SchemaAudit.Outline

open Ddl

def brace : String := "\x7b"

def closingBrace : String := "\x7d"

def quote (name : String) : String := "\"" ++ name ++ "\""

/-- The tags of a column, in the order in which they are written. -/
def tagNames (schema : Schema) (e : Entity) (c : Column) : List String :=
  let key := e.primaryColumns
  let refers := schema.foreignKeys.any fun r => r.table == e.name && r.columns.contains c.name
  (if c.has .primaryKey then ["pk"] else [])
    ++ (if key.length > 1 && key.contains c.name then ["composite-pk"] else [])
    ++ (if c.has .increment then ["increment"] else [])
    ++ (if refers then ["fk"] else [])
    ++ (if c.has .unique || e.isUniqueOn c.name then ["unique"] else [])
    ++ (if c.has .notNull then ["not null"] else [])

/-- Tags in brackets, with a space before them; nothing where there are none. -/
def tagList (tags : List String) : String :=
  if tags.isEmpty then "" else " [" ++ String.intercalate ", " tags ++ "]"

def columnLine (schema : Schema) (e : Entity) (c : Column) : String :=
  "  " ++ quote c.name ++ " " ++ c.type ++ tagList (tagNames schema e c)

def entityLines (schema : Schema) (e : Entity) : List String :=
  ["Table " ++ quote e.name ++ " " ++ brace] ++ e.columns.map (columnLine schema e)
    ++ [closingBrace]

/-- The columns that a foreign key points at: those it names, or else the primary key of its
target, or else `id`. -/
def targetColumns (schema : Schema) (r : ForeignKey) : List String :=
  if r.targetColumns.isEmpty then
    match (schema.entity? r.target).map Entity.primaryColumns with
    | none | some [] => ["id"]
    | some key => key
  else r.targetColumns

/-- Whether a column of a foreign key has each value once: it is unique, or the whole key. -/
def isOneToOne (schema : Schema) (r : ForeignKey) (column : String) : Bool :=
  (schema.entity? r.table).any fun e =>
    e.columns.any (fun c =>
      c.name == column && (c.has .unique || (c.has .primaryKey && e.primaryColumns.length ≤ 1)))
    || e.isUniqueOn column

def referenceLine (schema : Schema) (r : ForeignKey) (column targetColumn : String) : String :=
  "Ref: " ++ quote r.table ++ "." ++ quote column
    ++ (if isOneToOne schema r column then " - " else " > ")
    ++ quote r.target ++ "." ++ quote targetColumn

/-- A line for each column of a foreign key that has a target column: `serialize_ref`. -/
def referenceLines (schema : Schema) (r : ForeignKey) : List String :=
  (r.columns.zip (targetColumns schema r)).map fun (column, target) =>
    referenceLine schema r column target

/-- The lines of each entity, with an empty line before each but the first. -/
def entitiesLines (schema : Schema) : List String :=
  List.flatten ((schema.entities.map (entityLines schema)).intersperse [""])

/-- All lines of a schema, with an empty line before the references. -/
def lines (schema : Schema) : List String :=
  entitiesLines schema
    ++ if schema.foreignKeys.isEmpty then []
      else "" :: schema.foreignKeys.flatMap (referenceLines schema)

/-- The outline of a schema: `serialize`. -/
def ofSchema (schema : Schema) : String :=
  String.join ((lines schema).map fun line => line ++ "\n")

end SchemaAudit.Outline
