import SchemaAudit.Ddl.Script
import SchemaAudit.Dialect.Portable
import SchemaAudit.Graph.Outline
import SchemaAudit.Outline

/-!
# From dumps to graphs

A dump is made portable and read as an outline, by whatever reader of declarations is given; if
that fails, its salvaged text is tried, once. The outline gives the graph, which must have a table.
This is the pipeline `sql_to_schema_graph`; its first half, up to the outline, is `import`.
-/

namespace SchemaAudit

/-- Why declarations were not read. -/
inductive ImportError where
  | unreadable (cause : Ddl.ReadError)
  /-- A reader of declarations refused them in its own words. -/
  | rejected (message : String)
  deriving DecidableEq, Repr

/-- Why there is no graph of a dump: `PipelineError`. -/
inductive DumpError where
  | unreadable (dialect : Dialect) (cause : ImportError)
  | noTables
  | unknownDialect (name : String)
  deriving DecidableEq, Repr

def ImportError.message : ImportError → String
  | unreadable cause => cause.message
  | rejected message => message

def DumpError.message : DumpError → String
  | unreadable dialect cause =>
    "invalid SQL syntax for " ++ dialect.name ++ " dialect: " ++ cause.message
  | noTables => "no tables found"
  | unknownDialect name => "unsupported dialect: " ++ name

/-- Reads declarations of a dialect and gives their outline: `DdlImporter`. It may take notes while it
does. -/
abbrev Importer (m : Type → Type) := Dialect → String → m (Except ImportError String)

/-- The outline of the schema that declarations make up: `BuiltinImporter`. -/
def importOutline : Importer Id := fun dialect ddl =>
  match Ddl.Schema.read dialect ddl with
  | .ok schema => .ok (Outline.ofSchema schema)
  | .error cause => .error (.unreadable cause)

namespace Dump

/-- The outline of a dump, of its portable text or else of that text salvaged: `import`. -/
def outlineWith {m : Type → Type} [Monad m] (importer : Importer m) (dialect : Dialect)
    (sql : String) : m (Except DumpError String) := do
  let ddl := dialect.portable sql
  match ← importer dialect ddl with
  | .ok outline => return .ok outline
  | .error _ =>
    match ← importer dialect (Dialect.salvage ddl) with
    | .ok outline => return .ok outline
    | .error cause => return .error (.unreadable dialect cause)

/-- The graph of an outline, if it has a table. -/
def graphOfOutline (outline : String) : Except DumpError Graph :=
  let g := Graph.ofOutline outline
  if g.tables.isEmpty then .error .noTables else .ok g

/-- The graph of a dump: `sql_to_schema_graph_with`. -/
def graphWith {m : Type → Type} [Monad m] (importer : Importer m) (dialect : Dialect)
    (sql : String) : m (Except DumpError Graph) := do
  return (← outlineWith importer dialect sql).bind graphOfOutline

def outline (dialect : Dialect) (sql : String) : Except DumpError String :=
  Id.run (outlineWith importOutline dialect sql)

/-- The graph of a dump that is read by `Ddl.Schema.read`: `sql_to_schema_graph`. -/
def graph (dialect : Dialect) (sql : String) : Except DumpError Graph :=
  Id.run (graphWith importOutline dialect sql)

end Dump

end SchemaAudit
