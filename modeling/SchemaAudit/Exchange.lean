import SchemaAudit.Audit
import SchemaAudit.Audit.Json
import SchemaAudit.Dump
import SchemaAudit.Graph.Json

/-!
# Exchange of texts

Graphs and audit results are handed to other programs, and taken from them, as texts in object
notation. Two functions are there to be called from outside: a dump is answered by the text of its
graph, and the text of a graph by the text of its audit. They are exported as `sqlToSchemaGraph`
(`Exchange.graphText`) and `analyzeSchema` (`Exchange.auditText`).
-/

namespace SchemaAudit

/-! ## Graphs and results as texts -/

/-- The text of a graph: `to_json`. -/
def Graph.text (g : Graph) : String := g.toJson.print false

/-- The graph that a text describes: `from_json`. -/
def Graph.read (text : String) : Except Refusal Graph := Graph.ofJson.accept (Json.read text)

/-- The text of a result: `to_json`. -/
def AuditResult.text (r : AuditResult) : String := r.toJson.print false

/-- The result that a text describes: `from_json`. -/
def AuditResult.read (text : String) : Except Refusal AuditResult :=
  AuditResult.ofJson.accept (Json.read text)

/-! ## What is called from outside -/

namespace Exchange

/-- The dialect that is asked for by its name. No name and `auto` ask for the one that the text
shows. -/
def requestedDialect (sql : String) : Option String → Except DumpError Dialect
  | none => .ok (Dialect.detect sql)
  | some name =>
    if name = "auto" then .ok (Dialect.detect sql)
    else
      match Dialect.ofName? name with
      | some dialect => .ok dialect
      | none => .error (.unknownDialect name)

/-- The text of the graph of a dump: `sql_to_schema_graph_json`. -/
def graphText (sql : String) (dialectName : Option String) : Except DumpError String := do
  let dialect ← requestedDialect sql dialectName
  return (← Dump.graph dialect sql).text

/-- The text of the audit of the graph that a text describes: `analyze_schema_json`. -/
def auditText (graphText : String) : Except Refusal String := do
  return (audit (← Graph.read graphText)).text

end Exchange

end SchemaAudit
