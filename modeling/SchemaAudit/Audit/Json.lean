import SchemaAudit.Audit.Finding
import SchemaAudit.Json.Print
import SchemaAudit.Json.Read
import SchemaAudit.Json.Shape

/-!
# Audit results in object notation

Writing the result of an audit as a text and reading it back. The table and the field of a security
issue are left out where there are none.
-/

namespace SchemaAudit

/-! ## Writing -/

/-- A member that is left out where there is no value. -/
def optionalMember (key : String) : Option String → List (String × Json)
  | some s => [(key, .string s)]
  | none => []

def stringList (ss : List String) : Json := .list (ss.map .string)

def SecurityIssue.toJson (i : SecurityIssue) : Json :=
  .record ([("type", .string i.severity.name), ("category", .string i.category.name),
      ("title", .string i.title), ("description", .string i.description)]
    ++ optionalMember "table" i.table ++ optionalMember "field" i.field
    ++ [("recommendation", .string i.recommendation), ("impact", .string i.impact.name)])

def NormalizationIssue.toJson (i : NormalizationIssue) : Json :=
  .record [("type", .string i.kind.name), ("normalForm", .string i.normalForm.name),
    ("title", .string i.title), ("description", .string i.description), ("table", .string i.table),
    ("fields", stringList i.fields), ("recommendation", .string i.recommendation)]

def RobustnessMetric.toJson (m : RobustnessMetric) : Json :=
  .record [("category", .string m.category), ("score", .nat m.score),
    ("status", .string m.status.name), ("description", .string m.description),
    ("suggestions", stringList m.suggestions)]

def Summary.toJson (s : Summary) : Json :=
  .record [("totalTables", .nat s.totalTables), ("totalFields", .nat s.totalFields),
    ("totalRelationships", .nat s.totalRelationships), ("securityScore", .nat s.securityScore),
    ("normalizationScore", .nat s.normalizationScore),
    ("robustnessScore", .number (.float s.robustnessScore)),
    ("criticalIssues", .nat s.criticalIssues), ("warnings", .nat s.warnings),
    ("suggestions", .nat s.suggestions)]

def AuditResult.toJson (r : AuditResult) : Json :=
  .record [("overallScore", .nat r.overallScore),
    ("securityIssues", .list (r.securityIssues.map SecurityIssue.toJson)),
    ("normalizationIssues", .list (r.normalizationIssues.map NormalizationIssue.toJson)),
    ("robustnessMetrics", .list (r.robustnessMetrics.map RobustnessMetric.toJson)),
    ("summary", r.summary.toJson)]

/-! ## Reading -/

open Decoder Shape

def SecurityIssue.shape : Shape SecurityIssue :=
  map (fun (severity, category, title, description, table, place, recommendation, impact) =>
      ⟨severity, category, title, description, table, place, recommendation, impact⟩)
    (both (required "type" (oneOf Severity.all Severity.name))
      (both (required "category" (oneOf SecurityCategory.all SecurityCategory.name))
        (both (required "title" string)
          (both (required "description" string)
            (both (withDefault none "table" (optional string))
              (both (withDefault none "field" (optional string))
                (both (required "recommendation" string)
                  (required "impact" (oneOf Impact.all Impact.name)))))))))

def NormalizationIssue.shape : Shape NormalizationIssue :=
  map (fun (kind, normalForm, title, description, table, fields, recommendation) =>
      ⟨kind, normalForm, title, description, table, fields, recommendation⟩)
    (both (required "type" (oneOf NormalizationKind.all NormalizationKind.name))
      (both (required "normalForm" (oneOf NormalForm.all NormalForm.name))
        (both (required "title" string)
          (both (required "description" string)
            (both (required "table" string)
              (both (required "fields" (list string)) (required "recommendation" string)))))))

def RobustnessMetric.shape : Shape RobustnessMetric :=
  map (fun (category, score, status, description, suggestions) =>
      ⟨category, score, status, description, suggestions⟩)
    (both (required "category" string)
      (both (required "score" count32)
        (both (required "status" (oneOf MetricStatus.all MetricStatus.name))
          (both (required "description" string) (required "suggestions" (list string))))))

def Summary.shape : Shape Summary :=
  map (fun (tables, fields, relationships, security, normalization, robustness, critical, warnings,
      suggestions) =>
      ⟨tables, fields, relationships, security, normalization, robustness, critical, warnings,
        suggestions⟩)
    (both (required "totalTables" count64)
      (both (required "totalFields" count64)
        (both (required "totalRelationships" count64)
          (both (required "securityScore" count32)
            (both (required "normalizationScore" count32)
              (both (required "robustnessScore" float)
                (both (required "criticalIssues" count64)
                  (both (required "warnings" count64) (required "suggestions" count64)))))))))

def AuditResult.shape : Shape AuditResult :=
  map (fun (overall, security, normalization, metrics, summary) =>
      ⟨overall, security, normalization, metrics, summary⟩)
    (both (required "overallScore" count32)
      (both (required "securityIssues" (list (SecurityIssue.shape.decode "SecurityIssue")))
        (both
          (required "normalizationIssues"
            (list (NormalizationIssue.shape.decode "NormalizationIssue")))
          (both
            (required "robustnessMetrics" (list (RobustnessMetric.shape.decode "RobustnessMetric")))
            (required "summary" (Summary.shape.decode "Summary"))))))

/-- The result that a value describes. -/
def AuditResult.ofJson : Decoder AuditResult := AuditResult.shape.decode "AnalysisResult"

end SchemaAudit
