import SchemaAudit.Audit.Normalization
import SchemaAudit.Audit.Robustness
import SchemaAudit.Audit.Score
import SchemaAudit.Audit.Security

/-!
# Audits

An audit of a graph gathers the findings of all checks, their scores and their numbers.
-/

namespace SchemaAudit

def countSeverity (s : Severity) (issues : List SecurityIssue) : Nat :=
  issues.countP fun i => i.severity == s

def countKind (k : NormalizationKind) (issues : List NormalizationIssue) : Nat :=
  issues.countP fun i => i.kind == k

namespace AuditResult

/-- The result that findings on a graph make up. -/
def ofFindings (g : Graph) (securityIssues : List SecurityIssue)
    (normalizationIssues : List NormalizationIssue) (metrics : List RobustnessMetric) :
    AuditResult :=
  let security := Score.security securityIssues
  let normalization := Score.normalization normalizationIssues
  { overallScore := Score.overall security normalization metrics
    securityIssues
    normalizationIssues
    robustnessMetrics := metrics
    summary :=
      { totalTables := g.tables.length
        totalFields := (g.tables.flatMap Table.fields).length
        totalRelationships := g.relationships.length
        securityScore := security
        normalizationScore := normalization
        robustnessScore := Score.robustness metrics
        criticalIssues :=
          countSeverity .critical securityIssues + countKind .violation normalizationIssues
        warnings := countSeverity .warning securityIssues + countKind .warning normalizationIssues
        suggestions :=
          countSeverity .info securityIssues + countKind .suggestion normalizationIssues } }

end AuditResult

/-- The audit of a graph: `analyze_schema`. -/
def audit (g : Graph) : AuditResult :=
  .ofFindings g (Security.issues g.tables g.relationships) (Normalization.issues g.tables)
    (Robustness.metrics g.tables g.relationships)

end SchemaAudit
