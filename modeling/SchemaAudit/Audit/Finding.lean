/-!
# Findings

What an audit reports: security issues, normalization issues, robustness metrics and a summary,
with the names under which their kinds are written.
-/

namespace SchemaAudit

inductive Severity where
  | critical
  | warning
  | info
  deriving DecidableEq, Repr

inductive Impact where
  | high
  | medium
  | low
  deriving DecidableEq, Repr

inductive SecurityCategory where
  | dataProtection
  | authentication
  | audit
  | accessControl
  | inputValidation
  | integrity
  | naming
  deriving DecidableEq, Repr

structure SecurityIssue where
  severity : Severity
  category : SecurityCategory
  title : String
  description : String
  table : Option String
  field : Option String
  recommendation : String
  impact : Impact
  deriving DecidableEq, Repr

inductive NormalizationKind where
  | violation
  | warning
  | suggestion
  deriving DecidableEq, Repr

inductive NormalForm where
  | first
  | second
  | third
  | dataTypes
  deriving DecidableEq, Repr

structure NormalizationIssue where
  kind : NormalizationKind
  normalForm : NormalForm
  title : String
  description : String
  table : String
  fields : List String
  recommendation : String
  deriving DecidableEq, Repr

inductive MetricStatus where
  | excellent
  | good
  | fair
  | poor
  deriving DecidableEq, Repr

structure RobustnessMetric where
  category : String
  score : Nat
  status : MetricStatus
  description : String
  suggestions : List String
  deriving DecidableEq, Repr

structure Summary where
  totalTables : Nat
  totalFields : Nat
  totalRelationships : Nat
  securityScore : Nat
  normalizationScore : Nat
  robustnessScore : Float
  criticalIssues : Nat
  warnings : Nat
  suggestions : Nat
  deriving Repr

structure AuditResult where
  overallScore : Nat
  securityIssues : List SecurityIssue
  normalizationIssues : List NormalizationIssue
  robustnessMetrics : List RobustnessMetric
  summary : Summary
  deriving Repr

/-! ## Names of kinds -/

namespace Severity

def all : List Severity := [critical, warning, info]

def name : Severity → String
  | critical => "critical"
  | warning => "warning"
  | info => "info"

end Severity

namespace Impact

def all : List Impact := [high, medium, low]

def name : Impact → String
  | high => "high"
  | medium => "medium"
  | low => "low"

end Impact

namespace SecurityCategory

def all : List SecurityCategory :=
  [dataProtection, authentication, audit, accessControl, inputValidation, integrity, naming]

def name : SecurityCategory → String
  | dataProtection => "data-protection"
  | authentication => "authentication"
  | audit => "audit"
  | accessControl => "access-control"
  | inputValidation => "input-validation"
  | integrity => "integrity"
  | naming => "naming"

end SecurityCategory

namespace NormalizationKind

def all : List NormalizationKind := [violation, warning, suggestion]

def name : NormalizationKind → String
  | violation => "violation"
  | warning => "warning"
  | suggestion => "suggestion"

end NormalizationKind

namespace NormalForm

def all : List NormalForm := [first, second, third, dataTypes]

def name : NormalForm → String
  | first => "1NF"
  | second => "2NF"
  | third => "3NF"
  | dataTypes => "data-types"

end NormalForm

namespace MetricStatus

def all : List MetricStatus := [excellent, good, fair, poor]

def name : MetricStatus → String
  | excellent => "excellent"
  | good => "good"
  | fair => "fair"
  | poor => "poor"

/-- The status of a score: 80, 60 and 40 are the least scores of the better three. -/
def ofScore (score : Nat) : MetricStatus :=
  if 80 ≤ score then excellent
  else if 60 ≤ score then good
  else if 40 ≤ score then fair
  else poor

end MetricStatus

/-- A metric with a score of at most 100, and the status of that score. -/
def RobustnessMetric.make (category : String) (score : Nat) (description : String)
    (suggestions : List String) : RobustnessMetric :=
  { category
    score := min score 100
    status := MetricStatus.ofScore (min score 100)
    description
    suggestions }

end SchemaAudit
