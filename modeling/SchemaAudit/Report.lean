import SchemaAudit.Audit.Finding
import SchemaAudit.Decimal.Binary
import SchemaAudit.Text.Search
import SchemaAudit.Text.Width

/-!
# Reports

An audit result as lines of text: the scores, the findings in columns, and the metrics with their
suggestions. The columns are as wide as their widest cell on the screen.

How wide a text is on the screen is not for a report to say: the width of texts is a parameter of all
that is set in columns. The program takes `Text.width` for it (`AuditResult.report`, which is
`build_report`).
-/

namespace SchemaAudit

namespace Severity

def label : Severity → String
  | critical => "CRITICAL"
  | warning => "WARNING"
  | info => "INFO"

end Severity

namespace NormalizationKind

def label : NormalizationKind → String
  | violation => "VIOLATION"
  | warning => "WARNING"
  | suggestion => "SUGGESTION"

end NormalizationKind

namespace MetricStatus

def label : MetricStatus → String
  | excellent => "Excellent"
  | good => "Good"
  | fair => "Fair"
  | poor => "Poor"

end MetricStatus

namespace Report

/-- A finding as it is listed. -/
structure Row where
  label : List Char
  location : List Char
  title : List Char
  deriving DecidableEq, Repr

def gap : List Char := [' ', ' ']

/-- Lines under a heading, with an empty line before it. -/
def headed (heading : String) (lines : List (List Char)) : List (List Char) :=
  [[], heading.toList, List.replicate heading.length '-'] ++ lines

/-- The text with spaces before it up to a number of characters. -/
def padStart (size : Nat) (s : List Char) : List Char :=
  List.replicate (size - s.length) ' ' ++ s

/-! ## Columns -/

section
variable (width : List Char → Nat)

/-- The text with spaces behind it up to a number of columns. -/
def padEnd (columns : Nat) (s : List Char) : List Char :=
  s ++ List.replicate (columns - width s) ' '

/-- The width of the widest of some texts. -/
def widest (texts : List (List Char)) : Nat := texts.foldl (fun n s => max n (width s)) 0

/-- A row in columns of the given widths; the last column is as long as its text. -/
def Row.line (labelWidth locationWidth : Nat) (r : Row) : List Char :=
  padEnd width labelWidth r.label ++ gap ++ padEnd width locationWidth r.location ++ gap ++ r.title

/-- Rows in columns as wide as their widest cells. -/
def rowLines (rows : List Row) : List (List Char) :=
  rows.map (Row.line width (widest width (rows.map Row.label)) (widest width (rows.map Row.location)))

/-- Rows under a heading; nothing where there are none. -/
def rowSection (heading : String) (rows : List Row) : List (List Char) :=
  if rows.isEmpty then [] else headed heading (rowLines width rows)

/-- The lines of a metric: its score and status, and a line for each suggestion. -/
def metricLines (categoryWidth : Nat) (m : RobustnessMetric) : List (List Char) :=
  (padEnd width categoryWidth m.category.toList ++ gap ++ padStart 3 (Text.ofNat m.score)
      ++ gap ++ m.status.label.toList)
    :: m.suggestions.map fun s =>
      padEnd width categoryWidth [] ++ gap ++ "- ".toList ++ s.toList

/-- The lines of all metrics. -/
def metricsLines (metrics : List RobustnessMetric) : List (List Char) :=
  metrics.flatMap (metricLines width (widest width (metrics.map fun m => m.category.toList)))

end

/-! ## Contents -/

/-- Where a security issue was found. -/
def location (table field : Option String) : String :=
  match table, field with
  | some t, some f => t ++ "." ++ f
  | some t, none => t
  | none, _ => "-"

def securityRow (i : SecurityIssue) : Row :=
  ⟨i.severity.label.toList, (location i.table i.field).toList, i.title.toList⟩

def normalizationRow (i : NormalizationIssue) : Row :=
  ⟨i.kind.label.toList, (i.table ++ " (" ++ String.intercalate ", " i.fields ++ ")").toList,
    i.title.toList⟩

def summaryLines (r : AuditResult) : List (List Char) :=
  let s := r.summary
  ["Schema Analysis Report".toList,
   "======================".toList,
   [],
   "Overall score:  ".toList ++ Text.ofNat r.overallScore ++ "/100".toList,
   "Security ".toList ++ Text.ofNat s.securityScore ++ " | Normalization ".toList
     ++ Text.ofNat s.normalizationScore ++ " | Robustness ".toList
     ++ Decimal.onePlace s.robustnessScore,
   Text.ofNat s.totalTables ++ " tables, ".toList ++ Text.ofNat s.totalFields ++ " fields, ".toList
     ++ Text.ofNat s.totalRelationships ++ " relationships".toList,
   Text.ofNat s.criticalIssues ++ " critical, ".toList ++ Text.ofNat s.warnings
     ++ " warnings, ".toList ++ Text.ofNat s.suggestions ++ " suggestions".toList]

/-- All lines of a report. -/
def lines (width : List Char → Nat) (r : AuditResult) : List (List Char) :=
  summaryLines r
    ++ rowSection width "Security" (r.securityIssues.map securityRow)
    ++ rowSection width "Normalization" (r.normalizationIssues.map normalizationRow)
    ++ headed "Robustness" (metricsLines width r.robustnessMetrics)

end Report

/-- The report on an audit result, set with a measure of width; each line ends with a line feed. -/
def AuditResult.reportIn (width : List Char → Nat) (r : AuditResult) : String :=
  String.ofList ((Report.lines width r).flatMap fun line => line ++ ['\n'])

/-- The report on an audit result as it is shown. -/
def AuditResult.report (r : AuditResult) : String := r.reportIn Text.width

end SchemaAudit
