import SchemaAudit.Audit.Finding

/-!
# Scores

An issue costs points by its kind, and what is left of a hundred points is the score. The points are
added up in 32 bits, so that their sum wraps. The robustness score is the mean of the metrics, and
the overall score the mean of all three, rounded to the nearest whole number with halves rounded up.
-/

namespace SchemaAudit.Score

/-- The points that a security issue costs. -/
def securityWeight : Severity → Impact → UInt32
  | .critical, .high => 15
  | .critical, .medium => 10
  | .critical, .low => 5
  | .warning, .high => 10
  | .warning, .medium => 7
  | .warning, .low => 3
  | .info, .high => 5
  | .info, .medium => 3
  | .info, .low => 1

/-- The points that a normalization issue costs. -/
def normalizationWeight : NormalizationKind → UInt32
  | .violation => 15
  | .warning => 10
  | .suggestion => 5

/-- The points that issues cost together, in 32 bits. -/
def penalty (weights : List UInt32) : UInt32 := weights.foldl (· + ·) 0

/-- What a penalty leaves of a hundred points; none where it is more than that. -/
def left (penalty : UInt32) : Nat := 100 - penalty.toNat

/-- What security issues leave: `security_score`. -/
def security (issues : List SecurityIssue) : Nat :=
  left (penalty (issues.map fun i => securityWeight i.severity i.impact))

/-- What normalization issues leave: `normalization_score`. -/
def normalization (issues : List NormalizationIssue) : Nat :=
  left (penalty (issues.map fun i => normalizationWeight i.kind))

/-- The sum of the scores of metrics. -/
def total (metrics : List RobustnessMetric) : Nat := metrics.foldl (fun n m => n + m.score) 0

/-- The mean of the scores of metrics, and fifty where there is none. -/
def robustness (metrics : List RobustnessMetric) : Float :=
  if metrics.isEmpty then 50.0
  else Float.ofNat (total metrics) / Float.ofNat metrics.length

/-- The quotient of two numbers to the nearest whole number, a half rounded up. -/
def roundDiv (n d : Nat) : Nat := (2 * n + d) / (2 * d)

/-- The mean of the two scores and the mean of the metrics' scores. -/
def overall (security normalization : Nat) (metrics : List RobustnessMetric) : Nat :=
  match metrics.length with
  | 0 => roundDiv (security + normalization + 50) 3
  | count + 1 =>
    roundDiv ((security + normalization) * (count + 1) + total metrics) (3 * (count + 1))

end SchemaAudit.Score
