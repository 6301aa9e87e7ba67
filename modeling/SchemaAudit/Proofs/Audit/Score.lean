import Mathlib.Algebra.Group.Nat.Defs
import Mathlib.Data.List.Perm.Basic
import SchemaAudit.Audit

/-!
# Points of normalization issues

A score is what the points of all issues leave of a hundred. The points are added up in 32 bits, so
that the score is that of their sum only as long as this has no more bits.

* `penalty_perm`: the order of issues does not matter.
* `points`: what issues cost together, however much it is.
* `normalization_eq`: the score is what is left by these points, less the multiples of 2 ^ 32.
* `normalization_le_iff`: which of two lists of issues has the higher score.
-/

namespace SchemaAudit.Score

theorem penalty_perm {weights others : List UInt32} (h : weights.Perm others) :
    penalty weights = penalty others := by
  have : RightCommutative (α := UInt32) (β := UInt32) (· + ·) := ⟨fun a b c => by
    rw [UInt32.add_assoc, UInt32.add_comm b, ← UInt32.add_assoc]⟩
  exact h.foldl_eq 0

/-- The points that normalization issues cost together. -/
def points (issues : List NormalizationIssue) : Nat :=
  15 * countKind .violation issues + 10 * countKind .warning issues
    + 5 * countKind .suggestion issues

theorem points_cons (i : NormalizationIssue) (issues : List NormalizationIssue) :
    points (i :: issues) = (normalizationWeight i.kind).toNat + points issues := by
  have hcount : ∀ k, countKind k (i :: issues) = countKind k issues + if i.kind == k then 1 else 0 :=
    fun k => List.countP_cons
  unfold points
  rw [hcount, hcount, hcount]
  cases i.kind <;> simp [normalizationWeight] <;> omega

/-- Issue by issue, the points are added to those before. -/
theorem toNat_foldl (issues : List NormalizationIssue) (before : UInt32) :
    ((issues.map fun i => normalizationWeight i.kind).foldl (· + ·) before).toNat
      = (before.toNat + points issues) % 2 ^ 32 := by
  induction issues generalizing before with
  | nil => exact (Nat.mod_eq_of_lt before.toNat_lt).symm
  | cons i issues ih =>
    rw [List.map_cons, List.foldl_cons, ih, UInt32.toNat_add, Nat.mod_add_mod, points_cons,
      Nat.add_assoc]

/-- **The score is what the points leave of a hundred**, less the multiples of 2 ^ 32. -/
theorem normalization_eq (issues : List NormalizationIssue) :
    normalization issues = 100 - points issues % 2 ^ 32 := by
  have hpenalty := toNat_foldl issues 0
  rw [UInt32.toNat_zero, Nat.zero_add] at hpenalty
  rw [normalization, left, penalty, hpenalty]

/-- **A score is at most another one exactly if its points reach those of the other one**, or a
hundred, when both are brought into 32 bits. -/
theorem normalization_le_iff (issues others : List NormalizationIssue) :
    normalization issues ≤ normalization others
      ↔ min 100 (points others % 2 ^ 32) ≤ points issues % 2 ^ 32 := by
  rw [normalization_eq, normalization_eq]
  omega

end SchemaAudit.Score
