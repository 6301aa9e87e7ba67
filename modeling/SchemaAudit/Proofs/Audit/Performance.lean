import Mathlib.Algebra.Group.Nat.Defs
import Mathlib.Algebra.Ring.Int.Defs
import SchemaAudit.Audit.Robustness

/-!
# Points of the performance metric

Each of five faults takes points off, at most up to a limit. The points are multiplied and taken off
in 32 bits, so that a product that needs more bits wraps before it meets the limit. It then takes less
than it should, or even gives points.

* `withheld`: what wrapping keeps a deduction from taking; nothing where the product fits
  (`withheld_of_lt`), and exactly if the product is large enough after wrapping
  (`withheld_eq_zero_iff`).
* `toInt_scoreLeft`: what is left of a hundred points, deduction by deduction.
* `score_of_fits`: as long as all products fit, the score is what the limits say, and at least 30.
* `score_performanceAntiPatterns_eq_iff`: the score is what the limits say exactly if wrapping
  withholds nothing from all deductions together, up to a multiple of 2 ^ 32.
-/

namespace SchemaAudit.Robustness

/-! ### One deduction -/

theorem bmod_cases (a : Int) : a.bmod (2 ^ 32) = a % 2 ^ 32 ∧ a % 2 ^ 32 < 2 ^ 31 ∨
    a.bmod (2 ^ 32) = a % 2 ^ 32 - 2 ^ 32 ∧ 2 ^ 31 ≤ a % 2 ^ 32 := by
  rw [Int.bmod_def]
  norm_cast
  split <;> omega

/-- What wrapping to 32 bits keeps a deduction of `n` points from taking, under a limit. -/
def withheld (n limit : Nat) : Int := (min n limit : Nat) - min ((n : Int).bmod (2 ^ 32)) limit

section withheld
variable {n limit : Nat}

theorem withheld_of_lt (h : n < 2 ^ 31) : withheld n limit = 0 := by
  have hn := bmod_cases n
  unfold withheld
  omega

/-- **A deduction takes what it should exactly if its product, brought into 32 bits, is no negative
number and still reaches the limit where the product does.** -/
theorem withheld_eq_zero_iff (h : limit < 2 ^ 31) :
    withheld n limit = 0 ↔ min n limit ≤ n % 2 ^ 32 ∧ n % 2 ^ 32 < 2 ^ 31 := by
  have hn := bmod_cases n
  unfold withheld
  omega

end withheld

theorem toInt_min (a b : Int32) : (min a b).toInt = min a.toInt b.toInt := by
  by_cases h : a ≤ b
  · have hmin : min a b = a := if_pos h
    rw [hmin, Int.min_eq_left (Int32.le_iff_toInt_le.1 h)]
  · have hmin : min a b = b := if_neg h
    have hlt : b.toInt < a.toInt := Int.not_le.1 fun hle => h (Int32.le_iff_toInt_le.2 hle)
    rw [hmin, Int.min_eq_right (Int.le_of_lt hlt)]

theorem toInt_total {d : Deduction} (h : d.limit < 2 ^ 31) :
    d.total.toInt
      = (min (d.points * d.count) d.limit : Nat) - withheld (d.points * d.count) d.limit := by
  have hproduct : (Int32.ofNat d.count * Int32.ofNat d.points).toInt
      = ((d.points * d.count : Nat) : Int).bmod (2 ^ 32) := by
    rw [← Int32.ofNat_mul, Nat.mul_comm]
    exact Int32.toInt_ofNat'
  have hlimit : (Int32.ofNat d.limit).toInt = d.limit := Int32.toInt_ofNat_of_lt h
  have htotal : d.total.toInt
      = min (((d.points * d.count : Nat) : Int).bmod (2 ^ 32)) d.limit := by
    rw [Deduction.total, toInt_min, hproduct, hlimit]
  unfold withheld
  omega

/-! ### All deductions -/

/-- The points that some deductions take off one after the other. -/
def pointsTaken : List Deduction → Int
  | [] => 0
  | d :: due => d.total.toInt + pointsTaken due

/-- What is left is counted in 32 bits, whatever the steps in between were. -/
theorem toInt_foldl (due : List Deduction) (score : Int32) :
    (due.foldl (fun score d => score - d.total) score).toInt
      = (score.toInt - pointsTaken due).bmod (2 ^ 32) := by
  induction due generalizing score with
  | nil =>
    show score.toInt = (score.toInt - 0).bmod (2 ^ 32)
    rw [Int.sub_zero]
    exact (Int32.toInt_bmod score).symm
  | cons d due ih =>
    rw [List.foldl_cons, ih, Int32.toInt_sub, Int.bmod_sub_bmod, pointsTaken, Int.sub_sub]

theorem toInt_scoreLeft (due : List Deduction) :
    (scoreLeft due).toInt = (100 - pointsTaken due).bmod (2 ^ 32) := toInt_foldl due 100

/-- A deduction without a fault takes nothing off, so that it may be made or left out. -/
theorem pointsTaken_filter {all : List Deduction} (h : ∀ d ∈ all, d.limit < 2 ^ 31) :
    pointsTaken (all.filter fun d => d.count > 0) = pointsTaken all := by
  induction all with
  | nil => rfl
  | cons d all ih =>
    have hall := ih fun e he => h e (List.mem_cons_of_mem _ he)
    by_cases hd : d.count > 0
    · rw [List.filter_cons_of_pos (by simpa using hd), pointsTaken, pointsTaken, hall]
    · have hzero : d.points * d.count = 0 := by
        rw [Nat.eq_zero_of_not_pos hd, Nat.mul_zero]
      have hnone : withheld 0 d.limit = 0 := withheld_of_lt (by omega)
      rw [List.filter_cons_of_neg (by simpa using hd), pointsTaken, hall,
        toInt_total (h d List.mem_cons_self), hzero, hnone]
      omega

theorem clamp_eq (score : Int32) : clamp score = (min score.toInt 100).toNat := by
  rw [clamp, ← Int32.toNat_toInt, toInt_min]
  rfl

/-- The score that the limits ask for. -/
def documentedScore (w k f u x : Nat) : Nat :=
  100 - min (5 * w) 20 - min (3 * k) 15 - min (5 * f) 10 - min (2 * u) 15 - min (3 * x) 10

theorem documentedScore_eq (w k f u x : Nat) :
    ((documentedScore w k f u x : Nat) : Int)
      = 100 - (min (5 * w) 20 : Nat) - (min (3 * k) 15 : Nat) - (min (5 * f) 10 : Nat)
        - (min (2 * u) 15 : Nat) - (min (3 * x) 10 : Nat) := by
  unfold documentedScore
  omega

section
variable (tables : List Table)

theorem limit_lt : ∀ d ∈ deductions tables, d.limit < 2 ^ 31 := by
  simp [deductions, wideTables, keylessTables, referringTables, unindexedReferences,
    textHeavyTables, tableFault]

/-- What wrapping withholds from all deductions together. -/
def lostPoints : Int :=
  withheld (5 * tables.countP isWide) 20 + withheld (3 * tables.countP fun t => !t.hasKey) 15
    + withheld (5 * tables.countP refersOften) 10
    + withheld (2 * countFields Field.isUnindexedReference tables) 15
    + withheld (3 * tables.countP isTextHeavy) 10

/-- The score that the limits ask for with the numbers of faults of some tables. -/
def scoreByLimits : Nat :=
  documentedScore (tables.countP isWide) (tables.countP fun t => !t.hasKey)
    (tables.countP refersOften) (countFields Field.isUnindexedReference tables)
    (tables.countP isTextHeavy)

theorem pointsTaken_deductions :
    pointsTaken (deductions tables) = 100 - scoreByLimits tables - lostPoints tables := by
  have hlimit := limit_lt tables
  simp only [deductions, List.forall_mem_cons] at hlimit
  obtain ⟨hw, hk, hf, hu, hx, -⟩ := hlimit
  have hdocumented := documentedScore_eq (tables.countP isWide) (tables.countP fun t => !t.hasKey)
    (tables.countP refersOften) (countFields Field.isUnindexedReference tables)
    (tables.countP isTextHeavy)
  have htaken : pointsTaken (deductions tables)
      = (wideTables tables).total.toInt + ((keylessTables tables).total.toInt
        + ((referringTables tables).total.toInt + ((unindexedReferences tables).total.toInt
        + ((textHeavyTables tables).total.toInt + 0)))) := rfl
  rw [toInt_total hw, toInt_total hk, toInt_total hf, toInt_total hu, toInt_total hx] at htaken
  have hsum : ∀ a b c d e a' b' c' d' e' : Int,
      a - a' + (b - b' + (c - c' + (d - d' + (e - e' + 0))))
        = 100 - (100 - a - b - c - d - e) - (a' + b' + c' + d' + e') := by
    intros
    omega
  rw [htaken, scoreByLimits, hdocumented, lostPoints]
  exact hsum _ _ _ _ _ _ _ _ _ _

/-- **The score of tables**: what the limits ask for and what wrapping withholds make up a number of
32 bits, which is then cut at none and at a hundred. -/
theorem score_eq : (performanceAntiPatterns tables).score
    = (min ((scoreByLimits tables + lostPoints tables).bmod (2 ^ 32)) 100).toNat := by
  have hsum : 100 - pointsTaken (deductions tables) = scoreByLimits tables + lostPoints tables := by
    rw [pointsTaken_deductions]
    omega
  have hscore : (performanceAntiPatterns tables).score
      = min (clamp (scoreLeft ((deductions tables).filter fun d => d.count > 0))) 100 := rfl
  rw [hscore, clamp_eq, toInt_scoreLeft, pointsTaken_filter (limit_lt tables), hsum]
  omega

end

/-! ### Scores that are what the limits ask for -/

/-- A number of points between none and a hundred is left by a loss exactly if the loss cannot be
seen in 32 bits. A full score has no loss to begin with. -/
theorem cut_eq_iff {n : Nat} {lost : Int} (hn : n ≤ 100) (hpositive : 0 < n)
    (hfull : n = 100 → lost = 0) :
    (min ((n + lost).bmod (2 ^ 32)) 100).toNat = n ↔ 2 ^ 32 ∣ lost := by
  have hsum := bmod_cases (n + lost)
  omega

theorem scoreByLimits_le (tables : List Table) : scoreByLimits tables ≤ 100 := by
  unfold scoreByLimits documentedScore
  omega

theorem scoreByLimits_ge (tables : List Table) : 30 ≤ scoreByLimits tables := by
  unfold scoreByLimits documentedScore
  omega

theorem lostPoints_of_full {tables : List Table} (h : scoreByLimits tables = 100) :
    lostPoints tables = 0 := by
  unfold scoreByLimits documentedScore at h
  rw [lostPoints, withheld_of_lt (by omega), withheld_of_lt (by omega), withheld_of_lt (by omega),
    withheld_of_lt (by omega), withheld_of_lt (by omega)]
  rfl

/-- What the limits ask for is left by the score exactly if the loss cannot be seen in it. -/
theorem cut_scoreByLimits_iff (tables : List Table) :
    (min ((scoreByLimits tables + lostPoints tables).bmod (2 ^ 32)) 100).toNat
        = scoreByLimits tables ↔ 2 ^ 32 ∣ lostPoints tables := by
  have hlow := scoreByLimits_ge tables
  exact cut_eq_iff (scoreByLimits_le tables) (by omega) lostPoints_of_full

/-- **As long as no product leaves 32 bits the score is what the limits ask for**, and at least 30. -/
theorem score_of_fits {tables : List Table} (hw : 5 * tables.countP isWide < 2 ^ 31)
    (hk : (3 * tables.countP fun t => !t.hasKey) < 2 ^ 31)
    (hf : 5 * tables.countP refersOften < 2 ^ 31)
    (hu : 2 * countFields Field.isUnindexedReference tables < 2 ^ 31)
    (hx : 3 * tables.countP isTextHeavy < 2 ^ 31) :
    (performanceAntiPatterns tables).score = scoreByLimits tables ∧
      30 ≤ (performanceAntiPatterns tables).score := by
  have hlost : lostPoints tables = 0 := by
    rw [lostPoints, withheld_of_lt hw, withheld_of_lt hk, withheld_of_lt hf, withheld_of_lt hu,
      withheld_of_lt hx]
    rfl
  have hscore : (performanceAntiPatterns tables).score = scoreByLimits tables := by
    rw [score_eq]
    exact (cut_scoreByLimits_iff tables).2 (hlost ▸ Int.dvd_zero _)
  exact ⟨hscore, hscore ▸ scoreByLimits_ge tables⟩

/-- **The score is a hundred less five limited deductions exactly if wrapping withholds nothing from
them together**, up to a multiple of 2 ^ 32. -/
theorem score_performanceAntiPatterns_eq_iff (tables : List Table) :
    let w := tables.countP isWide
    let k := tables.countP fun t => !t.hasKey
    let f := tables.countP refersOften
    let u := countFields Field.isUnindexedReference tables
    let x := tables.countP isTextHeavy
    (performanceAntiPatterns tables).score
        = 100 - min (5 * w) 20 - min (3 * k) 15 - min (5 * f) 10 - min (2 * u) 15 - min (3 * x) 10
      ↔ 2 ^ 32 ∣ withheld (5 * w) 20 + withheld (3 * k) 15 + withheld (5 * f) 10
          + withheld (2 * u) 15 + withheld (3 * x) 10 := by
  intro w k f u x
  show _ = scoreByLimits tables ↔ 2 ^ 32 ∣ lostPoints tables
  rw [score_eq]
  exact cut_scoreByLimits_iff tables

/-! ### Tables without a key -/

/-- A table without fields: it has no key, and no other fault. -/
def bareTable : Table := ⟨"_", "_", []⟩

theorem fieldsOf_bareTables (n : Nat) : fieldsOf (List.replicate n bareTable) = [] := by
  rw [fieldsOf, List.flatMap_replicate]
  exact List.flatten_replicate_nil

theorem countP_bareTables (n : Nat) (p : Table → Bool) :
    (List.replicate n bareTable).countP p = if p bareTable then n else 0 := List.countP_replicate

theorem count_bareTables (n : Nat) : (keylessTables (List.replicate n bareTable)).count = n :=
  countP_bareTables n _

theorem total_bareTables (n : Nat) :
    (keylessTables (List.replicate n bareTable)).total = min (Int32.ofNat n * 3) 15 := by
  rw [Deduction.total, count_bareTables]
  rfl

theorem scoreByLimits_bareTables (n : Nat) :
    scoreByLimits (List.replicate n bareTable) = documentedScore 0 n 0 0 0 := by
  rw [scoreByLimits, countFields, fieldsOf_bareTables]
  simp only [countP_bareTables]
  rfl

theorem lostPoints_bareTables (n : Nat) :
    lostPoints (List.replicate n bareTable) = withheld (3 * n) 15 := by
  have hnone : ∀ limit, withheld 0 limit = 0 := fun limit => withheld_of_lt (by omega)
  rw [lostPoints, countFields, fieldsOf_bareTables]
  simp only [countP_bareTables]
  show withheld 0 20 + withheld (3 * n) 15 + withheld 0 10 + withheld 0 15 + withheld 0 10 = _
  simp only [hnone]
  omega

/-- **Enough tables without a key cost all points, and not fifteen**: the deduction wraps to a negative
number, and so does the score when it is taken off. -/
theorem score_bareTables_ne :
    let tables := List.replicate 715827883 bareTable
    (keylessTables tables).count = 715827883 ∧ (keylessTables tables).total = -2147483647 ∧
      (performanceAntiPatterns tables).score = 0 ∧ scoreByLimits tables = 85 := by
  intro tables
  refine ⟨count_bareTables _, ?_, ?_, scoreByLimits_bareTables _⟩
  · rw [total_bareTables]
    decide
  · rw [score_eq, scoreByLimits_bareTables, lostPoints_bareTables]
    decide

end SchemaAudit.Robustness
