import SchemaAudit.Proofs.Audit.Score

/-!
# Audits of graphs that are arranged in another way

The tables and the relationships of a graph are lists, and an audit goes through them in order. Here
is what of its result does not depend on that order.

* `Security.filter_issues`: all security issues but those of cycles arise at single tables, single
  relationships and single fields.
* `Normalization.issues_perm`: so do normalization issues.
* `Robustness.map_score_metrics`: metrics ask whether something occurs, how often it does, or how
  many different kinds of it there are. Of two metrics the suggestions name tables, in their order.
* `audit_agreesButForCycles`: what the results have in common.

Cycles are left out. Which of them are found depends on where the walk begins.
-/

namespace SchemaAudit

/-! ### Robustness metrics -/

namespace Robustness

/-- Two names may be put in order one after the other or the other way round. -/
theorem insertSorted_comm (a b : String) (names : List String) :
    insertSorted a (insertSorted b names) = insertSorted b (insertSorted a names) := by
  induction names with
  | nil => grind [insertSorted]
  | cons first rest ih =>
    -- By how the two names stand to the first one and to each other.
    grind [insertSorted]

/-- The styles of fields are mixed if two of them differ. -/
theorem mixedFieldNames_iff (tables : List Table) :
    mixedFieldNames tables = true
      ↔ ∃ style ∈ fieldStyles tables, ∃ other ∈ fieldStyles tables, style ≠ other := by
  unfold mixedFieldNames
  split
  · rename_i hnone
    simp [hnone]
  · rename_i first rest hstyles
    rw [hstyles]
    constructor
    · intro h
      obtain ⟨other, hmem, hother⟩ := List.any_eq_true.1 h
      exact ⟨other, List.mem_cons_of_mem _ hmem, first, List.mem_cons_self, by simpa using hother⟩
    · rintro ⟨style, hstyle, other, hother, hne⟩
      apply List.any_eq_true.2
      by_cases h : style = first
      · refine ⟨other, ?_, by simpa [h] using hne.symm⟩
        exact (List.mem_cons.1 hother).resolve_left fun heq => hne (h.trans heq.symm)
      · exact ⟨style, (List.mem_cons.1 hstyle).resolve_left h, by simpa using h⟩

section
variable {tables arranged : List Table} (h : tables.Perm arranged)
include h

theorem fieldsOf_perm : (fieldsOf tables).Perm (fieldsOf arranged) := h.flatMap_right _

theorem countFields_perm (p : Field → Bool) : countFields p tables = countFields p arranged :=
  (fieldsOf_perm h).countP_eq p

theorem typesOf_perm (p : Field → Bool) : typesOf p tables = typesOf p arranged := by
  apply ((fieldsOf_perm h).filter p).foldl_eq'
  intro f _ g _ types
  exact insertSorted_comm _ _ types

theorem uniformTableNames_perm : uniformTableNames tables = uniformTableNames arranged := by
  have hstyles := h.map fun t => NameStyle.of t.name
  simp only [uniformTableNames, hstyles.all_eq]

theorem mixedFieldNames_perm : mixedFieldNames tables = mixedFieldNames arranged := by
  have hstyles : (fieldStyles tables).Perm (fieldStyles arranged) :=
    ((fieldsOf_perm h).filter _).map _
  rw [Bool.eq_iff_iff, mixedFieldNames_iff, mixedFieldNames_iff]
  simp only [hstyles.mem_iff]

theorem score_indexCoverage : (indexCoverage tables).score = (indexCoverage arranged).score := by
  simp only [indexCoverage, RobustnessMetric.make, (fieldsOf_perm h).any_eq]

theorem foreignKeyIntegrity_perm {relationships others : List Relationship}
    (hr : relationships.Perm others) :
    foreignKeyIntegrity tables relationships = foreignKeyIntegrity arranged others := by
  simp only [foreignKeyIntegrity, countFields_perm h, h.length_eq, hr.length_eq]

theorem score_namingConventions :
    (namingConventions tables).score = (namingConventions arranged).score := by
  have hodd := (h.filterMap oddKey?).isEmpty_eq
  simp only [namingConventions, RobustnessMetric.make, uniformTableNames_perm h,
    mixedFieldNames_perm h, hodd]

theorem dataTypeConsistency_perm : dataTypeConsistency tables = dataTypeConsistency arranged := by
  simp only [dataTypeConsistency, typesOf_perm h]

theorem scalabilityIndicators_perm :
    scalabilityIndicators tables = scalabilityIndicators arranged := by
  simp only [scalabilityIndicators, h.any_eq, h.all_eq, h.isEmpty_eq]

theorem performanceAntiPatterns_perm :
    performanceAntiPatterns tables = performanceAntiPatterns arranged := by
  simp only [performanceAntiPatterns, deductions, wideTables, keylessTables, referringTables,
    unindexedReferences, textHeavyTables, tableFault, countFields_perm h, h.countP_eq]

/-- **The scores of all metrics are the same.** -/
theorem map_score_metrics {relationships others : List Relationship}
    (hr : relationships.Perm others) :
    (metrics tables relationships).map (fun m => (m.category, m.score))
      = (metrics arranged others).map fun m => (m.category, m.score) := by
  simp only [metrics, List.map_cons, List.map_nil, score_indexCoverage h,
    foreignKeyIntegrity_perm h hr, score_namingConventions h, dataTypeConsistency_perm h,
    scalabilityIndicators_perm h, performanceAntiPatterns_perm h]
  rfl

end

end Robustness

/-! ### Issues -/

/-- Normalization issues arise at single tables. -/
theorem Normalization.issues_perm {tables arranged : List Table} (h : tables.Perm arranged) :
    (issues tables).Perm (issues arranged) := h.flatMap_right tableIssues

namespace Security

/-- Whether an issue is one of a cycle of references. -/
def isOfCycle (i : SecurityIssue) : Bool := i.title == "Circular Dependency Detected"

theorem danglingIssues_perm {tables arranged : List Table} (h : tables.Perm arranged) :
    danglingIssues tables = danglingIssues arranged := by
  funext r
  simp only [danglingIssues, danglingEnd, h.any_eq]

/-- Without those of cycles, issues arise at single tables, relationships and fields. -/
theorem filter_issues (tables : List Table) (relationships : List Relationship) :
    (issues tables relationships).filter (fun i => !isOfCycle i)
      = ((tables.flatMap fun t => t.fields.flatMap (fieldIssues t) ++ tableIssues t)
          ++ relationships.flatMap (danglingIssues tables)
          ++ tables.flatMap fun t =>
            (t.fields.filter lacksIndex).map (unindexedIssue t)).filter
        fun i => !isOfCycle i := by
  have hcycles : ((findCycles (tables.map Table.name) (edges relationships)).map cycleIssue).filter
      (fun i => !isOfCycle i) = [] := by
    rw [List.filter_eq_nil_iff]
    intro i hi
    obtain ⟨cycle, -, rfl⟩ := List.mem_map.1 hi
    simp [isOfCycle, cycleIssue]
  simp only [issues, List.filter_append, hcycles, List.append_nil]

/-- **The security issues beside those of cycles are the same**, in another order. -/
theorem issues_perm {tables arranged : List Table} {relationships others : List Relationship}
    (h : tables.Perm arranged) (hr : relationships.Perm others) :
    ((issues tables relationships).filter fun i => !isOfCycle i).Perm
      ((issues arranged others).filter fun i => !isOfCycle i) := by
  rw [filter_issues, filter_issues, danglingIssues_perm h]
  apply List.Perm.filter
  exact ((h.flatMap_right _).append (hr.flatMap_right _)).append (h.flatMap_right _)

end Security

/-! ### Results of audits -/

/-- What two results have in common that differ in nothing but the order of findings, in the
cycles, and in what counts these. -/
structure AuditResult.AgreesButForCycles (a b : AuditResult) : Prop where
  normalizationScore : a.summary.normalizationScore = b.summary.normalizationScore
  normalizationKinds : ∀ k, countKind k a.normalizationIssues = countKind k b.normalizationIssues
  metricScores : a.robustnessMetrics.map (fun m => (m.category, m.score))
    = b.robustnessMetrics.map fun m => (m.category, m.score)
  totalTables : a.summary.totalTables = b.summary.totalTables
  totalFields : a.summary.totalFields = b.summary.totalFields
  totalRelationships : a.summary.totalRelationships = b.summary.totalRelationships
  securityIssues : (a.securityIssues.filter fun i => !Security.isOfCycle i).Perm
    (b.securityIssues.filter fun i => !Security.isOfCycle i)

/-- **An audit does not depend on the order of tables and relationships, but for the cycles.** -/
theorem audit_agreesButForCycles {g arranged : Graph} (ht : g.tables.Perm arranged.tables)
    (hr : g.relationships.Perm arranged.relationships) :
    (audit g).AgreesButForCycles (audit arranged) := by
  have hnormalization := Normalization.issues_perm ht
  exact
    { normalizationScore := by
        show Score.left _ = Score.left _
        rw [Score.penalty_perm (hnormalization.map _)]
      normalizationKinds := fun k => hnormalization.countP_eq _
      metricScores := Robustness.map_score_metrics ht hr
      totalTables := ht.length_eq
      totalFields := (ht.flatMap_right Table.fields).length_eq
      totalRelationships := hr.length_eq
      securityIssues := Security.issues_perm ht hr }

/-- Visits with a flag as text and a reference to a table that is missing, and pets with a key. -/
def visitsGraph : Graph where
  tables :=
    [⟨"visits", "visits", [⟨"pet_id", "integer", ⟨false, false, true, false, true⟩⟩,
      ⟨"is_paid", "varchar(3)", .empty⟩]⟩,
     ⟨"pets", "pets", [⟨"id", "integer", ⟨true, false, false, false, true⟩⟩]⟩]
  relationships :=
    [⟨"ref:visits.pet_id->pets.id", "visits", "pets", "pet_id", "id", ⟨.oneToMany, true, false⟩⟩,
     ⟨"ref:visits.vet->vets.id", "visits", "vets", "vet", "id", ⟨.oneToMany, false, false⟩⟩]

theorem audit_visitsGraph :
    visitsGraph.tables.Perm visitsGraph.tables.reverse ∧
      visitsGraph.relationships.Perm visitsGraph.relationships.reverse ∧
      (audit visitsGraph).AgreesButForCycles
        (audit ⟨visitsGraph.tables.reverse, visitsGraph.relationships.reverse⟩) := by
  have ht := visitsGraph.tables.reverse_perm.symm
  have hr := visitsGraph.relationships.reverse_perm.symm
  exact ⟨ht, hr, audit_agreesButForCycles ht hr⟩

end SchemaAudit
