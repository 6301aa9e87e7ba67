import SchemaAudit.Audit
import SchemaAudit.Proofs.Audit.VarcharLength

/-!
# Checks that agree with each other

Three families of checks look at the same tables, and some faults are looked for by more than one of
them. They find the same ones.

* `countTitle_issues`: issues of a title arise from the rules or from references without an index, if
  it is not the title of a relationship or of a cycle.
* `countTitle_unindexed`: there are as many issues of references without an index as the performance
  metric deducts for; `filter_suggestions_unindexed`: this is the number that it states.
* `count_keylessTables`: of the tables that the metric counts as keyless, the small ones that join
  others have no issue.
* `exists_large_of_oversized`: what is oversized is large.
* `audit_checksAgree`: all of this for the result of an audit, and that its summary counts all issues.
-/

namespace SchemaAudit

/-- The number of issues with a title. -/
def countTitle (title : String) (issues : List SecurityIssue) : Nat :=
  issues.countP fun i => i.title == title

theorem countTitle_append (title : String) (issues others : List SecurityIssue) :
    countTitle title (issues ++ others) = countTitle title issues + countTitle title others :=
  List.countP_append

theorem countTitle_eq_zero {title : String} {issues : List SecurityIssue}
    (h : ∀ i ∈ issues, i.title ≠ title) : countTitle title issues = 0 := by
  apply List.countP_eq_zero.2
  intro i hi
  simpa using h i hi

/-- Where each member gives one counted value or none, as many are counted as members give one. -/
theorem countP_flatMap_of_single {α β : Type} {p : β → Bool} {q : α → Bool} {f : α → List β}
    (h : ∀ a, (f a).countP p = if q a then 1 else 0) (as : List α) :
    (as.flatMap f).countP p = as.countP q := by
  induction as with
  | nil => rfl
  | cons a as ih => rw [List.flatMap_cons, List.countP_append, h, ih, List.countP_cons, Nat.add_comm]

namespace Security

/-! ### Titles of rules -/

theorem exists_rule_of_mem_fieldIssues {i : SecurityIssue} {t : Table} {f : Field}
    (h : i ∈ fieldIssues t f) : ∃ rule ∈ fieldRules, i.title = rule.issue.title := by
  obtain ⟨rule, hrule, rfl⟩ := List.mem_map.1 h
  have hmem := (List.mem_filter.1 hrule).1
  exact ⟨rule, hmem, fill_title hmem t f⟩

/-- No rule for fields has the title. -/
theorem title_ne_of_mem_fieldIssues {title : String}
    (h : ∀ rule ∈ fieldRules, rule.issue.title ≠ title) {i : SecurityIssue} {t : Table} {f : Field}
    (hi : i ∈ fieldIssues t f) : i.title ≠ title := by
  obtain ⟨rule, hrule, htitle⟩ := exists_rule_of_mem_fieldIssues hi
  rw [htitle]
  exact h rule hrule

/-- An issue of a table has the title of its rule. -/
theorem map_title_tableIssues (t : Table) :
    (tableIssues t).map SecurityIssue.title
      = (tableRules.filter fun rule => rule.applies t).map fun rule => rule.issue.title := by
  have hnone : ∀ rule ∈ tableRules, '\x7b' ∉ rule.issue.title.toList := by decide
  rw [tableIssues, List.map_map]
  apply List.map_congr_left
  intro rule hrule
  exact Template.fill_of_not_mem (hnone rule (List.mem_filter.1 hrule).1) t none

theorem countTitle_tableIssues (title : String) (t : Table) :
    countTitle title (tableIssues t)
      = tableRules.countP fun rule => rule.issue.title == title && rule.applies t := by
  have hcount : countTitle title (tableIssues t)
      = ((tableIssues t).map SecurityIssue.title).countP (· == title) := by
    rw [List.countP_map]
    rfl
  rw [hcount, map_title_tableIssues, List.countP_map, List.countP_filter]
  rfl

/-! ### Issues of a title -/

theorem title_danglingEnd {tables : List Table} {r : Relationship} {side table field : String}
    {i : SecurityIssue} (h : danglingEnd tables r side table field = some i) :
    i.title = "Invalid Relationship Reference" := by
  unfold danglingEnd at h
  split at h
  · cases h
  · obtain rfl := Option.some.inj h
    rfl

/-- **Where issues of a title arise**, if it is not the title of a relationship or of a cycle. -/
theorem countTitle_issues {title : String} (hdangling : "Invalid Relationship Reference" ≠ title)
    (hcycle : "Circular Dependency Detected" ≠ title) (tables : List Table)
    (relationships : List Relationship) :
    countTitle title (issues tables relationships)
      = countTitle title (tables.flatMap fun t => t.fields.flatMap (fieldIssues t) ++ tableIssues t)
        + countTitle title (tables.flatMap fun t =>
            (t.fields.filter lacksIndex).map (unindexedIssue t)) := by
  have hnoDangling : countTitle title (relationships.flatMap (danglingIssues tables)) = 0 := by
    apply countTitle_eq_zero
    intro i hi
    obtain ⟨r, -, hi⟩ := List.mem_flatMap.1 hi
    have htitle : i.title = "Invalid Relationship Reference" := by
      rcases List.mem_append.1 hi with h | h
      · exact title_danglingEnd (Option.mem_toList.1 h)
      · exact title_danglingEnd (Option.mem_toList.1 h)
    rw [htitle]
    exact hdangling
  have hnoCycle : countTitle title
      ((findCycles (tables.map Table.name) (edges relationships)).map cycleIssue) = 0 := by
    apply countTitle_eq_zero
    intro i hi
    obtain ⟨cycle, -, rfl⟩ := List.mem_map.1 hi
    exact hcycle
  rw [issues, countTitle_append, countTitle_append, countTitle_append, hnoDangling, hnoCycle]
  rfl

/-! ### References without an index -/

/-- The security checks and the metrics look for the same references. -/
theorem lacksIndex_eq_isUnindexedReference (f : Field) : lacksIndex f = f.isUnindexedReference :=
  rfl

theorem countTitle_unindexedIssues (tables : List Table) :
    countTitle "Unindexed Foreign Key" (tables.flatMap fun t =>
        (t.fields.filter lacksIndex).map (unindexedIssue t))
      = Robustness.countFields Field.isUnindexedReference tables := by
  induction tables with
  | nil => rfl
  | cons t tables ih =>
    have htable : countTitle "Unindexed Foreign Key"
        ((t.fields.filter lacksIndex).map (unindexedIssue t))
          = t.fields.countP Field.isUnindexedReference := by
      rw [countTitle, List.countP_map, List.countP_filter]
      apply List.countP_congr
      intro f _
      show (true && lacksIndex f) = true ↔ _
      rw [Bool.true_and, lacksIndex_eq_isUnindexedReference]
    rw [List.flatMap_cons, countTitle_append, htable, ih]
    simp only [Robustness.countFields, Robustness.fieldsOf, List.flatMap_cons, List.countP_append]

/-- **The security issues of references without an index are as many as the performance metric
deducts for.** -/
theorem countTitle_unindexed (tables : List Table) (relationships : List Relationship) :
    countTitle "Unindexed Foreign Key" (issues tables relationships)
      = (Robustness.unindexedReferences tables).count := by
  have hrules : countTitle "Unindexed Foreign Key"
      (tables.flatMap fun t => t.fields.flatMap (fieldIssues t) ++ tableIssues t) = 0 := by
    apply countTitle_eq_zero
    intro i hi
    obtain ⟨t, -, hi⟩ := List.mem_flatMap.1 hi
    rcases List.mem_append.1 hi with hfield | htable
    · obtain ⟨f, -, hfield⟩ := List.mem_flatMap.1 hfield
      exact title_ne_of_mem_fieldIssues (by decide) hfield
    · have hmem := List.mem_map_of_mem (f := SecurityIssue.title) htable
      rw [map_title_tableIssues] at hmem
      obtain ⟨rule, hrule, htitle⟩ := List.mem_map.1 hmem
      have hne : ∀ rule ∈ tableRules, rule.issue.title ≠ "Unindexed Foreign Key" := by decide
      rw [← htitle]
      exact hne rule (List.mem_filter.1 hrule).1
  rw [countTitle_issues (by decide) (by decide), hrules, countTitle_unindexedIssues, Nat.zero_add]
  rfl

/-! ### Tables without a key -/

theorem countTitle_fieldIssues_eq_zero {title : String}
    (h : ∀ rule ∈ fieldRules, rule.issue.title ≠ title) (t : Table) :
    countTitle title (t.fields.flatMap (fieldIssues t)) = 0 := by
  apply countTitle_eq_zero
  intro i hi
  obtain ⟨f, -, hi⟩ := List.mem_flatMap.1 hi
  exact title_ne_of_mem_fieldIssues h hi

/-- The issue of a missing key is reported once for each table that lacks one and is no small table
that joins others. -/
theorem countTitle_missingKey (tables : List Table) (relationships : List Relationship) :
    countTitle "Missing Primary Key" (issues tables relationships)
      = tables.countP fun t => !t.isSystem && !t.hasKey := by
  have hunindexed : countTitle "Missing Primary Key" (tables.flatMap fun t =>
      (t.fields.filter lacksIndex).map (unindexedIssue t)) = 0 := by
    apply countTitle_eq_zero
    intro i hi
    obtain ⟨t, -, hi⟩ := List.mem_flatMap.1 hi
    obtain ⟨f, -, rfl⟩ := List.mem_map.1 hi
    show "Unindexed Foreign Key" ≠ "Missing Primary Key"
    decide
  have htable : ∀ t, countTitle "Missing Primary Key"
      (t.fields.flatMap (fieldIssues t) ++ tableIssues t)
        = if !t.isSystem && !t.hasKey then 1 else 0 := by
    intro t
    rw [countTitle_append, countTitle_fieldIssues_eq_zero (by decide), countTitle_tableIssues,
      Nat.zero_add]
    simp [tableRules, List.countP_cons]
  rw [countTitle_issues (by decide) (by decide), hunindexed, Nat.add_zero]
  exact countP_flatMap_of_single htable tables

end Security

/-- **Of the tables that the performance metric counts as keyless**, some have the issue of a missing
key, and the others are small tables that join others. -/
theorem count_keylessTables (tables : List Table) (relationships : List Relationship) :
    (Robustness.keylessTables tables).count
      = countTitle "Missing Primary Key" (Security.issues tables relationships)
        + tables.countP fun t => t.isSystem && !t.hasKey := by
  rw [Security.countTitle_missingKey]
  show (tables.countP fun t => !t.hasKey) = _
  induction tables with
  | nil => rfl
  | cons t tables ih =>
    simp only [List.countP_cons, ih]
    cases t.isSystem <;> cases t.hasKey <;> simp <;> omega

/-! ### What the performance metric states -/

namespace Robustness

/-- A suggestion about references without an index. -/
def isAboutReferences (suggestion : String) : Bool :=
  " reference column(s) are not indexed.".toList.isSuffixOf suggestion.toList

/-- Suggestions about tables end with their fault, which is no other ending. -/
theorem isAboutReferences_tableFault {fault : String} (tables : List Table) (p : Table → Bool)
    (points limit : Nat)
    (hfault : isAboutReferences fault = false)
    (hending : fault.toList.isSuffixOf " reference column(s) are not indexed.".toList = false) :
    isAboutReferences (tableFault tables p points limit fault).suggestion = false := by
  apply Bool.eq_false_iff.2
  intro hends
  have hsuffix := List.isSuffixOf_iff_suffix.1 hends
  have hown : fault.toList <:+ (tableFault tables p points limit fault).suggestion.toList := by
    simp only [tableFault, String.toList_append]
    exact List.suffix_append _ _
  rcases List.suffix_or_suffix_of_suffix hsuffix hown with h | h
  · exact Bool.eq_false_iff.1 hfault (List.isSuffixOf_iff_suffix.2 h)
  · exact Bool.eq_false_iff.1 hending (List.isSuffixOf_iff_suffix.2 h)

theorem isAboutReferences_unindexedReferences (tables : List Table) :
    isAboutReferences (unindexedReferences tables).suggestion = true := by
  apply List.isSuffixOf_iff_suffix.2
  simp only [unindexedReferences, String.toList_append]
  exact List.suffix_append _ _

theorem filter_deductions (tables : List Table) :
    (deductions tables).filter (fun d => isAboutReferences d.suggestion)
      = [unindexedReferences tables] := by
  have hwide : isAboutReferences (wideTables tables).suggestion = false :=
    isAboutReferences_tableFault tables _ _ _ (by decide) (by decide)
  have hkeyless : isAboutReferences (keylessTables tables).suggestion = false :=
    isAboutReferences_tableFault tables _ _ _ (by decide) (by decide)
  have hreferring : isAboutReferences (referringTables tables).suggestion = false :=
    isAboutReferences_tableFault tables _ _ _ (by decide) (by decide)
  have htextHeavy : isAboutReferences (textHeavyTables tables).suggestion = false :=
    isAboutReferences_tableFault tables _ _ _ (by decide) (by decide)
  have hunindexed := isAboutReferences_unindexedReferences tables
  simp [deductions, hwide, hkeyless, hreferring, htextHeavy, hunindexed]

/-- **The metric suggests an index exactly if it has deducted for one**, once, and says for how many
references. -/
theorem filter_suggestions_unindexed (tables : List Table) :
    (performanceAntiPatterns tables).suggestions.filter isAboutReferences
      = if (unindexedReferences tables).count = 0 then []
        else [toString (unindexedReferences tables).count
          ++ " reference column(s) are not indexed."] := by
  show (((deductions tables).filter fun d => d.count > 0).map Deduction.suggestion).filter _ = _
  rw [List.filter_map, List.filter_filter]
  have hcomm : ((deductions tables).filter fun d =>
      (isAboutReferences ∘ Deduction.suggestion) d && decide (d.count > 0))
        = ((deductions tables).filter fun d => isAboutReferences d.suggestion).filter
            fun d => d.count > 0 := by
    rw [List.filter_filter]
    apply List.filter_congr
    intro d _
    exact Bool.and_comm _ _
  rw [hcomm, filter_deductions]
  by_cases h : (unindexedReferences tables).count = 0
  · simp [h]
  · have hpositive : (unindexedReferences tables).count > 0 := Nat.pos_of_ne_zero h
    simp only [List.filter_cons, hpositive, decide_true, if_true, List.filter_nil, if_neg h]
    rfl

end Robustness

/-! ### Oversized and large -/

/-- The issues of the rules for fields are among those of a schema. -/
theorem Security.mem_issues_of_mem_fieldIssues {tables : List Table}
    (relationships : List Relationship) {t : Table} {f : Field} {i : SecurityIssue}
    (ht : t ∈ tables) (hf : f ∈ t.fields) (hi : i ∈ Security.fieldIssues t f) :
    i ∈ Security.issues tables relationships := by
  have hrules : i ∈ tables.flatMap fun t =>
      t.fields.flatMap (Security.fieldIssues t) ++ Security.tableIssues t :=
    List.mem_flatMap.2 ⟨t, ht, List.mem_append_left _ (List.mem_flatMap.2 ⟨f, hf, hi⟩)⟩
  exact List.mem_append_left _ (List.mem_append_left _ (List.mem_append_left _ hrules))

namespace Normalization

theorem title_of_mem_partialIssues {t : Table} {n : NormalizationIssue}
    (h : n ∈ partialIssues t) : n.title = "Possible Partial Dependency" := by
  unfold partialIssues at h
  by_cases hsingle : (t.fields.filter fun f => f.has .primaryKey).length < 2
  · rw [if_pos hsingle] at h
    cases h
  · rw [if_neg hsingle] at h
    obtain ⟨f, -, hf⟩ := List.mem_filterMap.1 h
    obtain ⟨key, -, rfl⟩ := Option.map_eq_some_iff.1 hf
    rfl

theorem title_of_mem_transitiveIssuesOf {t : Table} {fields : List Field} {n : NormalizationIssue}
    (h : n ∈ transitiveIssuesOf t fields) : n.title = "Possible Transitive Dependency" := by
  induction fields with
  | nil => cases h
  | cons f others ih =>
    rcases List.mem_append.1 h with hfirst | hrest
    · obtain ⟨⟨other, token⟩, -, rfl⟩ := Option.map_eq_some_iff.1 (Option.mem_toList.1 hfirst)
      rfl
    · exact ih hrest

/-- An issue of an oversized text is one of a single field. -/
theorem exists_field_of_oversized {tables : List Table} {n : NormalizationIssue}
    (hn : n ∈ issues tables) (htitle : n.title = "Oversized VARCHAR") :
    ∃ t ∈ tables, ∃ f ∈ t.fields, n ∈ fieldIssues t f := by
  obtain ⟨t, ht, hn⟩ := List.mem_flatMap.1 hn
  rcases List.mem_append.1 hn with hn | htransitive
  · rcases List.mem_append.1 hn with hfield | hpartial
    · obtain ⟨f, hf, hfield⟩ := List.mem_flatMap.1 hfield
      exact ⟨t, ht, f, hf, hfield⟩
    · rw [title_of_mem_partialIssues hpartial] at htitle
      exact absurd htitle (by decide)
  · rw [title_of_mem_transitiveIssuesOf htransitive] at htitle
    exact absurd htitle (by decide)

end Normalization

/-- **A field whose text is oversized has an issue that it is large**, in the same table. -/
theorem exists_large_of_oversized {tables : List Table} (relationships : List Relationship)
    {n : NormalizationIssue} (hn : n ∈ Normalization.issues tables)
    (htitle : n.title = "Oversized VARCHAR") :
    ∃ i ∈ Security.issues tables relationships,
      i.title = "Large Text Field Requires Input Validation" ∧ i.table = some n.table ∧
        i.field.toList = n.fields := by
  obtain ⟨t, ht, f, hf, hmem⟩ := Normalization.exists_field_of_oversized hn htitle
  have hoversized : "Oversized VARCHAR" ∈ normalizationTitles t f :=
    List.mem_map.2 ⟨n, hmem, htitle⟩
  have hlarge : "Large Text Field Requires Input Validation" ∈ securityTitles t f := by
    rw [oversized_mem_normalizationTitles_iff] at hoversized
    rw [large_mem_securityTitles_iff, hoversized, Bool.or_true]
  obtain ⟨i, hi, hititle⟩ := List.mem_map.1 hlarge
  have hissue := Security.mem_issues_of_mem_fieldIssues relationships ht hf hi
  obtain ⟨rule, -, rfl⟩ := List.mem_map.1 hi
  obtain ⟨rule', -, rfl⟩ := List.mem_map.1 hmem
  exact ⟨_, hissue, hititle, rfl, rfl⟩

/-! ### The summary -/

theorem countSeverity_add (issues : List SecurityIssue) :
    countSeverity .critical issues + countSeverity .warning issues + countSeverity .info issues
      = issues.length := by
  induction issues with
  | nil => rfl
  | cons i issues ih =>
    simp only [countSeverity, List.countP_cons, List.length_cons] at ih ⊢
    cases i.severity <;> simp <;> omega

theorem countKind_add (issues : List NormalizationIssue) :
    countKind .violation issues + countKind .warning issues + countKind .suggestion issues
      = issues.length := by
  induction issues with
  | nil => rfl
  | cons i issues ih =>
    simp only [countKind, List.countP_cons, List.length_cons] at ih ⊢
    cases i.kind <;> simp <;> omega

/-! ### Results of audits -/

/-- What the families of checks say about the same faults of tables. -/
structure AuditResult.ChecksAgree (tables : List Table) (r : AuditResult) : Prop where
  unindexed : countTitle "Unindexed Foreign Key" r.securityIssues
    = (Robustness.unindexedReferences tables).count
  suggested : ∃ m,
    (r.robustnessMetrics.filter fun m => m.category == "Performance Anti-Patterns") = [m] ∧
    m.suggestions.filter Robustness.isAboutReferences
      = if countTitle "Unindexed Foreign Key" r.securityIssues = 0 then []
        else [toString (countTitle "Unindexed Foreign Key" r.securityIssues)
          ++ " reference column(s) are not indexed."]
  keyless : (Robustness.keylessTables tables).count
    = countTitle "Missing Primary Key" r.securityIssues
      + tables.countP fun t => t.isSystem && !t.hasKey
  oversized : ∀ n ∈ r.normalizationIssues, n.title = "Oversized VARCHAR" →
    ∃ i ∈ r.securityIssues, i.title = "Large Text Field Requires Input Validation" ∧
      i.table = some n.table ∧ i.field.toList = n.fields
  summary : r.summary.criticalIssues + r.summary.warnings + r.summary.suggestions
    = r.securityIssues.length + r.normalizationIssues.length

/-- **In every audit the families of checks agree with each other.** -/
theorem audit_checksAgree (g : Graph) : (audit g).ChecksAgree g.tables := by
  have hunindexed := Security.countTitle_unindexed g.tables g.relationships
  have hsecurity := countSeverity_add (Security.issues g.tables g.relationships)
  have hnormalization := countKind_add (Normalization.issues g.tables)
  exact
    { unindexed := hunindexed
      suggested := by
        refine ⟨Robustness.performanceAntiPatterns g.tables, rfl, ?_⟩
        show _ = if countTitle _ (Security.issues g.tables g.relationships) = 0 then _
          else [toString (countTitle _ (Security.issues g.tables g.relationships)) ++ _]
        rw [hunindexed]
        exact Robustness.filter_suggestions_unindexed g.tables
      keyless := count_keylessTables g.tables g.relationships
      oversized := fun n hn => exists_large_of_oversized g.relationships hn
      summary := by
        show countSeverity _ (Security.issues g.tables g.relationships)
            + countKind _ (Normalization.issues g.tables)
            + (countSeverity _ _ + countKind _ _) + (countSeverity _ _ + countKind _ _)
          = (Security.issues g.tables g.relationships).length
            + (Normalization.issues g.tables).length
        omega }

end SchemaAudit
