import SchemaAudit.Audit.Normalization
import SchemaAudit.Audit.Security
import SchemaAudit.Proofs.Audit.Template
import SchemaAudit.Proofs.TypeName

/-!
# Lengths of texts

Three rules look at the declared length of a text. A length of more than 32 bits is not read, so
that a text of that length is taken for one without a length.

* `varcharLength?_varchar`: which length is read from a type.
* `mem_securityTitles_iff`, `mem_normalizationTitles_iff`: an issue has the title of a rule exactly
  if this rule applies.
* `mem_titles_varchar_iff`: which lengths the three rules report.
-/

namespace SchemaAudit

open SchemaAudit.TypeName

/-! ### Reading the length -/

/-- The type of texts of a length. -/
def varchar (n : Nat) : String := "varchar(" ++ toString n ++ ")"

theorem toList_varchar (n : Nat) :
    (varchar n).toList = sized "varchar".toList (toString n).toList := by
  simp [varchar, sized]

theorem all_isInk_varchar (n : Nat) : (varchar n).toList.all isInk = true := by
  rw [toList_varchar]
  exact all_isInk_sized (by decide) (isPart_toString n)

theorem toLower_varchar (n : Nat) : Text.toLower (varchar n).toList = (varchar n).toList := by
  apply Text.toLower_of_isLowAscii
  refine List.all_eq_true.2 fun c hc => ?_
  have hink := List.all_eq_true.1 (all_isInk_varchar n) c hc
  simp only [isInk, Bool.and_eq_true] at hink
  exact hink.1

theorem baseType_varchar (n : Nat) : baseType (varchar n) = "varchar" := by
  unfold baseType
  rw [toLower_varchar, toList_varchar, sized]
  rfl

theorem before_of_not_mem {mark : Char} {s : List Char} (h : mark ∉ s) : before mark s = s := by
  have hs : ∀ c ∈ s, (c != mark) = true := fun c hc => bne_iff_ne.2 fun e => h (e ▸ hc)
  have hcut := (Text.takeWhile_dropWhile_append hs (t := []) (by simp)).1
  rwa [List.append_nil] at hcut

/-- **The length is read if it has no more than 32 bits.** -/
theorem varcharLength?_varchar (n : Nat) :
    varcharLength? (varchar n) = if n ≤ Text.maxCount then some n else none := by
  have hnone : ∀ c, Text.isDigit c = false → c ∉ (toString n).toList := by
    intro c hc hmem
    rw [Text.isDigit_of_mem_toString hmem] at hc
    exact absurd hc (by decide)
  have hopen : '(' ∉ "varchar".toList := by decide
  have hinner := Text.cutAt?_append (hnone ')' (by decide)) []
  have htrim : Text.trim (toString n).toList = (toString n).toList :=
    Text.trim_of_forall (isBlank_of_all_isInk (all_isInk (isPart_toString n)))
  have hmax : (toString n).toList ≠ "max".toList := by
    intro hmax
    apply hnone 'm' (by decide)
    rw [hmax]
    decide
  have hcomma := before_of_not_mem (hnone ',' (by decide))
  unfold varcharLength?
  rw [baseType_varchar, toLower_varchar, toList_varchar, sized, Text.cutAt?_append hopen]
  simp only [Option.bind_eq_bind, Option.bind_some, hinner, htrim, if_neg hmax, hcomma,
    Text.countOfText?_toString]
  rfl

/-! ### Titles of issues -/

/-- The titles of the security issues of a field. -/
def securityTitles (t : Table) (f : Field) : List String :=
  (Security.fieldIssues t f).map SecurityIssue.title

/-- The titles of the normalization issues of a field. -/
def normalizationTitles (t : Table) (f : Field) : List String :=
  (Normalization.fieldIssues t f).map NormalizationIssue.title

/-- No title of a rule is a template. -/
theorem fill_title {rule : Security.FieldRule} (h : rule ∈ Security.fieldRules) (t : Table)
    (f : Field) : Template.fill rule.issue.title t (some f) = rule.issue.title := by
  have hnone : ∀ rule ∈ Security.fieldRules, '\x7b' ∉ rule.issue.title.toList := by
    decide
  exact Template.fill_of_not_mem (hnone rule h) t (some f)

/-- **A security issue has a title exactly if a rule of that title applies.** -/
theorem mem_securityTitles_iff {title : String} {t : Table} {f : Field} :
    title ∈ securityTitles t f
      ↔ ∃ rule ∈ Security.fieldRules, rule.issue.title = title ∧ rule.applies t f = true := by
  simp only [securityTitles, Security.fieldIssues, List.map_map, List.mem_map, List.mem_filter]
  constructor
  · rintro ⟨rule, ⟨hrule, happlies⟩, htitle⟩
    exact ⟨rule, hrule, (fill_title hrule t f).symm.trans htitle, happlies⟩
  · rintro ⟨rule, hrule, htitle, happlies⟩
    exact ⟨rule, ⟨hrule, happlies⟩, (fill_title hrule t f).trans htitle⟩

/-- **A normalization issue has a title exactly if a rule of that title applies.** -/
theorem mem_normalizationTitles_iff {title : String} {t : Table} {f : Field} :
    title ∈ normalizationTitles t f
      ↔ ∃ rule ∈ Normalization.fieldRules, rule.issue.title = title ∧ rule.applies f = true := by
  simp only [normalizationTitles, Normalization.fieldIssues, List.map_map, List.mem_map,
    List.mem_filter]
  constructor
  · rintro ⟨rule, ⟨hrule, happlies⟩, htitle⟩
    exact ⟨rule, hrule, htitle, happlies⟩
  · rintro ⟨rule, hrule, htitle, happlies⟩
    exact ⟨rule, ⟨hrule, happlies⟩, htitle⟩

/-! ### Rules about lengths -/

theorem large_mem_securityTitles_iff (t : Table) (f : Field) :
    "Large Text Field Requires Input Validation" ∈ securityTitles t f
      ↔ (isTextType f.type || (varcharLength? f.type).any (1000 < ·)) = true := by
  rw [mem_securityTitles_iff]
  simp [Security.fieldRules]

theorem oversized_mem_normalizationTitles_iff (t : Table) (f : Field) :
    "Oversized VARCHAR" ∈ normalizationTitles t f
      ↔ (varcharLength? f.type).any (1000 < ·) = true := by
  rw [mem_normalizationTitles_iff]
  simp [Normalization.fieldRules]

theorem insufficient_mem_securityTitles_iff (t : Table) (f : Field) :
    "Insufficient Password Hash Length" ∈ securityTitles t f
      ↔ (f.isPassword && (varcharLength? f.type).any (· < 60)) = true := by
  rw [mem_securityTitles_iff]
  simp [Security.fieldRules]

/-! ### Texts of a declared length -/

theorem isTextType_varchar (n : Nat) : isTextType (varchar n) = false := by
  rw [isTextType, baseType_varchar]
  decide

theorem any_varcharLength?_varchar (n : Nat) (p : Nat → Bool) :
    (varcharLength? (varchar n)).any p = true ↔ p n = true ∧ n ≤ Text.maxCount := by
  rw [varcharLength?_varchar]
  by_cases h : n ≤ Text.maxCount
  · simp [h]
  · simp [h]

theorem large_varchar_iff (t : Table) (f : Field) (n : Nat) :
    "Large Text Field Requires Input Validation" ∈ securityTitles t { f with type := varchar n }
      ↔ 1000 < n ∧ n ≤ Text.maxCount := by
  rw [large_mem_securityTitles_iff, isTextType_varchar, Bool.false_or,
    any_varcharLength?_varchar, decide_eq_true_eq]

theorem oversized_varchar_iff (t : Table) (f : Field) (n : Nat) :
    "Oversized VARCHAR" ∈ normalizationTitles t { f with type := varchar n }
      ↔ 1000 < n ∧ n ≤ Text.maxCount := by
  rw [oversized_mem_normalizationTitles_iff, any_varcharLength?_varchar, decide_eq_true_eq]

/-- A length below 60 is always read. -/
theorem insufficient_varchar_iff (t : Table) (f : Field) (n : Nat) :
    "Insufficient Password Hash Length" ∈ securityTitles t { f with type := varchar n }
      ↔ f.isPassword = true ∧ n < 60 := by
  have hread : n < 60 → n ≤ Text.maxCount := by
    intro hn
    rw [Text.maxCount]
    omega
  rw [insufficient_mem_securityTitles_iff, Bool.and_eq_true, any_varcharLength?_varchar,
    decide_eq_true_eq, and_iff_left_of_imp hread]
  rfl

/-- **What is reported of a text of a length**: from 1001 up to the greatest count of 32 bits it is
large and oversized, and below 60 it is too short for the hash of a password. -/
theorem mem_titles_varchar_iff (t : Table) (f : Field) (n : Nat) :
    ("Large Text Field Requires Input Validation" ∈ securityTitles t { f with type := varchar n }
        ↔ 1000 < n ∧ n ≤ Text.maxCount) ∧
      ("Oversized VARCHAR" ∈ normalizationTitles t { f with type := varchar n }
        ↔ 1000 < n ∧ n ≤ Text.maxCount) ∧
      ("Insufficient Password Hash Length" ∈ securityTitles t { f with type := varchar n }
        ↔ f.isPassword = true ∧ n < 60) :=
  ⟨large_varchar_iff t f n, oversized_varchar_iff t f n, insufficient_varchar_iff t f n⟩

/-- A length of 33 bits is reported by no rule. -/
theorem not_mem_titles_wide :
    let f : Field := ⟨"bio", "varchar(4294967296)", .empty⟩
    let t : Table := ⟨"t", "t", [f]⟩
    f.type = varchar 4294967296 ∧
      "Large Text Field Requires Input Validation" ∉ securityTitles t f ∧
      "Oversized VARCHAR" ∉ normalizationTitles t f := by
  intro f t
  have htype : f = { f with type := varchar 4294967296 } := by
    show _ = (⟨"bio", varchar 4294967296, .empty⟩ : Field)
    rw [Field.mk.injEq]
    decide
  have hwide : ¬(1000 < 4294967296 ∧ 4294967296 ≤ Text.maxCount) := by decide
  rw [htype]
  refine ⟨rfl, ?_, ?_⟩
  · exact mt (large_varchar_iff t f 4294967296).1 hwide
  · exact mt (oversized_varchar_iff t f 4294967296).1 hwide

end SchemaAudit
