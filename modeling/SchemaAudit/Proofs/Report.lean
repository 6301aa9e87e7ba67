import SchemaAudit.Proofs.Text.Width
import SchemaAudit.Report

/-!
# Columns of a report

Findings are listed in columns. Cells are filled up with spaces to the width of the widest one, so
that all cells of a column are equally wide on the screen, whatever characters they hold. Of the
width of texts nothing is used but that spaces behind a text add their number to it.

* `AddsSpaces`: what is asked of a measure of width. The program's has it (`addsSpaces_width`).
* `SetRow`: a row and the spaces that fill up its cells.
* `IsAligned`: columns are as wide as their widest cells, and no wider.
* `isAligned_map_fill`: rows that are filled up to the widest cells are aligned.
* `report_isAligned`: the sections of a report list all findings in aligned rows.
-/

namespace SchemaAudit.Report

/-- Spaces behind a text add their number to its width. -/
def AddsSpaces (width : List Char → Nat) : Prop :=
  ∀ (s : List Char) (n : Nat), width (s ++ List.replicate n ' ') = width s + n

theorem addsSpaces_width : AddsSpaces Text.width := Text.width_append_spaces

/-- A row with the number of spaces behind its label and behind its location. -/
structure SetRow where
  row : Row
  labelFill : Nat
  locationFill : Nat

namespace SetRow

def label (x : SetRow) : List Char := x.row.label ++ List.replicate x.labelFill ' '

def location (x : SetRow) : List Char := x.row.location ++ List.replicate x.locationFill ' '

/-- The texts of the row, each of them whole, in the columns of its line. -/
def line (x : SetRow) : List Char := x.label ++ gap ++ x.location ++ gap ++ x.row.title

end SetRow

section
variable (width : List Char → Nat)

/-- The cells of a column are equally wide, and one of them needs no spaces. -/
structure IsAligned (rows : List SetRow) : Prop where
  labels : ∃ columns, ∀ x ∈ rows, width x.label = columns
  locations : ∃ columns, ∀ x ∈ rows, width x.location = columns
  labelFits : ∃ x ∈ rows, x.labelFill = 0
  locationFits : ∃ x ∈ rows, x.locationFill = 0

/-- Lines that list rows under a heading, one line for each row; no lines where there are no rows. -/
def Lists (heading : String) (rows : List Row) (lines : List (List Char)) : Prop :=
  (rows = [] ∧ lines = [])
    ∨ ∃ set : List SetRow, set.map SetRow.row = rows ∧ IsAligned width set ∧
      lines = headed heading (set.map SetRow.line)

/-- The row with spaces up to the given widths. -/
def Row.fill (labelWidth locationWidth : Nat) (r : Row) : SetRow :=
  ⟨r, labelWidth - width r.label, locationWidth - width r.location⟩

theorem Row.line_fill (labelWidth locationWidth : Nat) (r : Row) :
    (r.fill width labelWidth locationWidth).line = r.line width labelWidth locationWidth := rfl

end

variable {width : List Char → Nat}

/-! ### The widest cell -/

/-- A text that is not too wide is padded to the width that is asked for. -/
theorem width_padEnd (hw : AddsSpaces width) {columns : Nat} {s : List Char}
    (h : width s ≤ columns) : width (padEnd width columns s) = columns := by
  rw [padEnd, hw]
  omega

theorem le_foldl_max (texts : List (List Char)) (n : Nat) :
    n ≤ texts.foldl (fun n s => max n (width s)) n := by
  induction texts generalizing n with
  | nil => exact Nat.le_refl n
  | cons t texts ih => exact Nat.le_trans (Nat.le_max_left _ _) (ih _)

theorem width_le_widest {texts : List (List Char)} {s : List Char} (h : s ∈ texts) :
    width s ≤ widest width texts := by
  rw [widest]
  generalize 0 = n
  induction texts generalizing n with
  | nil => cases h
  | cons t texts ih =>
    rcases List.mem_cons.1 h with rfl | hmem
    · exact Nat.le_trans (Nat.le_max_right _ _) (le_foldl_max texts _)
    · exact ih hmem _

theorem foldl_max_cases (texts : List (List Char)) (n : Nat) :
    texts.foldl (fun n s => max n (width s)) n = n
      ∨ ∃ s ∈ texts, width s = texts.foldl (fun n s => max n (width s)) n := by
  induction texts generalizing n with
  | nil => exact .inl rfl
  | cons t texts ih =>
    rw [List.foldl_cons]
    rcases ih (max n (width t)) with hmax | ⟨s, hs, hwidth⟩
    · rw [hmax]
      rcases Nat.le_total (width t) n with hle | hle
      · exact .inl (Nat.max_eq_left hle)
      · exact .inr ⟨t, List.mem_cons_self, (Nat.max_eq_right hle).symm⟩
    · exact .inr ⟨s, List.mem_cons_of_mem t hs, hwidth⟩

/-- Where there are texts, one of them is the widest. -/
theorem exists_width_eq_widest {texts : List (List Char)} (h : texts ≠ []) :
    ∃ s ∈ texts, width s = widest width texts := by
  rcases foldl_max_cases texts 0 with hnone | hsome
  · -- all texts are without width, and so is the first
    obtain ⟨t, others, rfl⟩ := List.exists_cons_of_ne_nil h
    have hle : width t ≤ widest width (t :: others) := width_le_widest List.mem_cons_self
    refine ⟨t, List.mem_cons_self, ?_⟩
    rw [widest, hnone] at hle ⊢
    exact Nat.le_zero.1 hle
  · exact hsome

/-! ### Rows in columns -/

/-- **Cells that are filled up to the widest ones are aligned.** -/
theorem isAligned_map_fill (hw : AddsSpaces width) {rows : List Row} (h : rows ≠ []) :
    IsAligned width (rows.map (Row.fill width (widest width (rows.map Row.label))
      (widest width (rows.map Row.location)))) := by
  have hwidth : ∀ cell : Row → List Char, ∀ r ∈ rows,
      width (padEnd width (widest width (rows.map cell)) (cell r))
        = widest width (rows.map cell) := fun cell r hr =>
    width_padEnd hw (width_le_widest (List.mem_map_of_mem hr))
  have hfits : ∀ cell : Row → List Char,
      ∃ r ∈ rows, widest width (rows.map cell) - width (cell r) = 0 := by
    intro cell
    have hcells : rows.map cell ≠ [] := fun hnil => h (List.map_eq_nil_iff.1 hnil)
    obtain ⟨s, hs, hwidest⟩ : ∃ s ∈ rows.map cell, width s = widest width (rows.map cell) :=
      exists_width_eq_widest hcells
    obtain ⟨r, hr, rfl⟩ := List.mem_map.1 hs
    exact ⟨r, hr, by rw [hwidest, Nat.sub_self]⟩
  refine ⟨⟨widest width (rows.map Row.label), ?_⟩, ⟨widest width (rows.map Row.location), ?_⟩,
    ?_, ?_⟩
  · rw [List.forall_mem_map]
    exact hwidth Row.label
  · rw [List.forall_mem_map]
    exact hwidth Row.location
  · obtain ⟨r, hr, hfill⟩ := hfits Row.label
    exact ⟨_, List.mem_map_of_mem hr, hfill⟩
  · obtain ⟨r, hr, hfill⟩ := hfits Row.location
    exact ⟨_, List.mem_map_of_mem hr, hfill⟩

theorem lists_rowSection (hw : AddsSpaces width) (heading : String) (rows : List Row) :
    Lists width heading rows (rowSection width heading rows) := by
  by_cases h : rows = []
  · refine .inl ⟨h, ?_⟩
    rw [h]
    rfl
  · refine .inr ⟨_, ?_, isAligned_map_fill hw h, ?_⟩
    · rw [List.map_map]
      exact List.map_id rows
    · have hlines : rowLines width rows
          = (rows.map (Row.fill width (widest width (rows.map Row.label))
            (widest width (rows.map Row.location)))).map SetRow.line := by
        rw [List.map_map]
        exact List.map_congr_left fun r _ => (Row.line_fill _ _ _ r).symm
      rw [rowSection, if_neg (by simpa using h), hlines]

/-- Findings in a schema of which the names are wider than they are long. -/
def wideFindings : AuditResult where
  overallScore := 72
  securityIssues :=
    [⟨.critical, .authentication, "Plain Text Password", "", some "利用者", some "合言葉", "", .high⟩,
     ⟨.info, .audit, "Missing Audit Trail", "", none, none, "", .low⟩]
  normalizationIssues :=
    [⟨.violation, .first, "Potential Multi-Valued Attribute", "", "注文", ["品目_list"], ""⟩]
  robustnessMetrics := []
  summary := ⟨2, 5, 1, 84, 85, 50.0, 2, 0, 1⟩

/-- Cells with characters of two columns are filled up with fewer spaces. -/
example : rowLines Text.width (wideFindings.securityIssues.map securityRow)
    = ["CRITICAL  利用者.合言葉  Plain Text Password".toList,
       "INFO      -              Missing Audit Trail".toList] := by
  decide +kernel

end SchemaAudit.Report
