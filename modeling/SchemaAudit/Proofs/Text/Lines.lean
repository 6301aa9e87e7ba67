import Mathlib.Data.List.DropRight
import SchemaAudit.Text.Classes
import SchemaAudit.Proofs.Text.Search

/-!
# Lines and their ends

What a written text gives back when it is cut into lines and trimmed.

* `lines_flatMap_newline`: lines without line feeds, each closed by one, are the lines of their
  text, as long as none ends in a carriage return.
* `trim_of_ends`: a text that neither begins nor ends with a blank is left as it is by trimming,
  and blanks in front of it are dropped.
* `newline_not_mem_lines`: no line of a text holds a line feed.
-/

namespace SchemaAudit.Text

/-! ### Trimming -/

theorem trimStart_cons {c : Char} (h : isBlank c = false) (s : List Char) :
    trimStart (c :: s) = c :: s := by
  simp [trimStart, h]

theorem trimStart_append_of_blank {blanks : List Char} (h : ∀ c ∈ blanks, isBlank c = true)
    (s : List Char) : trimStart (blanks ++ s) = trimStart s :=
  List.dropWhile_append_of_pos h

/-- Only what stands in front of the first character that is no blank is trimmed. -/
theorem trimStart_append_cons {c : Char} (h : isBlank c = false) (s t : List Char) :
    trimStart (s ++ c :: t) = trimStart s ++ c :: t := by
  rw [trimStart, trimStart, List.dropWhile_append]
  split
  · rename_i hblank
    rw [List.isEmpty_iff.1 hblank, List.dropWhile_cons_of_neg (by simp [h])]
    rfl
  · rfl

theorem trimEnd_append_singleton {c : Char} (h : isBlank c = false) (s : List Char) :
    trimEnd (s ++ [c]) = s ++ [c] := by
  simp [trimEnd, h]

/-- Only what stands behind the last character that is no blank is trimmed. -/
theorem trimEnd_append_cons {c : Char} (h : isBlank c = false) (s t : List Char) :
    trimEnd (s ++ c :: t) = s ++ c :: trimEnd t := by
  have hreverse : (s ++ c :: t).reverse = t.reverse ++ c :: s.reverse := by simp
  rw [trimEnd, trimEnd, hreverse, List.dropWhile_append]
  split
  · rename_i hblank
    rw [List.isEmpty_iff.1 hblank, List.dropWhile_cons_of_neg (by simp [h])]
    simp
  · simp

/-- A text whose last character is no blank. -/
def EndsInk (s : List Char) : Prop := ∃ before last, s = before ++ [last] ∧ isBlank last = false

theorem endsInk_append_singleton (s : List Char) {c : Char} (h : isBlank c = false) :
    EndsInk (s ++ [c]) := ⟨s, c, rfl, h⟩

/-- A nonempty text without blanks ends in no blank. -/
theorem endsInk_of_forall {s : List Char} (hne : s ≠ []) (h : ∀ c ∈ s, isBlank c = false) :
    EndsInk s := by
  have hs := List.dropLast_concat_getLast hne
  exact ⟨s.dropLast, s.getLast hne, hs.symm, h _ (List.getLast_mem hne)⟩

theorem EndsInk.append {s : List Char} (h : EndsInk s) (front : List Char) :
    EndsInk (front ++ s) := by
  obtain ⟨before, last, rfl, hl⟩ := h
  exact ⟨front ++ before, last, by rw [List.append_assoc], hl⟩

/-- A text between no blanks stays; blanks in front of it go. -/
theorem trim_of_ends {blanks s : List Char} {c : Char} (hb : ∀ b ∈ blanks, isBlank b = true)
    (hc : isBlank c = false) (he : EndsInk (c :: s)) : trim (blanks ++ c :: s) = c :: s := by
  obtain ⟨before, last, hs, hl⟩ := he
  rw [trim, trimStart_append_of_blank hb, trimStart_cons hc, hs, trimEnd_append_singleton hl]

theorem trim_of_forall {s : List Char} (h : ∀ c ∈ s, isBlank c = false) : trim s = s := by
  cases s with
  | nil => rfl
  | cons c s =>
    have hends := endsInk_of_forall (List.cons_ne_nil c s) h
    have hnone : ∀ b ∈ ([] : List Char), isBlank b = true := by simp
    have htrim := trim_of_ends hnone (h c List.mem_cons_self) hends
    rwa [List.nil_append] at htrim

/-- What trimming the end takes away are blanks, and what it leaves ends in none. -/
theorem exists_trimEnd_append (s : List Char) :
    ∃ blanks, s = trimEnd s ++ blanks ∧ (∀ c ∈ blanks, isBlank c = true) ∧
      (trimEnd s = [] ∨ EndsInk (trimEnd s)) := by
  refine ⟨s.rtakeWhile isBlank, List.rdropWhile_append_rtakeWhile.symm, fun c hc => ?_, ?_⟩
  · exact List.mem_rtakeWhile_imp hc
  · by_cases hnil : trimEnd s = []
    · exact .inl hnil
    · refine .inr ⟨(trimEnd s).dropLast, (trimEnd s).getLast hnil,
        (List.dropLast_append_getLast hnil).symm, ?_⟩
      exact Bool.eq_false_iff.2 (List.rdropWhile_last_not isBlank s hnil)

/-! ### Lines -/

/-- A text that a line can hold: no line feed, and no carriage return at its end. -/
def FitsLine (line : List Char) : Prop := '\n' ∉ line ∧ dropReturn line = line

theorem dropReturn_append_singleton {c : Char} (h : c ≠ '\r') (s : List Char) :
    dropReturn (s ++ [c]) = s ++ [c] := by
  unfold dropReturn
  rw [List.reverse_append, List.reverse_singleton, List.singleton_append]
  split
  · rename_i front heq
    exact absurd (List.cons.inj heq).1 h
  · rfl

theorem EndsInk.dropReturn {s : List Char} (h : EndsInk s) : dropReturn s = s := by
  obtain ⟨before, last, rfl, hl⟩ := h
  refine dropReturn_append_singleton ?_ before
  rintro rfl
  exact absurd hl (by decide)

theorem FitsLine.of_endsInk {s : List Char} (hn : '\n' ∉ s) (he : EndsInk s) : FitsLine s :=
  ⟨hn, he.dropReturn⟩

theorem fitsLine_nil : FitsLine [] := ⟨List.not_mem_nil, rfl⟩

theorem splitOn_flatMap_newline {ls : List (List Char)} (h : ∀ l ∈ ls, '\n' ∉ l) (t : List Char) :
    (ls.flatMap (· ++ ['\n']) ++ t).splitOn '\n' = ls ++ t.splitOn '\n' := by
  induction ls with
  | nil => rfl
  | cons l ls ih =>
    have hl : ∀ c ∈ l, (c == '\n') = false := by
      intro c hc
      have : c ≠ '\n' := fun e => h l List.mem_cons_self (e ▸ hc)
      simpa using this
    have htail := ih fun l' hl' => h l' (List.mem_cons_of_mem _ hl')
    rw [List.flatMap_cons, List.append_assoc, List.append_assoc, List.singleton_append, List.splitOn,
      List.splitOnP_append_cons_of_forall_mem hl '\n' (by simp)]
    exact congrArg (l :: ·) htail

/-- **Lines that are each closed by a line feed are read back**, in front of any other text. -/
theorem lines_flatMap_newline_append {ls : List (List Char)} (h : ∀ l ∈ ls, FitsLine l)
    (t : List Char) : lines (ls.flatMap (· ++ ['\n']) ++ t) = ls ++ lines t := by
  have hs := splitOn_flatMap_newline (fun l hl => (h l hl).1) t
  have hr : ls.map dropReturn = ls := by
    conv => rhs; rw [← List.map_id ls]
    exact List.map_congr_left fun l hl => (h l hl).2
  obtain ⟨front, last, hparts⟩ :=
    (List.eq_nil_or_concat (t.splitOn '\n')).resolve_left (List.splitOnP_ne_nil _ t)
  unfold lines
  rw [hs, hparts, List.concat_eq_append, ← List.append_assoc]
  simp only [List.dropLast_concat, List.getLast?_concat, List.map_append, hr]
  cases last <;> simp

theorem lines_flatMap_newline {ls : List (List Char)} (h : ∀ l ∈ ls, FitsLine l) :
    lines (ls.flatMap (· ++ ['\n'])) = ls := by
  have hlines := lines_flatMap_newline_append h []
  rwa [List.append_nil, show lines [] = [] from rfl, List.append_nil] at hlines

/-! ### What cutting and trimming leave -/

theorem trim_subset (s : List Char) : trim s ⊆ s := by
  intro c hc
  rw [trim, trimEnd, List.mem_reverse] at hc
  have hstart := List.mem_reverse.1 ((List.dropWhile_sublist isBlank).subset hc)
  exact (List.dropWhile_sublist isBlank).subset hstart

theorem dropReturn_subset (line : List Char) : dropReturn line ⊆ line := by
  unfold dropReturn
  split
  · rename_i before hreverse
    have hline : line = before.reverse ++ ['\r'] := by
      rw [← List.reverse_reverse line, hreverse, List.reverse_cons]
    rw [hline]
    exact List.subset_append_left _ _
  · exact List.Subset.refl line

/-- No line holds a line feed. -/
theorem newline_not_mem_lines {s line : List Char} (h : line ∈ lines s) : '\n' ∉ line := by
  have hparts : ∀ part ∈ s.splitOn '\n', '\n' ∉ part := by
    intro part hpart hc
    have hnone := forall_mem_splitOnP (· == '\n') s part hpart '\n' hc
    simp at hnone
  have hcomplete : ∀ line ∈ (s.splitOn '\n').dropLast.map dropReturn, '\n' ∉ line := by
    intro line hline hc
    obtain ⟨part, hpart, rfl⟩ := List.mem_map.1 hline
    exact hparts part (List.dropLast_subset _ hpart) (dropReturn_subset part hc)
  unfold lines at h
  simp only at h
  split at h
  · exact hcomplete line h
  · exact hcomplete line h
  · rename_i last hne hlast
    rcases List.mem_append.1 h with h | h
    · exact hcomplete line h
    · rw [List.mem_singleton.1 h]
      exact hparts last (List.mem_of_getLast? hlast)

end SchemaAudit.Text
