import SchemaAudit.Proofs.Text.Lines
import SchemaAudit.TypeName

/-!
# Words of a type

A type that no table lists keeps its words, glued together. Everything about words follows from what
a blank does between two texts and from what a text without blanks does at the end of a word.

* `words_append_cons`: a blank between two texts keeps their words apart.
* `exists_words_append`: a text without blanks joins the last word of a text that ends in one.
* `join_append_singleton`, `join_append_last`, `count_glue`: what gluing makes of these, and what it
  keeps of each character.
-/

namespace SchemaAudit.TypeName

/-- **A blank keeps words apart.** -/
theorem words_append_cons {c : Char} (hc : Text.isBlank c = true) (s t : List Char) :
    words (s ++ c :: t) = words s ++ words t := by
  unfold words
  rw [List.splitOnP_append_cons s t hc, List.filter_append]

theorem words_nil : words [] = [] := rfl

theorem words_blanks_append {blanks : List Char} (h : ∀ c ∈ blanks, Text.isBlank c = true)
    (s : List Char) : words (blanks ++ s) = words s := by
  induction blanks with
  | nil => rfl
  | cons c blanks ih =>
    obtain ⟨hc, hblanks⟩ := List.forall_mem_cons.1 h
    have hfirst := words_append_cons hc [] (blanks ++ s)
    rwa [words_nil, List.nil_append, List.nil_append, ih hblanks] at hfirst

theorem words_trimStart (s : List Char) : words (Text.trimStart s) = words s := by
  have hs : s.takeWhile Text.isBlank ++ Text.trimStart s = s := List.takeWhile_append_dropWhile
  conv => rhs; rw [← hs]
  exact (words_blanks_append (fun c hc => List.mem_takeWhile_imp hc) _).symm

theorem words_append_blanks {blanks : List Char} (h : ∀ c ∈ blanks, Text.isBlank c = true)
    (s : List Char) : words (s ++ blanks) = words s := by
  cases blanks with
  | nil => rw [List.append_nil]
  | cons c blanks =>
    obtain ⟨hc, hblanks⟩ := List.forall_mem_cons.1 h
    have hnone := words_blanks_append hblanks []
    rw [List.append_nil, words_nil] at hnone
    rw [words_append_cons hc, hnone, List.append_nil]

theorem words_trim (s : List Char) : words (Text.trim s) = words s := by
  obtain ⟨blanks, hs, hblanks, -⟩ := Text.exists_trimEnd_append (Text.trimStart s)
  have hend := words_append_blanks hblanks (Text.trimEnd (Text.trimStart s))
  rw [← hs, words_trimStart] at hend
  exact hend.symm

/-- A text without blanks is a word. -/
theorem words_of_forall {s : List Char} (hne : s ≠ []) (h : ∀ c ∈ s, Text.isBlank c = false) :
    words s = [s] := by
  unfold words
  rw [List.splitOnP_eq_singleton h]
  exact List.filter_cons_of_pos (by simpa using hne)

/-- **A text without blanks joins the last word** of a text that ends in one. -/
theorem exists_words_append {s : List Char} (h : Text.EndsInk s) :
    ∃ before last, words s = before ++ [last] ∧
      ∀ t, (∀ c ∈ t, Text.isBlank c = false) → words (s ++ t) = before ++ [last ++ t] := by
  obtain ⟨front, final, rfl, hfinal⟩ := h
  -- the last word begins behind the last blank
  let ink : Char → Bool := fun c => !Text.isBlank c
  have hcut : front.rdropWhile ink ++ front.rtakeWhile ink = front :=
    List.rdropWhile_append_rtakeWhile
  generalize hrun : front.rtakeWhile ink = run at hcut
  generalize hleft : front.rdropWhile ink = left at hcut
  have hlast : ∀ t, (∀ c ∈ t, Text.isBlank c = false) →
      words (run ++ [final] ++ t) = [run ++ [final] ++ t] := by
    intro t ht
    refine words_of_forall (by simp) fun c hc => ?_
    rw [List.mem_append, List.mem_append, List.mem_singleton] at hc
    rcases hc with (hc | rfl) | hc
    · have hink : ink c = true := List.mem_rtakeWhile_imp (hrun ▸ hc)
      simpa [ink] using hink
    · exact hfinal
    · exact ht c hc
  have hbefore : ∀ t, words (left ++ t) = words left ++ words t := by
    intro t
    rcases List.eq_nil_or_concat left with rfl | ⟨rest, c, rfl⟩
    · rfl
    · have hc : Text.isBlank c = true := by
        have hstop := List.rdropWhile_last_not ink front (by rw [hleft]; simp)
        simpa [hleft, ink] using hstop
      have hnone := words_append_cons hc rest []
      rw [List.concat_eq_append, List.append_assoc, List.singleton_append, words_append_cons hc,
        hnone, words_nil, List.append_nil]
  refine ⟨words left, run ++ [final], ?_, fun t ht => ?_⟩
  · have hnone := hlast [] (by simp)
    rw [← hcut, List.append_assoc, hbefore]
    rw [List.append_nil] at hnone
    rw [hnone]
  · rw [← hcut, List.append_assoc left, List.append_assoc left, hbefore, hlast t ht]

/-! ### Gluing -/

/-- The words of a text, glued together. -/
def glue (s : List Char) : List Char := Text.join ['_'] (words s)

theorem join_append_singleton {words : List (List Char)} (h : words ≠ []) (word : List Char) :
    Text.join ['_'] (words ++ [word]) = Text.join ['_'] words ++ '_' :: word := by
  induction words with
  | nil => exact absurd rfl h
  | cons w words ih =>
    cases words with
    | nil => simp [Text.join, List.intercalate_cons_cons]
    | cons v words =>
      have hrest := ih (List.cons_ne_nil v words)
      simp only [Text.join, List.cons_append, List.intercalate_cons_cons] at hrest ⊢
      rw [hrest]
      simp

/-- What is put behind the last word is put behind the glued text. -/
theorem join_append_last (words : List (List Char)) (last t : List Char) :
    Text.join ['_'] (words ++ [last ++ t]) = Text.join ['_'] (words ++ [last]) ++ t := by
  by_cases h : words = []
  · rw [h]
    simp [Text.join]
  · rw [join_append_singleton h, join_append_singleton h, List.append_assoc, List.cons_append]

theorem count_join {c : Char} (hc : c ≠ '_') (words : List (List Char)) :
    (Text.join ['_'] words).count c = words.flatten.count c := by
  induction words with
  | nil => rfl
  | cons w words ih =>
    cases words with
    | nil => simp [Text.join]
    | cons v words =>
      simp only [Text.join, List.intercalate_cons_cons, List.count_append, List.flatten_cons]
        at ih ⊢
      rw [ih, List.count_cons_of_ne hc.symm, List.count_nil, Nat.add_zero]

/-- Words hold all characters of the text but the blanks. -/
theorem flatten_words (s : List Char) : (words s).flatten = s.filter fun c => !Text.isBlank c := by
  have hempty : ∀ parts : List (List Char),
      (parts.filter fun part => !part.isEmpty).flatten = parts.flatten := by
    intro parts
    induction parts with
    | nil => rfl
    | cons part parts ih => cases part <;> simp [ih]
  rw [words, hempty]
  induction s with
  | nil => rfl
  | cons c s ih =>
    rw [List.splitOnP_cons_eq_if_modifyHead]
    by_cases hc : Text.isBlank c = true
    · rw [if_pos hc, List.filter_cons_of_neg (by simp [hc])]
      exact ih
    · rw [if_neg hc, List.filter_cons_of_pos (by simpa using hc), ← ih]
      obtain ⟨part, parts, hparts⟩ :=
        List.exists_cons_of_ne_nil (List.splitOnP_ne_nil Text.isBlank s)
      rw [hparts]
      rfl

/-- Words keep every character that is no blank. -/
theorem count_words {c : Char} (hblank : Text.isBlank c = false) (s : List Char) :
    (words s).flatten.count c = s.count c := by
  rw [flatten_words, List.count_filter]
  simpa using hblank

/-- Gluing keeps every character that is neither a blank nor the glue. -/
theorem count_glue {c : Char} (hblank : Text.isBlank c = false) (hc : c ≠ '_') (s : List Char) :
    (glue s).count c = s.count c := by
  rw [glue, count_join hc, count_words hblank]

theorem mem_glue_iff {c : Char} (hblank : Text.isBlank c = false) (hc : c ≠ '_') {s : List Char} :
    c ∈ glue s ↔ c ∈ s := by
  rw [← List.count_pos_iff, count_glue hblank hc, List.count_pos_iff]

/-- Only from no words nothing is glued. -/
theorem glue_eq_nil_iff (s : List Char) : glue s = [] ↔ words s = [] := by
  constructor
  · intro h
    cases hwords : words s with
    | nil => rfl
    | cons word others =>
      have hne : word ≠ [] := by
        have hmem : word ∈ words s := hwords ▸ List.mem_cons_self
        simpa using (List.mem_filter.1 hmem).2
      rw [glue, hwords] at h
      cases others with
      | nil => exact absurd (by simpa [Text.join] using h) hne
      | cons other others =>
        rw [Text.join, List.intercalate_cons_cons] at h
        simp at h
  · intro h
    rw [glue, h]
    rfl

end SchemaAudit.TypeName
