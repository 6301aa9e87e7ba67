import SchemaAudit.Proofs.Text.Classes
import SchemaAudit.Proofs.Text.LetterCase
import SchemaAudit.Proofs.Text.Lines

/-!
# Lower case of texts in parts

The lower case of one letter depends on its neighbours: a sigma at the end of a word has a shape of
its own. A character that neither has a case nor is passed over by this rule ends a word, so that
the text before it and the text from it on are put in lower case one by one.

* `lowerAfter_append`: a text is cut in front of such a character.
* `trimEnd_toLower`: blanks at the end of a text can go before or after.
* `isLow_of_mem_lowerAfter`, `lowerAfter_of_isLow`: what has been put in lower case stays as it is.
-/

namespace SchemaAudit.Text

/-- A character that parts words. -/
def PartsWords (c : Char) : Prop := isCased c = false ∧ isCaseIgnorable c = false

theorem meetsCased_append {s t : List Char} (ht : ∀ c ∈ t.head?, PartsWords c) :
    meetsCased (s ++ t) = meetsCased s := by
  have hnil : meetsCased t = false := by
    cases t with
    | nil => rfl
    | cons c t =>
      obtain ⟨hcased, hignorable⟩ := ht c rfl
      rw [meetsCased, List.dropWhile_cons_of_neg (by simp [hignorable])]
      exact hcased
  unfold meetsCased at hnil ⊢
  rw [List.dropWhile_append]
  cases hs : s.dropWhile isCaseIgnorable with
  | nil => simpa using hnil
  | cons d s => simp

theorem lowerAfter_append {s t : List Char} (ht : ∀ c ∈ t.head?, PartsWords c) (before : List Char) :
    lowerAfter before (s ++ t) = lowerAfter before s ++ lowerAfter (s.reverse ++ before) t := by
  induction s generalizing before with
  | nil => rfl
  | cons c s ih =>
    rw [List.cons_append, lowerAfter, lowerAfter, meetsCased_append ht, ih, List.append_assoc,
      List.reverse_cons, List.append_assoc, List.singleton_append]

/-! ### Blanks -/

set_option maxRecDepth 8000 in
/-- A blank parts words and has no lower case of its own. -/
theorem partsWords_of_isBlank {c : Char} (h : isBlank c = true) : PartsWords c :=
  ⟨covers_eq_false_of_codes (p := cased.covers) (by decide) h,
    covers_eq_false_of_codes (p := caseIgnorable.covers) (by decide) h⟩

set_option maxRecDepth 8000 in
theorem lowerAfter_of_blanks {blanks : List Char} (h : ∀ c ∈ blanks, isBlank c = true)
    (before : List Char) : lowerAfter before blanks = blanks := by
  induction blanks generalizing before with
  | nil => rfl
  | cons c s ih =>
    obtain ⟨hc, hs⟩ := List.forall_mem_cons.1 h
    have hcode : (!(c.toNat != 931 && c.toNat != 304 && shiftCode lowerRuns c.toNat == c.toNat))
        = false :=
      covers_eq_false_of_codes
        (p := fun code => !(code != 931 && code != 304 && shiftCode lowerRuns code == code))
        (by decide) hc
    simp only [Bool.not_eq_false', Bool.and_eq_true, bne_iff_ne, beq_iff_eq] at hcode
    rw [lowerAfter, if_neg hcode.1.1, lowerChar, if_neg hcode.1.2, hcode.2, Char.ofNat_toNat,
      ih hs]
    rfl

/-- The codes that a run puts in the other case. -/
def CaseRun.Holds (run : CaseRun) (code : Nat) : Prop :=
  run.first ≤ code ∧ code ≤ run.last ∧ (code - run.first) % run.step = 0

/-- The other case of a code is the code itself, or a run says how far it is away. -/
theorem shiftCode_cases (runs : List CaseRun) (code : Nat) :
    shiftCode runs code = code
      ∨ ∃ run ∈ runs, run.Holds code ∧ shiftCode runs code = (code + run.shift).toNat := by
  induction runs with
  | nil => exact .inl rfl
  | cons run runs ih =>
    rw [shiftCode]
    split
    · exact .inl rfl
    · rename_i hfirst
      split
      · rename_i hrun
        simp only [Bool.and_eq_true, decide_eq_true_eq] at hrun
        exact .inr ⟨run, List.mem_cons_self, ⟨by omega, hrun⟩, rfl⟩
      · rcases ih with hsame | ⟨r, hr, hshift⟩
        · exact .inl hsame
        · exact .inr ⟨r, List.mem_cons_of_mem _ hr, hshift⟩

set_option maxRecDepth 8000 in
/-- No run leads to a blank. -/
theorem runs_apart : ∀ run ∈ lowerRuns, ∀ range ∈ blanks,
    (run.last + run.shift : Int) < range.1 ∨ (range.2 : Int) < run.first + run.shift := by
  decide

/-- A number that is no code point stands for the character with code 0. -/
theorem toNat_ofNat_eq_or (n : Nat) : (Char.ofNat n).toNat = n ∨ (Char.ofNat n).toNat = 0 := by
  by_cases h : n.isValidChar
  · rw [Char.ofNat, dif_pos h]
    exact .inl rfl
  · rw [Char.ofNat, dif_neg h]
    exact .inr rfl

theorem blanks_positive : ∀ range ∈ blanks, 0 < range.1 := by
  decide

/-- Only blanks have a blank as their lower case. -/
theorem isBlank_of_mem_lowerChar {c d : Char} (hc : isBlank c = false) (hd : d ∈ lowerChar c) :
    isBlank d = false := by
  rw [lowerChar] at hd
  split at hd
  · rw [List.mem_cons, List.mem_singleton] at hd
    rcases hd with rfl | rfl
    · decide
    · decide
  · rw [List.mem_singleton] at hd
    rcases shiftCode_cases lowerRuns c.toNat with hsame | ⟨run, hrun, ⟨hfirst, hlast, -⟩, hshift⟩
    · rw [hd, hsame, Char.ofNat_toNat]
      exact hc
    · rw [Bool.eq_false_iff]
      intro hblank
      obtain ⟨range, hrange, hlow, hhigh⟩ := exists_range_of_covers hblank
      have hapart := runs_apart run hrun range hrange
      have hpositive : 0 < range.1 := blanks_positive range hrange
      rw [hd, hshift] at hlow hhigh
      rcases toNat_ofNat_eq_or (c.toNat + run.shift).toNat with hcode | hcode
      · rw [hcode] at hlow hhigh
        omega
      · rw [hcode] at hlow
        omega

theorem exists_lowerAfter_append (before s t : List Char) :
    ∃ front, lowerAfter before (s ++ t) = front ++ lowerAfter (s.reverse ++ before) t := by
  induction s generalizing before with
  | nil => exact ⟨[], rfl⟩
  | cons c s ih =>
    obtain ⟨front, hfront⟩ := ih (c :: before)
    rw [List.cons_append, lowerAfter, hfront, ← List.append_assoc, List.reverse_cons,
      List.append_assoc s.reverse]
    exact ⟨_, rfl⟩

/-- A text that ends in no blank does so in lower case. -/
theorem EndsInk.toLower {s : List Char} (h : EndsInk s) : EndsInk (toLower s) := by
  obtain ⟨front, last, rfl, hlast⟩ := h
  obtain ⟨lowered, hlowered⟩ := exists_lowerAfter_append [] front [last]
  rw [Text.toLower, hlowered]
  apply EndsInk.append
  refine endsInk_of_forall ?_ fun d hd => ?_
  · rw [lowerAfter, lowerAfter, List.append_nil, lowerChar]
    split
    · exact List.cons_ne_nil _ _
    · split <;> exact List.cons_ne_nil _ _
  · rw [lowerAfter, lowerAfter, List.append_nil] at hd
    split at hd
    · rw [List.mem_singleton] at hd
      rw [hd]
      split <;> decide
    · exact isBlank_of_mem_lowerChar hlast hd

/-- **Blanks at the end of a text can go before or after it is put in lower case.** -/
theorem trimEnd_toLower (s : List Char) : trimEnd (toLower s) = toLower (trimEnd s) := by
  obtain ⟨blanks, hs, hblanks, hend⟩ := exists_trimEnd_append s
  have hparts : ∀ c ∈ blanks.head?, PartsWords c := fun c hc =>
    partsWords_of_isBlank (hblanks c (List.mem_of_mem_head? hc))
  have hlower : toLower s = toLower (trimEnd s) ++ blanks := by
    conv => lhs; rw [hs]
    rw [toLower, lowerAfter_append hparts, lowerAfter_of_blanks hblanks]
    rfl
  have hgone : trimEnd blanks = [] := List.rdropWhile_eq_nil_iff.2 hblanks
  rw [hlower]
  rcases hend with hnil | hink
  · rw [hnil]
    exact hgone
  · obtain ⟨front, last, hfront, hlast⟩ := hink.toLower
    rw [hfront, List.append_assoc, List.singleton_append, trimEnd_append_cons hlast, hgone]

/-! ### Blanks of ASCII texts -/

theorem isBlank_asciiLower (c : Char) : isBlank (asciiLower c) = isBlank c := by
  by_cases h : 65 ≤ c.toNat ∧ c.toNat ≤ 90
  · have hcode := toNat_asciiLower c
    rw [if_pos h] at hcode
    rw [isBlank_of_asciiLetters (covers_asciiLetters_iff.2 (by omega)),
      isBlank_of_asciiLetters (covers_asciiLetters_iff.2 (by omega))]
  · rw [asciiLower, if_neg (by simpa using h)]

theorem trimStart_map_asciiLower (s : List Char) :
    trimStart (s.map asciiLower) = (trimStart s).map asciiLower := by
  have hsame : isBlank ∘ asciiLower = isBlank := funext isBlank_asciiLower
  rw [trimStart, List.dropWhile_map, hsame]
  rfl

theorem trim_map_asciiLower (s : List Char) :
    trim (s.map asciiLower) = (trim s).map asciiLower := by
  have hend : ∀ t : List Char,
      trimEnd (t.map asciiLower) = (trimEnd t).map asciiLower := by
    intro t
    have hstart := trimStart_map_asciiLower t.reverse
    rw [trimEnd, ← List.map_reverse, ← trimStart, hstart, ← List.map_reverse]
    rfl
  rw [trim, trimStart_map_asciiLower, hend]
  rfl

/-! ### Lower case of lower case -/

/-- A character that is its own lower case wherever it stands. -/
def IsLow (c : Char) : Prop := c.toNat ≠ 931 ∧ lowerChar c = [c]

instance (c : Char) : Decidable (IsLow c) := by
  unfold IsLow
  infer_instance

theorem isLow_of_shiftCode {c : Char} (hdotted : c.toNat ≠ 304)
    (h : shiftCode lowerRuns c.toNat = c.toNat) : IsLow c := by
  refine ⟨fun hsigma => ?_, ?_⟩
  · rw [hsigma] at h
    exact absurd h (by decide)
  · rw [lowerChar, if_neg hdotted, h, Char.ofNat_toNat]

/-- Whether no run holds a code from `first` to `last`; where the flag is set, only every second of
these codes counts. The runs are in increasing order. -/
def missesRuns (first last : Nat) (sparse : Bool) : List CaseRun → Bool
  | [] => true
  | run :: runs =>
    last < run.first
      || (run.last < first || sparse && run.step == 2 && (first + run.first) % 2 == 1)
        && missesRuns first last sparse runs

theorem shiftCode_of_missesRuns {first last : Nat} {sparse : Bool} {runs : List CaseRun}
    (h : missesRuns first last sparse runs = true) {code : Nat} (hfirst : first ≤ code)
    (hlast : code ≤ last) (hsparse : sparse = true → (code - first) % 2 = 0) :
    shiftCode runs code = code := by
  induction runs with
  | nil => rfl
  | cons run runs ih =>
    simp only [missesRuns, Bool.or_eq_true, Bool.and_eq_true, decide_eq_true_eq, beq_iff_eq] at h
    rw [shiftCode]
    split
    · rfl
    · rename_i hlow
      obtain ⟨hrun, hruns⟩ := h.resolve_left (by omega)
      rw [if_neg, ih hruns]
      simp only [Bool.and_eq_true, decide_eq_true_eq, not_and]
      intro hhigh
      rcases hrun with hbefore | ⟨⟨hflag, hstep⟩, hodd⟩
      · omega
      · have heven := hsparse hflag
        rw [hstep]
        omega

/-- The codes to which a run leads are held by no run. -/
theorem runs_settle : ∀ run ∈ lowerRuns,
    missesRuns (run.first + run.shift).toNat (run.last + run.shift).toNat
      (run.step == 2 || run.first == run.last) lowerRuns = true := by
  decide +kernel

set_option maxRecDepth 8000 in
/-- No run leads to the capital I with a dot. -/
theorem dotted_apart : ∀ run ∈ lowerRuns, 0 ≤ run.first + run.shift
    ∧ ((run.last + run.shift : Int) < 304 ∨ 304 < run.first + run.shift) := by
  decide

theorem shiftCode_shift {run : CaseRun} (hrun : run ∈ lowerRuns) {code : Nat}
    (h : run.Holds code) :
    shiftCode lowerRuns (code + run.shift).toNat = (code + run.shift).toNat := by
  obtain ⟨hfirst, hlast, hstep⟩ := h
  obtain ⟨hpositive, -⟩ := dotted_apart run hrun
  refine shiftCode_of_missesRuns (runs_settle run hrun) (by omega) (by omega) fun hsparse => ?_
  rw [Bool.or_eq_true, beq_iff_eq, beq_iff_eq] at hsparse
  rcases hsparse with htwo | hone
  · rw [htwo] at hstep
    omega
  · omega

theorem isLow_of_mem_lowerChar {c d : Char} (hd : d ∈ lowerChar c) : IsLow d := by
  rw [lowerChar] at hd
  split at hd
  · rw [List.mem_cons, List.mem_singleton] at hd
    rcases hd with rfl | rfl
    · decide
    · decide
  · rename_i hdotted
    rw [List.mem_singleton] at hd
    rcases shiftCode_cases lowerRuns c.toNat with hsame | ⟨run, hrun, hcode, hshift⟩
    · rw [hsame, Char.ofNat_toNat] at hd
      exact hd ▸ isLow_of_shiftCode hdotted hsame
    · rw [hshift] at hd
      rcases toNat_ofNat_eq_or (c.toNat + run.shift).toNat with himage | hzero
      · rw [← hd] at himage
        refine isLow_of_shiftCode ?_ (by rw [himage, shiftCode_shift hrun hcode])
        obtain ⟨-, hapart⟩ := dotted_apart run hrun
        obtain ⟨hfirst, hlast, -⟩ := hcode
        omega
      · rw [← hd] at hzero
        exact isLow_of_shiftCode (by omega) (by rw [hzero]; decide)

/-- **What has been put in lower case is its own lower case.** -/
theorem isLow_of_mem_lowerAfter {before s : List Char} {d : Char} (hd : d ∈ lowerAfter before s) :
    IsLow d := by
  induction s generalizing before with
  | nil => cases hd
  | cons c s ih =>
    rw [lowerAfter, List.mem_append] at hd
    rcases hd with hfirst | hrest
    · split at hfirst
      · rw [List.mem_singleton] at hfirst
        rw [hfirst]
        split <;> decide
      · exact isLow_of_mem_lowerChar hfirst
    · exact ih hrest

theorem lowerAfter_of_isLow {s : List Char} (h : ∀ c ∈ s, IsLow c) (before : List Char) :
    lowerAfter before s = s := by
  induction s generalizing before with
  | nil => rfl
  | cons c s ih =>
    obtain ⟨⟨hsigma, hlow⟩, hs⟩ := List.forall_mem_cons.1 h
    rw [lowerAfter, if_neg hsigma, hlow, ih hs]
    rfl

end SchemaAudit.Text
