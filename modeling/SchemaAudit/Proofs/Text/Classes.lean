import SchemaAudit.Text.Classes

/-!
# Classes of characters that do not meet

A character belongs to one class only: a letter is neither blank nor one of the ten digits, and a
digit is not blank. Two classes are compared code by code over the ranges of the smaller one.
-/

namespace SchemaAudit.Text

theorem exists_range_of_covers {table : CodeTable} {code : Nat} (h : table.covers code = true) :
    ∃ range ∈ table, range.1 ≤ code ∧ code ≤ range.2 := by
  induction table with
  | nil => simp [CodeTable.covers] at h
  | cons range table ih =>
    obtain ⟨first, last⟩ := range
    simp only [CodeTable.covers] at h
    split at h
    · simp at h
    · split at h
      · exact ⟨(first, last), List.mem_cons_self, by omega, by assumption⟩
      · obtain ⟨r, hr, hle⟩ := ih h
        exact ⟨r, List.mem_cons_of_mem _ hr, hle⟩

/-- The codes of a range, one by one. -/
def codes (range : Nat × Nat) : List Nat := List.range' range.1 (range.2 + 1 - range.1)

/-- A class is apart from another if no code of its ranges belongs to the other. -/
theorem covers_eq_false_of_codes {table : CodeTable} {p : Nat → Bool}
    (h : ∀ range ∈ table, ∀ code ∈ codes range, p code = false) {code : Nat}
    (hc : table.covers code = true) : p code = false := by
  obtain ⟨range, hr, hfirst, hlast⟩ := exists_range_of_covers hc
  refine h range hr code (List.mem_range'_1.2 ⟨hfirst, ?_⟩)
  omega

theorem isLetter_of_isBlank {c : Char} (h : isBlank c = true) : isLetter c = false :=
  covers_eq_false_of_codes (p := letters.covers) (by decide +kernel) h

/-- The digits as a class of codes. -/
def digits : CodeTable := [(48, 57)]

theorem covers_digits {c : Char} (h : isDigit c = true) : digits.covers c.toNat = true := by
  simp only [isDigit, Bool.and_eq_true, decide_eq_true_eq] at h
  simp [digits, CodeTable.covers]
  omega

theorem isLetter_of_isDigit {c : Char} (h : isDigit c = true) : isLetter c = false :=
  covers_eq_false_of_codes (p := letters.covers) (by decide) (covers_digits h)

theorem isBlank_of_isDigit {c : Char} (h : isDigit c = true) : isBlank c = false :=
  covers_eq_false_of_codes (p := blanks.covers) (by decide) (covers_digits h)

/-- The letters from `A` to `Z` and from `a` to `z` as a class of codes. -/
def asciiLetters : CodeTable := [(65, 90), (97, 122)]

theorem covers_asciiLetters_iff {code : Nat} : asciiLetters.covers code = true
    ↔ (65 ≤ code ∧ code ≤ 90) ∨ (97 ≤ code ∧ code ≤ 122) := by
  simp only [asciiLetters, CodeTable.covers]
  repeat' split
  all_goals simp only [Bool.false_eq_true, true_iff, false_iff]
  all_goals omega

theorem isBlank_of_asciiLetters {c : Char} (h : asciiLetters.covers c.toNat = true) :
    isBlank c = false :=
  covers_eq_false_of_codes (p := blanks.covers) (by decide) h

/-- The digits, the letters from `A` to `Z` and from `a` to `z`, and the underscore. -/
def asciiWord : CodeTable := [(48, 57), (65, 90), (95, 95), (97, 122)]

theorem covers_asciiWord_of_asciiLetters {code : Nat} (h : asciiLetters.covers code = true) :
    asciiWord.covers code = true := by
  have hword : (!asciiWord.covers code) = false :=
    covers_eq_false_of_codes (p := fun code => !asciiWord.covers code) (by decide) h
  rwa [Bool.not_eq_false'] at hword

theorem isWordChar_of_asciiWord {c : Char} (h : asciiWord.covers c.toNat = true) :
    isWordChar c = true := by
  have hword : (!((letters.covers c.toNat || joiners.covers c.toNat) && !recent.covers c.toNat))
      = false :=
    covers_eq_false_of_codes
      (p := fun code => !((letters.covers code || joiners.covers code) && !recent.covers code))
      (by decide) h
  rwa [Bool.not_eq_false'] at hword

theorem isBlank_of_asciiWord {c : Char} (h : asciiWord.covers c.toNat = true) : isBlank c = false :=
  covers_eq_false_of_codes (p := blanks.covers) (by decide) h

theorem lt_of_asciiWord {c : Char} (h : asciiWord.covers c.toNat = true) : c.toNat < 128 := by
  obtain ⟨range, hr, -, hlast⟩ := exists_range_of_covers h
  have hall : ∀ range ∈ asciiWord, range.2 < 128 := by decide
  exact Nat.lt_of_le_of_lt hlast (hall range hr)

/-- The characters of a class, one by one. -/
def CodeTable.chars (table : CodeTable) : List Char := (table.flatMap codes).map Char.ofNat

theorem mem_chars {table : CodeTable} {c : Char} (h : table.covers c.toNat = true) :
    c ∈ table.chars := by
  obtain ⟨range, hr, hfirst, hlast⟩ := exists_range_of_covers h
  have hcode : c.toNat ∈ codes range := List.mem_range'_1.2 ⟨hfirst, by omega⟩
  exact List.mem_map.2 ⟨c.toNat, List.mem_flatMap.2 ⟨range, hr, hcode⟩, Char.ofNat_toNat c⟩

end SchemaAudit.Text
