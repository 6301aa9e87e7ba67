import SchemaAudit.Text.LetterCase

/-!
# Letter case of ASCII texts

Below code 128 only the letters from `A` to `Z` have a lower case of their own.

* `lowerChar_of_ascii`: the lower case of one such character.
* `toLower_of_ascii`: a text of such characters is put in lower case character by character.
-/

namespace SchemaAudit.Text

theorem shiftCode_of_lt {run : CaseRun} {code : Nat} (h : code < run.first)
    (runs : List CaseRun) : shiftCode (run :: runs) code = code := by
  rw [shiftCode, if_pos h]

theorem shiftCode_lowerRuns_of_ascii {code : Nat} (h : code < 128) :
    shiftCode lowerRuns code = if 65 ≤ code ∧ code ≤ 90 then code + 32 else code := by
  have hsecond : code < 192 := by omega
  rw [lowerRuns, shiftCode]
  by_cases hlow : code < 65
  · rw [if_pos hlow, if_neg (by omega)]
  · rw [if_neg hlow]
    by_cases hup : code ≤ 90
    · rw [if_pos (by simp [hup, Nat.mod_one]), if_pos ⟨by omega, hup⟩]
      rfl
    · rw [if_neg (by simp [hup]), if_neg (by omega)]
      exact shiftCode_of_lt hsecond _

theorem toNat_asciiLower (c : Char) :
    (asciiLower c).toNat = if 65 ≤ c.toNat ∧ c.toNat ≤ 90 then c.toNat + 32 else c.toNat := by
  rw [asciiLower]
  by_cases h : 65 ≤ c.toNat ∧ c.toNat ≤ 90
  · have hvalid : (c.toNat + 32).isValidChar := Or.inl (by omega)
    rw [if_pos (by simpa using h), if_pos h, Char.ofNat, dif_pos hvalid]
    rfl
  · rw [if_neg (by simpa using h), if_neg h]

theorem lowerChar_of_ascii {c : Char} (h : c.toNat < 128) : lowerChar c = [asciiLower c] := by
  rw [lowerChar, if_neg (by omega), shiftCode_lowerRuns_of_ascii h, asciiLower]
  by_cases hc : 65 ≤ c.toNat ∧ c.toNat ≤ 90
  · rw [if_pos hc, if_pos (by simpa using hc)]
  · rw [if_neg hc, if_neg (by simpa using hc), Char.ofNat_toNat]

theorem lowerAfter_of_ascii (before : List Char) {s : List Char} (h : ∀ c ∈ s, c.toNat < 128) :
    lowerAfter before s = s.map asciiLower := by
  induction s generalizing before with
  | nil => rfl
  | cons c s ih =>
    have hc := h c List.mem_cons_self
    have hs := ih (c :: before) fun d hd => h d (List.mem_cons_of_mem _ hd)
    rw [lowerAfter, if_neg (by omega), lowerChar_of_ascii hc, hs]
    rfl

/-- **ASCII texts are put in lower case character by character.** -/
theorem toLower_of_ascii {s : List Char} (h : ∀ c ∈ s, c.toNat < 128) :
    toLower s = s.map asciiLower := lowerAfter_of_ascii [] h

/-- A character below code 128 that is no letter from `A` to `Z`. -/
def isLowAscii (c : Char) : Bool := c.toNat < 128 && asciiLower c == c

theorem toLower_of_isLowAscii {s : List Char} (h : s.all isLowAscii = true) : toLower s = s := by
  have hall : ∀ c ∈ s, c.toNat < 128 ∧ asciiLower c = c := by
    intro c hc
    simpa [isLowAscii] using List.all_eq_true.1 h c hc
  rw [toLower_of_ascii fun c hc => (hall c hc).1]
  conv => rhs; rw [← List.map_id s]
  exact List.map_congr_left fun c hc => (hall c hc).2

end SchemaAudit.Text
