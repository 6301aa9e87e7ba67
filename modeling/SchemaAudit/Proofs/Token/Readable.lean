import SchemaAudit.Proofs.Token.View

/-!
# Tokens that are read are those that can be written

The tokens of any text are writable, so that they can be written again and read back. The other way
round, tokens are read back only if all of them are writable.

* `writable_of_step`: what a step takes is writable, by the cases of the step.
* `exists_map_token_scanFrom`: the tokens of a text are writable ones, and the end of input.
* `map_token_scan_write_eq_iff`: written tokens are read as they were exactly if all of them are
  writable.

Nothing is said here about the text: different texts may have the same tokens.
-/

namespace SchemaAudit.Token

/-! ### Words and numbers that are taken -/

theorem writable_ofWord {s : List Char} (h : isWordText s = true) : (ofWord s).Writable := by
  rw [ofWord]
  cases hk : Keyword.ofWord? s with
  | some k => exact writable_keyword k
  | none =>
    show isWordText (String.ofList s).toList = true ∧ Keyword.ofWord? (String.ofList s).toList = none
    rw [String.toList_ofList]
    exact ⟨h, hk⟩

theorem isWordText_takeWhile {c : Char} (h : isWordStart c = true) (rest : List Char) :
    isWordText (c :: rest.takeWhile isWordPart) = true := by
  rw [isWordText, h, Bool.true_and]
  exact List.all_takeWhile

/-- What is taken behind the first digit has digits only, and a point if none was seen before. -/
theorem numberTail_fst (seen : Bool) (s : List Char) :
    (numberTail seen s).1.all (fun c => Text.isDigit c || c = '.') = true
      ∧ (numberTail seen s).1.count '.' + seen.toNat ≤ 1 := by
  fun_induction numberTail seen s with
  | case1 seen => exact ⟨rfl, by cases seen <;> simp⟩
  | case2 seen c rest hpoint digits left htail ih =>
    simp only [Bool.and_eq_true, Bool.not_eq_true', decide_eq_true_eq] at hpoint
    obtain ⟨rfl, rfl⟩ := hpoint
    rw [htail] at ih
    obtain ⟨hall, hcount⟩ := ih
    refine ⟨by simpa using hall, ?_⟩
    rw [List.count_cons_self]
    simpa using hcount
  | case3 seen c rest hpoint hdigit digits left htail ih =>
    rw [htail] at ih
    obtain ⟨hall, hcount⟩ := ih
    have hne : c ≠ '.' := ne_of_class hdigit '.' (by decide)
    refine ⟨by simp [hdigit, hall], ?_⟩
    rwa [List.count_cons_of_ne hne]
  | case4 seen c rest hpoint hdigit => exact ⟨rfl, by cases seen <;> simp⟩

theorem isNumberTail_numberTail (s : List Char) : isNumberTail (numberTail false s).1 = true := by
  obtain ⟨hall, hcount⟩ := numberTail_fst false s
  simpa [isNumberTail, hall] using hcount

theorem isNumberText_cons {c : Char} {s : List Char} (hc : Text.isDigit c = true)
    (hs : isNumberTail s = true) : isNumberText (c :: s) = true := by
  have hminus : c ≠ '-' := ne_of_class hc '-' (by decide)
  cases s with
  | nil => exact hc
  | cons d s => rw [isNumberText, if_neg hminus, hc, hs, Bool.true_and]

theorem writable_number {s : List Char} (h : isNumberText s = true) :
    (number (String.ofList s)).Writable := by
  show isNumberText (String.ofList s).toList = true
  rwa [String.toList_ofList]

/-- A number with a sign: behind the sign comes a digit, as the look ahead has seen. -/
theorem isNumberText_minus {s : List Char} (h : s.head?.any Text.isDigit = true) :
    isNumberText ('-' :: (numberTail false s).1) = true := by
  cases s with
  | nil => exact absurd h (by simp)
  | cons d s =>
    have hd : Text.isDigit d = true := by simpa using h
    have hpoint : d ≠ '.' := ne_of_class hd '.' (by decide)
    rw [numberTail, if_neg (by simp [hpoint]), if_pos hd, isNumberText, if_pos rfl, hd,
      isNumberTail_numberTail, Bool.true_and]

/-! ### Steps -/

theorem writable_of_punctuation? {c : Char} {t : Token} (h : punctuation? c = some t) :
    t.Writable := by
  unfold punctuation? at h
  repeat' split at h
  all_goals cases h
  all_goals trivial

/-- **What a step takes is writable.** -/
theorem writable_of_stepAt {c : Char} {s rest : List Char} {t : Token}
    (h : stepAt c s = .take t rest) : t.Writable := by
  have hview := sees_stepAt c s
  rw [h] at hview
  cases hview with
  | minus hd => exact writable_number (isNumberText_minus (by simpa using hd))
  | punctuation hp => exact writable_of_punctuation? hp
  | name => exact writable_quoted _
  | literal => exact writable_literal _
  | digit hd => exact writable_number (isNumberText_cons hd (isNumberTail_numberTail s))
  | word hw => exact writable_ofWord (isWordText_takeWhile hw s)
  | symbol hc => exact hc

theorem writable_of_step {s rest : List Char} {t : Token} (h : step s = .take t rest) :
    t.Writable := by
  cases s with
  | nil => cases h
  | cons c s => exact writable_of_stepAt h

/-! ### Texts -/

/-- **The tokens of a text are writable**, up to the end of input, which closes them. -/
theorem exists_map_token_scanFrom (size : Nat) (s : List Char) :
    ∃ ts, (scanFrom size s).map Lexeme.token = ts ++ [.finish] ∧ ∀ t ∈ ts, t.Writable := by
  fun_induction scanFrom size s with
  | case1 s hstep => exact ⟨[], rfl, by simp⟩
  | case2 s rest hstep ih => exact ih
  | case3 s token rest hstep ih =>
    obtain ⟨ts, hts, hwritable⟩ := ih
    refine ⟨token :: ts, by rw [List.map_cons, hts]; rfl, ?_⟩
    exact List.forall_mem_cons.2 ⟨writable_of_step hstep, hwritable⟩

/-- **Tokens that are written with one space between neighbours are read as they were, exactly if
all of them are writable.** -/
theorem map_token_scan_write_eq_iff (ts : List Token) :
    (scan (write ts)).map Lexeme.token = ts ++ [.finish] ↔ ∀ t ∈ ts, t.Writable := by
  constructor
  · intro h
    obtain ⟨us, hus, hwritable⟩ := exists_map_token_scanFrom _ (write ts).toList
    have heq : us ++ [Token.finish] = ts ++ [.finish] := hus.symm.trans h
    obtain rfl : us = ts := List.append_cancel_right heq
    exact hwritable
  · exact map_token_scan_write

end SchemaAudit.Token
