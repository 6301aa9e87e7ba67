import SchemaAudit.Proofs.Token.Closing

/-!
# What a step of the scanner sees

The tests that a step makes one after the other, as one case for each thing that may stand at the
start of a text.

* `Sees`, `sees_stepAt`: what stands there, with the step that is taken.
* `exists_step_take`: a token is taken in the same way in front of any text that starts like the one
  that followed, so that a step can be carried over to a text which was changed behind it.
-/

namespace SchemaAudit.Token

/-- What may stand at the start of a text, and the step that is taken there. -/
inductive Sees : Char → List Char → Step → Prop
  | blank {c : Char} {s : List Char} : Text.isBlank c = true → Sees c s (.skip s)
  | dashes {s : List Char} : Sees '-' ('-' :: s) (.skip (afterLine ('-' :: s)))
  | block {s : List Char} : Sees '/' ('*' :: s) (.skip (afterBlockComment s))
  | hash {s : List Char} : Sees '#' s (.skip (afterLine s))
  | minus {d : Char} {s : List Char} : Text.isDigit d = true → Sees '-' (d :: s)
      (.take (.number (String.ofList ('-' :: (numberTail false (d :: s)).1)))
        (numberTail false (d :: s)).2)
  | punctuation {c : Char} {t : Token} {s : List Char} : punctuation? c = some t →
      Sees c s (.take t s)
  | name {c close : Char} {s : List Char} : closing? c = some close → Sees c s
      (.take (.quoted (String.ofList (delimited close false s).1)) (delimited close false s).2)
  | literal {s : List Char} : Sees '\x27' s
      (.take (.literal (String.ofList (delimited '\x27' true s).1)) (delimited '\x27' true s).2)
  | digit {c : Char} {s : List Char} : Text.isDigit c = true → Sees c s
      (.take (.number (String.ofList (c :: (numberTail false s).1))) (numberTail false s).2)
  | word {c : Char} {s : List Char} : isWordStart c = true → Sees c s
      (.take (ofWord (c :: s.takeWhile isWordPart)) (s.dropWhile isWordPart))
  | symbol {c : Char} {s : List Char} : isSymbol c = true →
      (c = '-' → ∀ d ∈ s.head?, d ≠ '-' ∧ Text.isDigit d = false) →
      (c = '/' → ∀ d ∈ s.head?, d ≠ '*') → Sees c s (.take (.symbol c) s)

theorem sees_stepAt (c : Char) (s : List Char) : Sees c s (stepAt c s) := by
  unfold stepAt
  split
  · exact .blank ‹_›
  rename_i hblank
  split
  · rename_i hdash
    simp only [Bool.and_eq_true, decide_eq_true_eq, beq_iff_eq] at hdash
    obtain ⟨rfl, hs⟩ := hdash
    obtain ⟨s, rfl⟩ := List.head?_eq_some_iff.1 hs
    exact .dashes
  rename_i hdash
  split
  · rename_i hminus
    simp only [Bool.and_eq_true, decide_eq_true_eq] at hminus
    obtain ⟨rfl, hs⟩ := hminus
    cases s with
    | nil => cases hs
    | cons d s => exact .minus hs
  rename_i hminus
  split
  · rename_i hslash
    simp only [Bool.and_eq_true, decide_eq_true_eq, beq_iff_eq] at hslash
    obtain ⟨rfl, hs⟩ := hslash
    obtain ⟨s, rfl⟩ := List.head?_eq_some_iff.1 hs
    exact .block
  rename_i hslash
  split
  · rename_i hhash
    rw [hhash]
    exact .hash
  rename_i hhash
  split
  · exact .punctuation ‹_›
  rename_i hpunctuation
  split
  · exact .name ‹_›
  rename_i hclosing
  split
  · rename_i hquote
    rw [hquote]
    exact .literal
  rename_i hquote
  split
  · exact .digit ‹_›
  rename_i hdigit
  split
  · exact .word ‹_›
  rename_i hword
  refine .symbol ?_ ?_ ?_
  · simp [isSymbol, hblank, hword, hdigit, hpunctuation, hclosing, hquote, hhash]
  · rintro rfl d hd
    refine ⟨fun heq => hdash ?_, Bool.eq_false_iff.2 fun hdigit => hminus ?_⟩
    · simp [Option.mem_def.1 hd, heq]
    · simp [Option.mem_def.1 hd, hdigit]
  · rintro rfl d hd heq
    exact hslash (by simp [Option.mem_def.1 hd, heq])

theorem stepAt_of_closing? {c close : Char} (h : closing? c = some close) (s : List Char) :
    stepAt c s = .take (.quoted (String.ofList (delimited close false s).1))
      (delimited close false s).2 := by
  have hc : ['\x22', '\x60', '['].contains c = true := by
    refine List.contains_iff_mem.2 (Decidable.byContradiction fun hc => ?_)
    have hnone : closing? c = none := closing?_eq_none fun d hd e => hc (e ▸ hd)
    exact absurd (h.symm.trans hnone) (by simp)
  have hblank : Text.isBlank c = false := by
    have hall : ['\x22', '\x60', '['].all (fun d => !Text.isBlank d) = true := by decide
    simpa using List.all_eq_true.1 hall c (List.contains_iff_mem.1 hc)
  have hp : punctuation? c = none := punctuation?_eq_none (ne_of_class_of_all hc (by decide))
  have hne : ∀ d, ['\x22', '\x60', '['].contains d = false → c ≠ d := ne_of_class hc
  simp [stepAt, hblank, hne '-' (by decide), hne '/' (by decide), hne '#' (by decide), hp, h]

theorem stepAt_quote (s : List Char) : stepAt '\x27' s
    = .take (.literal (String.ofList (delimited '\x27' true s).1)) (delimited '\x27' true s).2 := by
  have hblank : Text.isBlank '\x27' = false := by decide
  have hp : punctuation? '\x27' = none := rfl
  have hc : closing? '\x27' = none := rfl
  simp [stepAt, hblank, hp, hc]

theorem stepAt_of_isSymbol {c : Char} {s : List Char} (h : isSymbol c = true)
    (hdash : c = '-' → ∀ d ∈ s.head?, d ≠ '-' ∧ Text.isDigit d = false)
    (hslash : c = '/' → ∀ d ∈ s.head?, d ≠ '*') : stepAt c s = .take (.symbol c) s := by
  simp only [isSymbol, Bool.and_eq_true, Bool.not_eq_true', Option.isNone_iff_eq_none,
    decide_eq_true_eq] at h
  obtain ⟨⟨⟨⟨⟨⟨hb, hw⟩, hd⟩, hp⟩, hc⟩, hq⟩, hh⟩ := h
  have hnoDash : (c = '-' && s.head? == some '-') = false := by
    refine Bool.eq_false_iff.2 fun hm => ?_
    simp only [Bool.and_eq_true, decide_eq_true_eq, beq_iff_eq] at hm
    exact (hdash hm.1 '-' hm.2).1 rfl
  have hnoMinus : (c = '-' && s.head?.any Text.isDigit) = false := by
    refine Bool.eq_false_iff.2 fun hm => ?_
    simp only [Bool.and_eq_true, decide_eq_true_eq, Option.any_eq_true] at hm
    obtain ⟨heq, d, hhead, hdigit⟩ := hm
    rw [(hdash heq d hhead).2] at hdigit
    cases hdigit
  have hnoBlock : (c = '/' && s.head? == some '*') = false := by
    refine Bool.eq_false_iff.2 fun hm => ?_
    simp only [Bool.and_eq_true, decide_eq_true_eq, beq_iff_eq] at hm
    exact hslash hm.1 '*' hm.2 rfl
  rw [stepAt, hb, hnoDash, hnoMinus, hnoBlock, hp, hc]
  simp [hh, hq, hd, hw]

/-- What is read between delimiters does not depend on what follows. -/
theorem exists_delimited_startsLike {close : Char} (hspace : close ≠ ' ') (hbreak : close ≠ '\n')
    (escapes : Bool) (s : List Char) :
    ∃ p, s = p ++ (delimited close escapes s).2 ∧
      ∀ t', StartsLike (delimited close escapes s).2 t' →
        delimited close escapes (p ++ t') = ((delimited close escapes s).1, t') := by
  cases hclosed : closed? close escapes s with
  | none =>
    rw [delimited_of_closed?_eq_none hclosed]
    refine ⟨s, (List.append_nil s).symm, fun t' ht => ?_⟩
    rw [ht.eq_nil, List.append_nil, ← delimited_of_closed?_eq_none hclosed]
  | some split =>
    obtain ⟨body, t⟩ := split
    obtain ⟨hbody, rfl, ht⟩ := isBody_of_closed? hclosed
    obtain ⟨v, hv⟩ := hbody.exists_delimited
    rw [hv t ht]
    refine ⟨body ++ [close], by simp, fun t' ht' => ?_⟩
    have hnext := ht'.not_class (p := fun c => c == close) (by simpa using hspace.symm)
      (by simpa using hbreak.symm) (by simpa using ht)
    have hfollows := hv t' (by simpa using hnext)
    simpa using hfollows

/-- **What is taken does not depend on what follows**, as far as it starts alike. -/
theorem exists_step_take {s t : List Char} {token : Token} (h : step s = .take token t) :
    ∃ p, s = p ++ t ∧ ∀ t', StartsLike t t' → step (p ++ t') = .take token t' := by
  cases s with
  | nil => cases h
  | cons c s =>
    have hview := sees_stepAt c s
    rw [show stepAt c s = .take token t from h] at hview
    cases hview with
    | @minus d s hd =>
      have hpoint : d ≠ '.' := ne_of_class hd '.' (by decide)
      obtain ⟨ds, hds⟩ : ∃ ds, (numberTail false (d :: s)).1 = d :: ds := by
        rw [numberTail, if_neg (by simp [hpoint]), if_pos hd]
        exact ⟨_, rfl⟩
      refine ⟨'-' :: (numberTail false (d :: s)).1, ?_, fun t' ht => ?_⟩
      · rw [List.cons_append, numberTail_append_self]
      · have htail := numberTail_startsLike ht
        rw [hds, List.cons_append] at htail
        rw [hds, List.cons_append, List.cons_append, step, stepAt_minus hd, htail]
    | punctuation hp => exact ⟨[c], rfl, fun t' _ => step_punctuation hp t'⟩
    | @name _ close _ hc =>
      have hclose : close ≠ ' ' ∧ close ≠ '\n' := by
        unfold closing? at hc
        repeat' split at hc
        all_goals cases hc
        all_goals decide
      obtain ⟨p, hp, hfollows⟩ := exists_delimited_startsLike hclose.1 hclose.2 false s
      refine ⟨c :: p, by rw [List.cons_append, ← hp], fun t' ht => ?_⟩
      rw [List.cons_append, step, stepAt_of_closing? hc, hfollows t' ht]
    | literal =>
      have hspace : '\x27' ≠ ' ' := by decide
      have hbreak : '\x27' ≠ '\n' := by decide
      obtain ⟨p, hp, hfollows⟩ := exists_delimited_startsLike hspace hbreak true s
      refine ⟨'\x27' :: p, by rw [List.cons_append, ← hp], fun t' ht => ?_⟩
      rw [List.cons_append, step, stepAt_quote, hfollows t' ht]
    | digit hc =>
      refine ⟨c :: (numberTail false s).1, ?_, fun t' ht => ?_⟩
      · rw [List.cons_append, numberTail_append_self]
      · rw [List.cons_append, step, stepAt_of_isDigit hc, numberTail_startsLike ht]
    | word hc =>
      refine ⟨c :: s.takeWhile isWordPart, ?_, fun t' ht => ?_⟩
      · rw [List.cons_append, List.takeWhile_append_dropWhile]
      · have hends := ht.not_class (by decide) (by decide)
          (Text.head?_dropWhile_eq_false isWordPart s)
        obtain ⟨htake, hdrop⟩ :=
          Text.takeWhile_dropWhile_append (List.all_eq_true.1 List.all_takeWhile) hends
        rw [List.cons_append, step, stepAt_of_isWordStart hc, htake, hdrop]
    | symbol hc hdash hslash =>
      refine ⟨[c], rfl, fun t' ht => stepAt_of_isSymbol hc (fun heq d hd => ?_) fun heq d hd => ?_⟩
      · have hnext := ht.not_class (p := fun d => d == '-' || Text.isDigit d) (by decide)
          (by decide) (fun d hd => by simpa using hdash heq d hd) d hd
        simpa using hnext
      · have hnext := ht.not_class (p := fun d => d == '*') (by decide) (by decide)
          (fun d hd => by simpa using hslash heq d hd) d hd
        simpa using hnext

end SchemaAudit.Token
