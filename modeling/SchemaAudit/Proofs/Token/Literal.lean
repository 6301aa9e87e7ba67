import SchemaAudit.Proofs.Token.View

/-!
# Literals of which only the quotes are doubled

The scanner takes a backslash in a literal for an escape. A text of which only the quotes are
doubled, as dialects without escapes have it, may therefore end at another quote than its last, or
not at all.

* `keepsQuotes`: no backslash takes a quote along.
* `closed?_doubled_iff`: exactly then the literal ends at its closing quote.
* `exists_step_literal`: it is then one token in front of anything.
* `exists_step_unclosed`: behind a backslash at the end of the literal everything is taken.
-/

namespace SchemaAudit.Token

/-- A backslash takes the character behind it along, and this is no quote. At the end of the text it
would take the closing quote. -/
def keepsQuotes : List Char → Bool
  | [] => true
  | c :: s =>
    if c = '\\' then
      match s with
      | [] => false
      | d :: t => d ≠ '\x27' && keepsQuotes t
    else keepsQuotes s

theorem doubled_cons_of_ne {c : Char} (h : c ≠ '\x27') (s : List Char) :
    doubled '\x27' false (c :: s) = c :: doubled '\x27' false s := by
  simp [doubled, h]

theorem doubled_append (close : Char) (escapes : Bool) (s t : List Char) :
    doubled close escapes (s ++ t) = doubled close escapes s ++ doubled close escapes t :=
  List.flatMap_append

/-- Behind a quote that stands alone, doubled quotes do not pair up. -/
theorem not_isBody_quote_doubled (s : List Char) :
    ¬IsBody '\x27' true ('\x27' :: doubled '\x27' false s) := by
  intro h
  induction s with
  | nil =>
    obtain ⟨-, t, ht, -⟩ | ⟨hc, -⟩ | ⟨hc, -⟩ := h.cons_cases
    · cases ht
    · exact absurd hc (by decide)
    · exact absurd rfl hc
  | cons c s ih =>
    obtain ⟨-, t, ht, hbody⟩ | ⟨hc, -⟩ | ⟨hc, -⟩ := h.cons_cases
    · by_cases hquote : c = '\x27'
      · subst hquote
        obtain ⟨-, rfl⟩ := List.cons.inj ht
        exact ih hbody
      · rw [doubled_cons_of_ne hquote] at ht
        exact hquote (List.cons.inj ht).1
    · exact absurd hc (by decide)
    · exact absurd rfl hc

/-- **With its quotes doubled a text is the body of a literal exactly if no backslash takes a quote
along.** -/
theorem isBody_doubled_iff (s : List Char) :
    IsBody '\x27' true (doubled '\x27' false s) ↔ keepsQuotes s = true := by
  fun_induction keepsQuotes s with
  | case1 => exact iff_of_true .nil rfl
  | case2 =>
    refine iff_of_false (fun h => ?_) Bool.false_ne_true
    obtain ⟨hc, -⟩ | ⟨-, -, d, t, ht, -⟩ | ⟨-, hescape, -⟩ := h.cons_cases
    · exact absurd hc (by decide)
    · cases ht
    · cases hescape
  | case3 d t ih =>
    rw [doubled_cons_of_ne (by decide), Bool.and_eq_true, decide_eq_true_eq, ← ih]
    by_cases hd : d = '\x27'
    · subst hd
      refine iff_of_false (fun h => ?_) fun h => h.1 rfl
      obtain ⟨hc, -⟩ | ⟨-, -, d, t', ht, hbody⟩ | ⟨-, hescape, -⟩ := h.cons_cases
      · exact absurd hc (by decide)
      · obtain ⟨-, rfl⟩ := List.cons.inj ht
        exact not_isBody_quote_doubled t hbody
      · cases hescape
    · rw [doubled_cons_of_ne hd]
      refine ⟨fun h => ⟨hd, ?_⟩, fun h => h.2.escaped rfl (by decide)⟩
      obtain ⟨hc, -⟩ | ⟨-, -, d', t', ht, hbody⟩ | ⟨-, hescape, -⟩ := h.cons_cases
      · exact absurd hc (by decide)
      · obtain ⟨-, rfl⟩ := List.cons.inj ht
        exact hbody
      · cases hescape
  | case4 c s hc ih =>
    rw [← ih]
    by_cases hquote : c = '\x27'
    · subst hquote
      refine ⟨fun h => ?_, fun h => h.double⟩
      obtain ⟨-, t, ht, hbody⟩ | ⟨hslash, -⟩ | ⟨hne, -⟩ := h.cons_cases
      · obtain ⟨-, rfl⟩ := List.cons.inj ht
        exact hbody
      · exact absurd hslash hc
      · exact absurd rfl hne
    · rw [doubled_cons_of_ne hquote]
      refine ⟨fun h => ?_, fun h => h.plain hquote (by simpa using hc)⟩
      obtain ⟨heq, -⟩ | ⟨hslash, -⟩ | ⟨-, -, hbody⟩ := h.cons_cases
      · exact absurd heq hquote
      · exact absurd hslash hc
      · exact hbody

/-- **Exactly then the literal ends at its closing quote.** -/
theorem closed?_doubled_iff (s : List Char) {t : List Char} (ht : ∀ c ∈ t.head?, c ≠ '\x27') :
    closed? '\x27' true (doubled '\x27' false s ++ '\x27' :: t)
      = some (doubled '\x27' false s, t) ↔ keepsQuotes s = true := by
  rw [← isBody_doubled_iff]
  refine ⟨fun h => (isBody_of_closed? h).1, fun h => ?_⟩
  rw [h.closed?_append, closed?_close ht]
  simp

/-- **A literal is one token in front of anything** but another quote. -/
theorem exists_step_literal {s : List Char} (h : keepsQuotes s = true) :
    ∃ value, ∀ t : List Char, (∀ c ∈ t.head?, c ≠ '\x27') →
      step ('\x27' :: (doubled '\x27' false s ++ '\x27' :: t)) = .take (.literal value) t := by
  obtain ⟨v, hv⟩ := ((isBody_doubled_iff s).2 h).exists_delimited
  refine ⟨String.ofList v, fun t ht => ?_⟩
  rw [step, stepAt_quote, hv t ht]

/-- A backslash at the end takes the closing quote along, and without another quote the literal goes
on to the end of all text. -/
theorem exists_step_unclosed {s t : List Char} (h : keepsQuotes s = true)
    (ht : t.all (fun c => c ≠ '\x27' && c ≠ '\\') = true) :
    ∃ value, step ('\x27' :: (doubled '\x27' false (s ++ ['\\']) ++ '\x27' :: t))
      = .take (.literal value) [] := by
  have htail : IsBody '\x27' true t := by
    induction t with
    | nil => exact .nil
    | cons c t ih =>
      simp only [List.all_cons, Bool.and_eq_true, decide_eq_true_eq] at ht
      exact (ih ht.2).plain ht.1.1 (by simpa using ht.1.2)
  have hbody : IsBody '\x27' true (doubled '\x27' false s ++ '\\' :: '\x27' :: t) :=
    ((isBody_doubled_iff s).2 h).append (htail.escaped rfl (by decide))
  have htext : doubled '\x27' false (s ++ ['\\']) ++ '\x27' :: t
      = doubled '\x27' false s ++ '\\' :: '\x27' :: t := by
    rw [doubled_append, List.append_assoc]
    rfl
  rw [htext, step, stepAt_quote, delimited_of_closed?_eq_none hbody.closed?_eq_none]
  exact ⟨_, rfl⟩

end SchemaAudit.Token
