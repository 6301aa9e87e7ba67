import SchemaAudit.Proofs.Text.Classes
import SchemaAudit.Proofs.Text.Search
import SchemaAudit.Token.Scan

/-!
# Written tokens are read back

Every token has a spelling. Tokens that are written one after another, with one space between
neighbours, are read back as they were, whatever text their names and literals hold.

* `spelling`, `write`: the text of a token and of a list of tokens. A double quote inside a quoted
  identifier is written twice, and so are quotes and backslashes inside a literal.
* `Writable`: the tokens that have a spelling of their own. A word must not spell a keyword, a
  symbol must not begin anything else.
* `delimited_doubled`: a doubled text ends at its closing delimiter and nowhere before.
* `step_spelling`: at a spelled token the next step takes that token and no more.
* `map_token_scanFrom_spellings`: the same for a list of tokens, by induction on the list.

The end of input is no token that can be written; it closes the tokens that are read.
-/

namespace SchemaAudit.Token

/-! ### Spellings -/

/-- A text in which the closing delimiter is written twice; backslashes too, if they escape. -/
def doubled (close : Char) (escapes : Bool) (s : List Char) : List Char :=
  s.flatMap fun c => if c = close || (escapes && c = '\\') then [c, c] else [c]

/-- The text of a token. -/
def spelling : Token → List Char
  | keyword k => k.spelling.toList
  | word s | number s => s.toList
  | quoted s => '\x22' :: (doubled '\x22' false s.toList ++ ['\x22'])
  | literal s => '\x27' :: (doubled '\x27' true s.toList ++ ['\x27'])
  | leftParen => ['(']
  | rightParen => [')']
  | comma => [',']
  | semicolon => [';']
  | dot => ['.']
  | symbol c => [c]
  | finish => []

/-- The text of some tokens, with one space between neighbours. -/
def write (ts : List Token) : String := String.ofList (Text.join [' '] (ts.map spelling))

/-- A letter or an underscore, and then letters, numerals, underscores and dollar signs. -/
def isWordText : List Char → Bool
  | [] => false
  | c :: rest => isWordStart c && rest.all isWordPart

/-- Digits, with one point among them or none. -/
def isNumberTail (s : List Char) : Bool :=
  s.all (fun c => Text.isDigit c || c = '.') && s.count '.' ≤ 1

/-- A digit, before which a minus sign may stand, and then digits with one point or none. -/
def isNumberText : List Char → Bool
  | [] => false
  | [c] => Text.isDigit c
  | c :: d :: rest =>
    if c = '-' then Text.isDigit d && isNumberTail rest
    else Text.isDigit c && isNumberTail (d :: rest)

/-- A character that begins no other token and is no blank. -/
def isSymbol (c : Char) : Bool :=
  !Text.isBlank c && !isWordStart c && !Text.isDigit c && (punctuation? c).isNone
    && (closing? c).isNone && c ≠ '\x27' && c ≠ '#'

/-- A token that is read back from its spelling. -/
def Writable : Token → Prop
  | word s => isWordText s.toList ∧ Keyword.ofWord? s.toList = none
  | number s => isNumberText s.toList
  | symbol c => isSymbol c
  | finish => False
  | _ => True

section Writable

variable (k : Keyword) (s : String)

@[simp] theorem writable_keyword : (keyword k).Writable := trivial
@[simp] theorem writable_quoted : (quoted s).Writable := trivial
@[simp] theorem writable_literal : (literal s).Writable := trivial
@[simp] theorem writable_leftParen : leftParen.Writable := trivial
@[simp] theorem writable_rightParen : rightParen.Writable := trivial
@[simp] theorem writable_comma : comma.Writable := trivial
@[simp] theorem writable_semicolon : semicolon.Writable := trivial

end Writable

/-! ### The first character of a token -/

/-- A class without letters and the underscore does not meet the first characters of words. -/
theorem eq_false_of_isWordStart {p : Char → Bool}
    (hletter : ∀ c, p c = true → Text.isLetter c = false) (hunderscore : p '_' = false) {c : Char}
    (h : isWordStart c = true) : p c = false := by
  cases hp : p c with
  | false => rfl
  | true =>
    have hne : c ≠ '_' := by
      rintro rfl
      rw [hunderscore] at hp
      exact absurd hp (by decide)
    simp [isWordStart, hletter c hp, hne] at h

theorem isBlank_of_isWordStart {c : Char} (h : isWordStart c = true) : Text.isBlank c = false :=
  eq_false_of_isWordStart (fun _ => Text.isLetter_of_isBlank) (by decide) h

theorem isDigit_of_isWordStart {c : Char} (h : isWordStart c = true) : Text.isDigit c = false :=
  eq_false_of_isWordStart (fun _ => Text.isLetter_of_isDigit) (by decide) h

/-- A character of a class is none of the characters outside of it. -/
theorem ne_of_class {p : Char → Bool} {c : Char} (h : p c = true) (d : Char)
    (hd : p d = false) : c ≠ d := by
  rintro rfl
  rw [h] at hd
  exact absurd hd (by decide)

theorem ne_of_class_of_all {p : Char → Bool} {c : Char} (h : p c = true) {ds : List Char}
    (hds : ds.all (fun d => !p d) = true) : ∀ d ∈ ds, c ≠ d := by
  intro d hd
  have hp := List.all_eq_true.1 hds d hd
  exact ne_of_class h d (by simpa using hp)

theorem punctuation?_eq_none {c : Char} (h : ∀ d ∈ ['(', ')', ',', ';', '.'], c ≠ d) :
    punctuation? c = none := by
  simp only [List.mem_cons, List.not_mem_nil, or_false, forall_eq_or_imp, forall_eq] at h
  simp [punctuation?, h]

theorem closing?_eq_none {c : Char} (h : ∀ d ∈ ['\x22', '\x60', '['], c ≠ d) :
    closing? c = none := by
  simp only [List.mem_cons, List.not_mem_nil, or_false, forall_eq_or_imp, forall_eq] at h
  simp [closing?, h]

theorem stepAt_of_isWordStart {c : Char} (h : isWordStart c = true) (rest : List Char) :
    stepAt c rest = .take (ofWord (c :: rest.takeWhile isWordPart)) (rest.dropWhile isWordPart) := by
  have hne : ∀ d, isWordStart d = false → c ≠ d := ne_of_class h
  have hp : punctuation? c = none := punctuation?_eq_none (ne_of_class_of_all h (by decide))
  have hc : closing? c = none := closing?_eq_none (ne_of_class_of_all h (by decide))
  simp [stepAt, isBlank_of_isWordStart h, isDigit_of_isWordStart h, hne '-' (by decide),
    hne '/' (by decide), hne '#' (by decide), hne '\x27' (by decide), hp, hc, h]

theorem stepAt_of_isDigit {c : Char} (h : Text.isDigit c = true) (rest : List Char) :
    stepAt c rest
      = .take (.number (String.ofList (c :: (numberTail false rest).1))) (numberTail false rest).2 := by
  have hne : ∀ d, Text.isDigit d = false → c ≠ d := ne_of_class h
  have hp : punctuation? c = none := punctuation?_eq_none (ne_of_class_of_all h (by decide))
  have hc : closing? c = none := closing?_eq_none (ne_of_class_of_all h (by decide))
  simp [stepAt, Text.isBlank_of_isDigit h, hne '-' (by decide), hne '/' (by decide),
    hne '#' (by decide), hne '\x27' (by decide), hp, hc, h]

theorem stepAt_minus {d : Char} (h : Text.isDigit d = true) (rest : List Char) :
    stepAt '-' (d :: rest)
      = .take (.number (String.ofList ('-' :: (numberTail false (d :: rest)).1)))
          (numberTail false (d :: rest)).2 := by
  have hd : d ≠ '-' := ne_of_class h '-' (by decide)
  have hb : Text.isBlank '-' = false := by decide
  simp [stepAt, hb, hd, h]

/-! ### What stands behind a token -/

/-- Nothing, or a space: what stands behind a written token. -/
def Parted (rest : List Char) : Prop := rest = [] ∨ ∃ more, rest = ' ' :: more

theorem Parted.head?_ne {rest : List Char} (h : Parted rest) {d : Char} (hd : d ≠ ' ') :
    ∀ c ∈ rest.head?, c ≠ d := by
  rcases h with rfl | ⟨more, rfl⟩
  · simp
  · simpa using hd.symm

theorem takeWhile_append_parted {p : Char → Bool} (hp : p ' ' = false) {s rest : List Char}
    (hs : s.all p = true) (hr : Parted rest) :
    (s ++ rest).takeWhile p = s ∧ (s ++ rest).dropWhile p = rest := by
  refine Text.takeWhile_dropWhile_append (List.all_eq_true.1 hs) ?_
  rcases hr with rfl | ⟨more, rfl⟩
  · simp
  · simp [hp]

theorem step_word {s : List Char} (h : isWordText s = true) {rest : List Char} (hr : Parted rest) :
    step (s ++ rest) = .take (ofWord s) rest := by
  cases s with
  | nil => simp [isWordText] at h
  | cons c s =>
    simp only [isWordText, Bool.and_eq_true] at h
    obtain ⟨htake, hdrop⟩ := takeWhile_append_parted (by decide) h.2 hr
    rw [List.cons_append, step, stepAt_of_isWordStart h.1, htake, hdrop]

/-! ### Numbers -/

theorem numberTail_append (seen : Bool) {s rest : List Char}
    (hs : s.all (fun c => Text.isDigit c || c = '.') = true)
    (hc : s.count '.' + seen.toNat ≤ 1) (hr : Parted rest) :
    numberTail seen (s ++ rest) = (s, rest) := by
  induction s generalizing seen with
  | nil =>
    rcases hr with rfl | ⟨more, rfl⟩
    · rfl
    · simp [numberTail, show Text.isDigit ' ' = false by decide]
  | cons c s ih =>
    simp only [List.all_cons, Bool.and_eq_true] at hs
    by_cases hp : c = '.'
    · subst hp
      have hseen : seen = false := by
        cases seen
        · rfl
        · simp at hc
      subst hseen
      rw [List.cons_append, numberTail, if_pos (by decide), ih true hs.2 (by simpa using hc)]
    · have hd : Text.isDigit c = true := by simpa [hp] using hs.1
      rw [List.count_cons_of_ne hp] at hc
      rw [List.cons_append, numberTail, if_neg (by simp [hp]), if_pos hd, ih seen hs.2 hc]

theorem numberTail_of_isNumberTail {s rest : List Char} (h : isNumberTail s = true)
    (hr : Parted rest) : numberTail false (s ++ rest) = (s, rest) := by
  simp only [isNumberTail, Bool.and_eq_true, decide_eq_true_eq] at h
  exact numberTail_append false h.1 (by simpa using h.2) hr

/-- A digit in front of digits with a point is still such a text. -/
theorem isNumberTail_cons {d : Char} {s : List Char} (hd : Text.isDigit d = true)
    (hs : isNumberTail s = true) : isNumberTail (d :: s) = true := by
  have hp : d ≠ '.' := ne_of_class hd '.' (by decide)
  simp only [isNumberTail, Bool.and_eq_true, List.all_cons, decide_eq_true_eq] at hs ⊢
  rw [List.count_cons_of_ne hp]
  exact ⟨⟨by simp [hd], hs.1⟩, hs.2⟩

theorem isNumberTail_of_digits {s : List Char} (h : ∀ c ∈ s, Text.isDigit c = true) :
    isNumberTail s = true := by
  induction s with
  | nil => rfl
  | cons c s ih =>
    exact isNumberTail_cons (h c List.mem_cons_self)
      (ih fun d hd => h d (List.mem_cons_of_mem _ hd))

/-- Digits alone are a number. -/
theorem isNumberText_of_digits {s : List Char} (hne : s ≠ [])
    (h : ∀ c ∈ s, Text.isDigit c = true) : isNumberText s = true := by
  match s, hne with
  | [c], _ => exact h c List.mem_cons_self
  | c :: d :: s, _ =>
    have hc := h c List.mem_cons_self
    have htail := isNumberTail_of_digits fun e he => h e (List.mem_cons_of_mem _ he)
    have hminus : c ≠ '-' := ne_of_class hc '-' (by decide)
    rw [isNumberText, if_neg hminus, hc, htail]
    rfl

theorem step_number {s : List Char} (h : isNumberText s = true) {rest : List Char}
    (hr : Parted rest) : step (s ++ rest) = .take (.number (String.ofList s)) rest := by
  match s, h with
  | [c], h =>
    have ht := numberTail_of_isNumberTail (show isNumberTail [] = true from rfl) hr
    rw [List.nil_append] at ht
    rw [List.cons_append, List.nil_append, step, stepAt_of_isDigit h, ht]
  | c :: d :: s, h =>
    simp only [isNumberText] at h
    split at h
    · rename_i hc
      rw [Bool.and_eq_true] at h
      have ht := numberTail_of_isNumberTail (isNumberTail_cons h.1 h.2) hr
      rw [List.cons_append] at ht
      rw [hc, List.cons_append, List.cons_append, step, stepAt_minus h.1, ht]
    · rw [Bool.and_eq_true] at h
      have ht := numberTail_of_isNumberTail h.2 hr
      rw [List.cons_append, step, stepAt_of_isDigit h.1, ht]

/-! ### Delimited texts -/

theorem delimited_cons_of_ne {close c : Char} {escapes : Bool} (hc : c ≠ close)
    (he : ¬(escapes && c = '\\') = true) (rest : List Char) :
    delimited close escapes (c :: rest)
      = (c :: (delimited close escapes rest).1, (delimited close escapes rest).2) := by
  rw [delimited.eq_def]
  simp only [if_neg hc, if_neg he]

/-- **A doubled text ends at its closing delimiter.** Inside it the delimiter only stands in pairs,
and behind it stands no further one. -/
theorem delimited_doubled (close : Char) (escapes : Bool) (hb : close ≠ '\\') (s : List Char)
    {rest : List Char} (hr : ∀ c ∈ rest.head?, c ≠ close) :
    delimited close escapes (doubled close escapes s ++ close :: rest) = (s, rest) := by
  induction s with
  | nil =>
    cases rest with
    | nil => simp [doubled, delimited]
    | cons c rest =>
      have hc : c ≠ close := hr c (by simp)
      simp [doubled, delimited, hc]
  | cons c s ih =>
    by_cases hc : c = close
    · subst hc
      have htext : doubled c escapes (c :: s) = c :: c :: doubled c escapes s := by
        simp [doubled]
      rw [htext, List.cons_append, List.cons_append, delimited, if_pos rfl]
      simp only [if_pos, ih]
    · by_cases he : (escapes && c = '\\') = true
      · have htext : doubled close escapes (c :: s) = c :: c :: doubled close escapes s := by
          simp only [doubled, List.flatMap_cons, he, Bool.or_true, if_pos]
          rfl
        have hslash : c = '\\' := of_decide_eq_true (Bool.and_eq_true_iff.1 he).2
        rw [htext, List.cons_append, List.cons_append, delimited, if_neg hc, if_pos he]
        simp only [ih, hslash]
        rfl
      · have htext : doubled close escapes (c :: s) = c :: doubled close escapes s := by
          simp only [doubled, List.flatMap_cons, he, hc]
          rfl
        rw [htext, List.cons_append, delimited_cons_of_ne hc he, ih]

/-! ### Tokens -/

theorem ofWord?_spelling (k : Keyword) : Keyword.ofWord? k.spelling.toList = some k := by
  cases k <;> decide

theorem isWordText_spelling (k : Keyword) : isWordText k.spelling.toList = true := by
  cases k <;> decide

theorem step_quoted (s : String) {rest : List Char} (hr : Parted rest) :
    step (spelling (quoted s) ++ rest) = .take (quoted s) rest := by
  have hbody := delimited_doubled '\x22' false (by decide) s.toList (hr.head?_ne (by decide))
  have htext : spelling (quoted s) ++ rest
      = '\x22' :: (doubled '\x22' false s.toList ++ '\x22' :: rest) := by
    simp [spelling]
  have hclose : closing? '\x22' = some '\x22' := rfl
  have hblank : Text.isBlank '\x22' = false := by decide
  have hpunctuation : punctuation? '\x22' = none := rfl
  rw [htext, step, stepAt, hblank, hpunctuation]
  simp [hclose, hbody]

theorem step_literal (s : String) {rest : List Char} (hr : Parted rest) :
    step (spelling (literal s) ++ rest) = .take (literal s) rest := by
  have hbody := delimited_doubled '\x27' true (by decide) s.toList (hr.head?_ne (by decide))
  have htext : spelling (literal s) ++ rest
      = '\x27' :: (doubled '\x27' true s.toList ++ '\x27' :: rest) := by
    simp [spelling]
  have hclose : closing? '\x27' = none := rfl
  have hblank : Text.isBlank '\x27' = false := by decide
  have hpunctuation : punctuation? '\x27' = none := rfl
  rw [htext, step, stepAt, hblank, hpunctuation]
  simp [hclose, hbody]

/-- A symbol is taken alone, also where a space stands behind it. -/
theorem step_symbol {c : Char} (h : isSymbol c = true) {rest : List Char} (hr : Parted rest) :
    step (c :: rest) = .take (symbol c) rest := by
  simp only [isSymbol, Bool.and_eq_true, Bool.not_eq_true', Option.isNone_iff_eq_none,
    decide_eq_true_eq] at h
  obtain ⟨⟨⟨⟨⟨⟨hb, hw⟩, hd⟩, hp⟩, hc⟩, hq⟩, hh⟩ := h
  have hnext : ∀ d : Char, d ≠ ' ' → rest.head? ≠ some d :=
    fun d hd hnext => hr.head?_ne hd d hnext rfl
  have hdigit : rest.head?.any Text.isDigit = false := by
    rcases hr with rfl | ⟨more, rfl⟩
    · rfl
    · exact (by decide : Text.isDigit ' ' = false)
  simp [step, stepAt, hb, hw, hd, hp, hc, hq, hh, hnext '-' (by decide), hnext '*' (by decide),
    hdigit]

theorem step_punctuation {c : Char} {t : Token} (h : punctuation? c = some t) (rest : List Char) :
    step (c :: rest) = .take t rest := by
  have hc : c ∈ ['(', ')', ',', ';', '.'] := by
    refine Decidable.byContradiction fun hc => ?_
    have hnone : punctuation? c = none := punctuation?_eq_none fun d hd e => hc (e ▸ hd)
    exact absurd (h.symm.trans hnone) (by simp)
  have hmarks : ['(', ')', ',', ';', '.'].contains c = true := List.contains_iff_mem.2 hc
  have hb : Text.isBlank c = false := by
    have hall : ['(', ')', ',', ';', '.'].all (fun d => !Text.isBlank d) = true := by decide
    simpa using List.all_eq_true.1 hall c hc
  have hne : ∀ d ∈ ['-', '/', '#'], c ≠ d := ne_of_class_of_all hmarks (by decide)
  simp only [List.mem_cons, List.not_mem_nil, or_false, forall_eq_or_imp, forall_eq] at hne
  simp [step, stepAt, hb, hne, h]

/-- **At a spelled token the next step takes that token**, if nothing or a space stands behind. -/
theorem step_spelling {t : Token} (h : t.Writable) {rest : List Char} (hr : Parted rest) :
    step (t.spelling ++ rest) = .take t rest := by
  cases t with
  | keyword k =>
    rw [spelling, step_word (isWordText_spelling k) hr, ofWord, ofWord?_spelling]
  | word s =>
    rw [spelling, step_word h.1 hr, ofWord, h.2, String.ofList_toList]
  | quoted s => exact step_quoted s hr
  | literal s => exact step_literal s hr
  | number s => rw [spelling, step_number h hr, String.ofList_toList]
  | symbol c => exact step_symbol h hr
  | leftParen => exact step_punctuation rfl rest
  | rightParen => exact step_punctuation rfl rest
  | comma => exact step_punctuation rfl rest
  | semicolon => exact step_punctuation rfl rest
  | dot => exact step_punctuation rfl rest
  | finish => exact h.elim

/-! ### Lists of tokens -/

theorem scanFrom_take {size : Nat} {s rest : List Char} {t : Token} (h : step s = .take t rest) :
    scanFrom size s = ⟨t, size - Text.byteSize s⟩ :: scanFrom size rest := by
  rw [scanFrom]
  split
  · rename_i hstep
    simp [h] at hstep
  · rename_i hstep
    simp [h] at hstep
  · rename_i hstep
    obtain ⟨rfl, rfl⟩ := Step.take.inj (h.symm.trans hstep)
    rfl

theorem scanFrom_skip {size : Nat} {s rest : List Char} (h : step s = .skip rest) :
    scanFrom size s = scanFrom size rest := by
  rw [scanFrom]
  split
  · rename_i hstep
    simp [h] at hstep
  · rename_i hstep
    obtain rfl := Step.skip.inj (h.symm.trans hstep)
    rfl
  · rename_i hstep
    simp [h] at hstep

theorem scanFrom_nil (size : Nat) : scanFrom size [] = [⟨.finish, size⟩] := by
  rw [scanFrom]
  rfl

theorem scanFrom_space (size : Nat) (s : List Char) :
    scanFrom size (' ' :: s) = scanFrom size s :=
  scanFrom_skip (by rw [step, stepAt, if_pos (by decide)])

/-- Tokens that are written with one space between neighbours are read as they were. -/
theorem map_token_scanFrom_spellings (size : Nat) {ts : List Token} (h : ∀ t ∈ ts, t.Writable) :
    (scanFrom size (Text.join [' '] (ts.map spelling))).map Lexeme.token = ts ++ [.finish] := by
  induction ts with
  | nil => simp [Text.join, scanFrom_nil]
  | cons t ts ih =>
    have ht := h t List.mem_cons_self
    have hrest := ih fun u hu => h u (List.mem_cons_of_mem _ hu)
    cases ts with
    | nil =>
      have hstep := step_spelling ht (.inl rfl : Parted [])
      rw [List.append_nil] at hstep
      rw [List.map_singleton, Text.join, List.intercalate_singleton, scanFrom_take hstep,
        scanFrom_nil]
      rfl
    | cons u ts =>
      have hstep := step_spelling ht (.inr ⟨Text.join [' '] ((u :: ts).map spelling), rfl⟩)
      have htext : Text.join [' '] ((t :: u :: ts).map spelling)
          = t.spelling ++ ' ' :: Text.join [' '] ((u :: ts).map spelling) := by
        simp [Text.join, List.intercalate_cons_cons]
      rw [htext, scanFrom_take hstep, scanFrom_space, List.map_cons, hrest]
      rfl

theorem map_token_scan_write {ts : List Token} (h : ∀ t ∈ ts, t.Writable) :
    (scan (write ts)).map Lexeme.token = ts ++ [.finish] := by
  rw [scan, write, String.toList_ofList]
  exact map_token_scanFrom_spellings _ h

end SchemaAudit.Token
