import SchemaAudit.Proofs.Token.Readable

/-!
# Reading a text piece by piece

The tokens at the start of a text do not depend on what stands behind them, as long as it does not
go on with their last word.

* `Scans`: a piece of a text gives these tokens wherever it stands.
* `scans_punctuation`, `scans_word`, `Scans.cons_quoted`: the pieces of one token.
* `semicolon_not_mem_scanFrom`: a text without semicolons gives no token that ends a statement.
* `ScansBefore`: a piece of whole tokens, which gives them in front of a certain character only.
-/

namespace SchemaAudit.Token

/-- No character of a word stands first. -/
def EndsWord (t : List Char) : Prop := ∀ c ∈ t.head?, isWordPart c = false

theorem endsWord_cons {c : Char} (h : isWordPart c = false) (t : List Char) : EndsWord (c :: t) := by
  simpa [EndsWord] using h

theorem EndsWord.append {s t : List Char} (h : EndsWord s) (h' : EndsWord t) :
    EndsWord (s ++ t) := by
  cases s with
  | nil => exact h'
  | cons c s => exact h

/-- The piece gives the tokens wherever it stands, if what stands behind it ends a word. -/
def Scans (ts : List Token) (s : List Char) : Prop :=
  ∀ size t, EndsWord t →
    (scanFrom size (s ++ t)).map Lexeme.token = ts ++ (scanFrom size t).map Lexeme.token

namespace Scans

variable {ts us : List Token} {s t : List Char}

theorem nil : Scans [] [] := fun _ _ _ => rfl

theorem append (h : Scans ts s) (hends : EndsWord t) (h' : Scans us t) :
    Scans (ts ++ us) (s ++ t) := by
  intro size rest hrest
  rw [List.append_assoc, h size _ (hends.append hrest), h' size rest hrest, List.append_assoc]

/-- Pieces between which the same separator stands. -/
theorem join {α : Type} {tokens : α → List Token} {text : α → List Char} {xs : List α}
    (h : ∀ x ∈ xs, EndsWord (text x) ∧ Scans (tokens x) (text x)) (hends : EndsWord s)
    (hseparator : Scans ts s) :
    EndsWord (s.intercalate (xs.map text))
      ∧ Scans (ts.intercalate (xs.map tokens)) (s.intercalate (xs.map text)) := by
  induction xs with
  | nil => exact ⟨by simp [EndsWord], nil⟩
  | cons x xs ih =>
    obtain ⟨⟨hfirst, hscans⟩, hrest⟩ := List.forall_mem_cons.1 h
    obtain ⟨hmore, hall⟩ := ih hrest
    cases xs with
    | nil => simpa using ⟨hfirst, hscans⟩
    | cons y xs =>
      rw [List.map_cons, List.map_cons, List.map_cons, List.map_cons,
        List.intercalate_cons_cons, List.intercalate_cons_cons]
      refine ⟨(hfirst.append hends).append hmore, ?_⟩
      exact (hscans.append hends hseparator).append hmore hall

end Scans

theorem map_scanFrom_punctuation {c : Char} {t : Token} (h : punctuation? c = some t) (size : Nat)
    (rest : List Char) :
    (scanFrom size (c :: rest)).map Lexeme.token = t :: (scanFrom size rest).map Lexeme.token := by
  rw [scanFrom_take (step_punctuation h rest)]
  rfl

theorem map_scanFrom_spelling {t : Token} (ht : t.Writable) (size : Nat) (rest : List Char) :
    (scanFrom size (t.spelling ++ ' ' :: rest)).map Lexeme.token
      = t :: (scanFrom size rest).map Lexeme.token := by
  rw [scanFrom_take (step_spelling ht (.inr ⟨rest, rfl⟩)), List.map_cons, scanFrom_space]

/-- A token with a space behind it. -/
theorem Scans.cons_spelling {ts : List Token} {s : List Char} (h : Scans ts s) {t : Token}
    (ht : t.Writable) : Scans (t :: ts) (t.spelling ++ ' ' :: s) := by
  intro size rest hrest
  rw [List.append_assoc, List.cons_append, map_scanFrom_spelling ht, h size rest hrest]
  rfl

theorem scans_space : Scans [] [' '] := fun size rest _ =>
  congrArg (List.map Lexeme.token) (scanFrom_space size rest)

theorem Scans.cons_space {ts : List Token} {s : List Char} (h : Scans ts s) :
    Scans ts (' ' :: s) := by
  intro size rest hrest
  rw [List.cons_append, scanFrom_space, h size rest hrest]

theorem Scans.cons_punctuation {ts : List Token} {s : List Char} (h : Scans ts s) {c : Char}
    {t : Token} (ht : punctuation? c = some t) : Scans (t :: ts) (c :: s) := by
  intro size rest hrest
  rw [List.cons_append, map_scanFrom_punctuation ht, h size rest hrest]
  rfl

theorem scans_punctuation {c : Char} {t : Token} (h : punctuation? c = some t) : Scans [t] [c] :=
  Scans.nil.cons_punctuation h

theorem scans_word {s : List Char} (h : isWordText s = true) : Scans [ofWord s] s := by
  intro size rest hrest
  cases s with
  | nil => exact absurd h (by simp [isWordText])
  | cons c s =>
    simp only [isWordText, Bool.and_eq_true] at h
    obtain ⟨htake, hdrop⟩ := Text.takeWhile_dropWhile_append (List.all_eq_true.1 h.2) hrest
    have hstep : step (c :: s ++ rest) = .take (ofWord (c :: s)) rest := by
      rw [List.cons_append, step, stepAt_of_isWordStart h.1, htake, hdrop]
    rw [scanFrom_take hstep]
    rfl

theorem doubled_of_not_mem {close : Char} {s : List Char} (h : close ∉ s) :
    doubled close false s = s := by
  induction s with
  | nil => rfl
  | cons c s ih =>
    have hc : c ≠ close := fun heq => h (heq ▸ List.mem_cons_self)
    have hs := ih fun hm => h (List.mem_cons_of_mem c hm)
    rw [doubled, List.flatMap_cons, if_neg (by simp [hc])]
    exact congrArg (c :: ·) hs

/-- A name in double quotes with a space behind it. -/
theorem Scans.cons_quoted {ts : List Token} {s : List Char} (h : Scans ts s) {name : String}
    (hname : '\x22' ∉ name.toList) :
    Scans (quoted name :: ts) ('\x22' :: (name.toList ++ ['\x22']) ++ ' ' :: s) := by
  have hscans := h.cons_spelling (writable_quoted name)
  rwa [spelling, doubled_of_not_mem hname] at hscans

/-! ### Texts without semicolons -/

theorem delimited_isSuffix (close : Char) (escapes : Bool) (s : List Char) :
    (delimited close escapes s).2 <:+ s := by
  fun_induction delimited close escapes s <;>
    simp_all [List.suffix_cons_iff]

theorem numberTail_isSuffix (seen : Bool) (s : List Char) : (numberTail seen s).2 <:+ s := by
  fun_induction numberTail seen s <;> simp_all [List.suffix_cons_iff]

theorem afterBlockComment_isSuffix (s : List Char) : afterBlockComment s <:+ s := by
  fun_induction afterBlockComment s <;> simp_all [List.suffix_cons_iff]

/-- What a step leaves is the end of the text. -/
theorem isSuffix_of_stepAt {c : Char} {s rest : List Char} (h : (stepAt c s).rest? = some rest) :
    rest <:+ s := by
  have hview := sees_stepAt c s
  generalize stepAt c s = result at h hview
  cases hview with
  | blank => exact Option.some.inj h ▸ List.suffix_rfl
  | dashes => exact Option.some.inj h ▸ List.dropWhile_suffix _
  | block =>
    exact Option.some.inj h ▸ (afterBlockComment_isSuffix _).trans (List.suffix_cons _ _)
  | hash => exact Option.some.inj h ▸ List.dropWhile_suffix _
  | minus => exact Option.some.inj h ▸ numberTail_isSuffix false _
  | punctuation => exact Option.some.inj h ▸ List.suffix_rfl
  | name => exact Option.some.inj h ▸ delimited_isSuffix _ false s
  | literal => exact Option.some.inj h ▸ delimited_isSuffix _ true s
  | digit => exact Option.some.inj h ▸ numberTail_isSuffix false s
  | word => exact Option.some.inj h ▸ List.dropWhile_suffix _
  | symbol => exact Option.some.inj h ▸ List.suffix_rfl

theorem ofWord_ne_semicolon (s : List Char) : ofWord s ≠ semicolon := by
  rw [ofWord]
  split <;> simp

theorem eq_of_punctuation?_semicolon {c : Char} (h : punctuation? c = some semicolon) :
    c = ';' := by
  unfold punctuation? at h
  repeat' split at h
  all_goals simp_all

theorem eq_of_stepAt_semicolon {c : Char} {s rest : List Char}
    (h : stepAt c s = .take semicolon rest) : c = ';' := by
  have hview := sees_stepAt c s
  generalize stepAt c s = result at h hview
  cases hview with
  | punctuation hp => exact eq_of_punctuation?_semicolon ((Step.take.inj h).1 ▸ hp)
  | word => exact absurd (Step.take.inj h).1 (ofWord_ne_semicolon _)
  | _ => cases h

theorem isSuffix_of_step {s rest : List Char} (h : (step s).rest? = some rest) : rest <:+ s := by
  cases s with
  | nil => exact absurd h (by simp [step, Step.rest?])
  | cons c s => exact (isSuffix_of_stepAt h).trans (List.suffix_cons c s)

/-- **A text without semicolons gives no token that ends a statement.** -/
theorem semicolon_not_mem_scanFrom {s : List Char} (h : ';' ∉ s) (size : Nat) :
    semicolon ∉ (scanFrom size s).map Lexeme.token := by
  have hrest : ∀ {s rest : List Char}, ';' ∉ s → (step s).rest? = some rest → ';' ∉ rest :=
    fun hs hstep hm => hs ((isSuffix_of_step hstep).subset hm)
  fun_induction scanFrom size s with
  | case1 => simp
  | case2 s rest hstep ih => exact ih (hrest h (by rw [hstep]; rfl))
  | case3 s token rest hstep ih =>
    have htoken : token ≠ semicolon := by
      rintro rfl
      cases s with
      | nil => exact absurd hstep (by simp [step])
      | cons c s => exact h (eq_of_stepAt_semicolon hstep ▸ List.mem_cons_self)
    have hmore := ih (hrest h (by rw [hstep]; rfl))
    rw [List.map_cons, List.mem_cons, not_or]
    exact ⟨htoken.symm, hmore⟩

/-! ### Whole tokens -/

theorem ne_finish_of_step {s rest : List Char} {t : Token} (h : step s = .take t rest) :
    t ≠ finish := by
  rintro rfl
  exact writable_of_step h

/-- The end of input is the last lexeme, and no other one. -/
theorem count_finish_scanFrom (size : Nat) (s : List Char) :
    ((scanFrom size s).map Lexeme.token).count .finish = 1 := by
  fun_induction scanFrom size s with
  | case1 => rfl
  | case2 s rest hstep ih => exact ih
  | case3 s token rest hstep ih =>
    rw [List.map_cons, List.count_cons_of_ne (ne_finish_of_step hstep), ih]

/-- In front of the character `c`, the text is a sequence of whole tokens wherever it stands. -/
def ScansBefore (c : Char) (ts : List Token) (s : List Char) : Prop :=
  ∀ size t, (scanFrom size (s ++ c :: t)).map Lexeme.token
    = ts ++ (scanFrom size (c :: t)).map Lexeme.token

theorem Scans.before {ts : List Token} {s : List Char} (h : Scans ts s) {c : Char}
    (hc : isWordPart c = false) : ScansBefore c ts s :=
  fun size t => h size (c :: t) (endsWord_cons hc t)

theorem ScansBefore.finish_not_mem {c : Char} {ts : List Token} {s : List Char}
    (h : ScansBefore c ts s) : finish ∉ ts := by
  have hcount := congrArg (List.count finish) (h 0 [])
  rw [List.count_append, count_finish_scanFrom, count_finish_scanFrom] at hcount
  exact List.count_eq_zero.1 (by omega)

theorem ScansBefore.ends_no_statement {c : Char} {ts : List Token} {s : List Char}
    (h : ScansBefore c ts s) (hsemicolon : semicolon ∉ ts) :
    ∀ t ∈ ts, t ≠ semicolon ∧ t ≠ finish := by
  intro t ht
  refine ⟨?_, ?_⟩
  · rintro rfl
    exact hsemicolon ht
  · rintro rfl
    exact h.finish_not_mem ht

end SchemaAudit.Token
