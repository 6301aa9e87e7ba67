import Mathlib.Data.List.Infix
import SchemaAudit.Proofs.Dialect.CommentToken
import SchemaAudit.Proofs.Text.Collapse
import SchemaAudit.Proofs.Token.Restart

/-!
# Tokens of a text on one line

Joining the lines of a text makes its gaps shorter. Where nothing is quoted and no comment opens, the
scanner skips blanks only, and no token reaches into a gap; so a text has the same tokens on one
line. A gap never goes away between two characters, and so none of them come together that would
open a comment or put a dash to a number.

* `exists_ink_of_stepAt`: what is taken and not quoted holds no blanks.
* `Markless`: a text with neither quotes nor comments, in which a step skips one blank or takes
  characters that are none.
* `sameTokens_shorten`: gaps can be shortened, and left out at the ends.
* `map_token_scan_collapse`: a text on one line has the tokens of the text.
-/

namespace SchemaAudit

/-! ### Characters of tokens -/

set_option maxRecDepth 8000 in
theorem Text.isNumeral_of_isBlank {c : Char} (h : isBlank c = true) : isNumeral c = false :=
  covers_eq_false_of_codes (p := numerals.covers) (by decide) h

namespace Token

theorem isBlank_of_isWordPart {c : Char} (h : isWordPart c = true) : Text.isBlank c = false := by
  cases hc : Text.isBlank c with
  | false => rfl
  | true =>
    have hne : c ≠ '_' ∧ c ≠ '$' := ⟨ne_of_class hc '_' (by decide), ne_of_class hc '$' (by decide)⟩
    simp [isWordPart, Text.isLetter_of_isBlank hc, Text.isNumeral_of_isBlank hc, hne] at h

theorem isBlank_of_mem_numberTail {seen : Bool} {s : List Char} :
    ∀ c ∈ (numberTail seen s).1, Text.isBlank c = false := by
  intro c hc
  have hnumber := List.all_eq_true.1 (numberTail_fst seen s).1 c hc
  rw [Bool.or_eq_true] at hnumber
  rcases hnumber with hdigit | hpoint
  · exact Text.isBlank_of_isDigit hdigit
  · obtain rfl := of_decide_eq_true hpoint
    decide

theorem isBlank_of_punctuation? {c : Char} {t : Token} (h : punctuation? c = some t) :
    Text.isBlank c = false := by
  unfold punctuation? at h
  repeat' split at h
  all_goals
    cases h
  all_goals
    subst c
    decide

/-- **A token that is not quoted holds no blanks.** -/
theorem exists_ink_of_stepAt {c : Char} (hc : c ∉ ['\x27', '\x22', '\x60', '[']) {s t : List Char}
    {token : Token} (h : stepAt c s = .take token t) :
    ∃ p, c :: s = c :: p ++ t ∧ ∀ d ∈ c :: p, Text.isBlank d = false := by
  have hview := sees_stepAt c s
  rw [h] at hview
  cases hview with
  | @minus d s =>
    refine ⟨(numberTail false (d :: s)).1, ?_, ?_⟩
    · rw [List.cons_append, numberTail_append_self]
    · exact List.forall_mem_cons.2 ⟨by decide, isBlank_of_mem_numberTail⟩
  | punctuation hp => exact ⟨[], rfl, List.forall_mem_singleton.2 (isBlank_of_punctuation? hp)⟩
  | name hclosing =>
    rw [closing?_eq_none] at hclosing
    · cases hclosing
    · rintro d hd rfl
      exact hc (List.mem_cons_of_mem _ hd)
  | literal => exact absurd List.mem_cons_self hc
  | digit hdigit =>
    refine ⟨(numberTail false s).1, ?_, ?_⟩
    · rw [List.cons_append, numberTail_append_self]
    · exact List.forall_mem_cons.2 ⟨Text.isBlank_of_isDigit hdigit, isBlank_of_mem_numberTail⟩
  | word hword =>
    refine ⟨s.takeWhile isWordPart, ?_, ?_⟩
    · rw [List.cons_append, List.takeWhile_append_dropWhile]
    · refine List.forall_mem_cons.2 ⟨isBlank_of_isWordStart hword, fun d hd => ?_⟩
      exact isBlank_of_isWordPart (List.mem_takeWhile_imp hd)
  | symbol hsymbol =>
    refine ⟨[], rfl, List.forall_mem_singleton.2 ?_⟩
    simp only [isSymbol, Bool.and_eq_true, Bool.not_eq_true'] at hsymbol
    exact hsymbol.1.1.1.1.1.1

end Token

namespace Dialect

open Token (step stepAt scanFrom StartsLike)
open Text (shorten shorten_append shorten_blank shorten_true_blank)

/-! ### Texts without marks -/

/-- Nothing in the text is quoted, and nothing opens a comment. -/
structure Markless (s : List Char) : Prop where
  quotes : ∀ c ∈ s, c ∉ ['\x27', '\x22', '\x60', '[', '#']
  dashes : ¬['-', '-'] <:+: s
  stars : ¬['/', '*'] <:+: s

instance (s : List Char) : Decidable (Markless s) :=
  letI : Decidable (∀ c ∈ s, c ∉ ['\x27', '\x22', '\x60', '[', '#']) := List.decidableBAll _ s
  decidable_of_iff ((∀ c ∈ s, c ∉ ['\x27', '\x22', '\x60', '[', '#'])
      ∧ ¬['-', '-'] <:+: s ∧ ¬['/', '*'] <:+: s)
    ⟨fun ⟨h, h', h''⟩ => ⟨h, h', h''⟩, fun ⟨h, h', h''⟩ => ⟨h, h', h''⟩⟩

namespace Markless

variable {s t : List Char}

theorem of_isSuffix (h : Markless s) (hst : t <:+ s) : Markless t where
  quotes c hc := h.quotes c (hst.subset hc)
  dashes hm := h.dashes (hm.trans hst.isInfix)
  stars hm := h.stars (hm.trans hst.isInfix)

/-- Only blanks are skipped. -/
theorem exists_of_skip (h : Markless s) (hstep : step s = .skip t) :
    ∃ c, Text.isBlank c = true ∧ s = c :: t := by
  cases s with
  | nil => cases hstep
  | cons c s =>
    have hview := Token.sees_stepAt c s
    rw [show stepAt c s = .skip t from hstep] at hview
    cases hview with
    | blank hc => exact ⟨c, hc, rfl⟩
    | @dashes s => exact absurd (List.prefix_append ['-', '-'] s).isInfix h.dashes
    | @block s => exact absurd (List.prefix_append ['/', '*'] s).isInfix h.stars
    | hash => exact absurd (by decide) (h.quotes '#' List.mem_cons_self)

/-- What is taken holds no blanks, and is taken in the same way in front of all that starts like what
followed. -/
theorem exists_of_take (h : Markless s) {token : Token} (hstep : step s = .take token t) :
    ∃ p, s = p ++ t ∧ p ≠ [] ∧ (∀ c ∈ p, Text.isBlank c = false) ∧
      ∀ t', StartsLike t t' → step (p ++ t') = .take token t' := by
  obtain ⟨p, hp, hfollows⟩ := Token.exists_step_take hstep
  cases s with
  | nil => cases hstep
  | cons c s =>
    have hc : c ∉ ['\x27', '\x22', '\x60', '['] := fun hm =>
      h.quotes c List.mem_cons_self (List.mem_append_left ['#'] hm)
    obtain ⟨q, hq, hink⟩ := Token.exists_ink_of_stepAt hc hstep
    obtain rfl := List.append_cancel_right (hp.symm.trans hq)
    exact ⟨c :: q, hp, List.cons_ne_nil c q, hink, hfollows⟩

end Markless

/-! ### Shorter gaps -/

/-- What is left starts like the text, or with a space where a gap stood. -/
theorem startsLike_shorten (s : List Char) : StartsLike s (shorten false s) := by
  cases s with
  | nil => exact .inl rfl
  | cons c s =>
    by_cases hc : Text.isBlank c = true
    · refine .inr ⟨List.cons_ne_nil c s, fun d hd => ?_⟩
      rcases shorten_blank hc s with ⟨hnil, -⟩ | hspace
      · rw [hnil] at hd
        cases hd
      · rw [hspace] at hd
        exact .inl (Option.some.inj hd).symm
    · have hink : ∀ d ∈ [c], Text.isBlank d = false :=
        List.forall_mem_singleton.2 (by simpa using hc)
      have hkeeps : shorten false (c :: s) = c :: shorten false s :=
        shorten_append (List.cons_ne_nil c []) hink false s
      exact .inl (by rw [hkeeps]; rfl)

/-- A blank in front of a text changes no token. -/
theorem SameTokens.shorten_cons {c : Char} (hc : Text.isBlank c = true) {s : List Char}
    (h : SameTokens (shorten true s) s) (afterBlank : Bool) :
    SameTokens (shorten afterBlank (c :: s)) (c :: s) := by
  have hskip : ∀ {d : Char} (u : List Char), Text.isBlank d = true → step (d :: u) = .skip u :=
    fun u hd => by rw [step, stepAt, if_pos hd]
  cases afterBlank with
  | true =>
    rw [shorten_true_blank hc]
    exact .skip_right (hskip s hc) h
  | false =>
    rcases shorten_blank hc s with ⟨hnil, hrest⟩ | hspace
    · rw [hrest] at h
      rw [hnil]
      exact .skip_right (hskip s hc) h
    · rw [hspace]
      exact .skip (hskip _ (by decide)) (hskip s hc) h

/-- **A text with shorter gaps has the tokens of the text.** -/
theorem sameTokens_shorten {s : List Char} (h : Markless s) (afterBlank : Bool) :
    SameTokens (shorten afterBlank s) s := by
  -- along the steps of the scanner; a token ends where a gap begins, or in front of what stood there
  fun_induction scanFrom 0 s generalizing afterBlank with
  | case1 s hstep =>
    obtain rfl := Token.eq_nil_of_step hstep
    exact .refl []
  | case2 s rest hstep ih =>
    obtain ⟨c, hc, rfl⟩ := h.exists_of_skip hstep
    have hrest := ih (h.of_isSuffix (List.suffix_cons c rest)) true
    exact hrest.shorten_cons hc afterBlank
  | case3 s token rest hstep ih =>
    obtain ⟨p, rfl, hne, hink, hfollows⟩ := h.exists_of_take hstep
    have hrest := ih (h.of_isSuffix (List.suffix_append p rest)) false
    rw [shorten_append hne hink]
    exact .take (hfollows _ (startsLike_shorten rest)) hstep hrest

/-- **A text has the same tokens on one line**, if nothing in it is quoted and nothing opens a
comment. -/
theorem map_token_scan_collapse {text : String} (h : Markless text.toList) :
    (Token.scan (String.ofList (Text.collapse text.toList))).map Lexeme.token
      = (Token.scan text).map Lexeme.token := by
  have hsame := sameTokens_shorten h true
  rw [Token.scan, Token.scan, String.toList_ofList, Text.collapse_eq_shorten]
  exact hsame _ _

/-- Gaps of every kind, also between the characters of marks. -/
def gappedScript : String :=
  "\r\n\tt\u00a0(\n\n a\u2003int - - 1 ,\x0b b / * ] 5 . 2 );\u0085 \n"

theorem map_token_scan_collapse_gappedScript :
    Markless gappedScript.toList ∧
      (Token.scan (String.ofList (Text.collapse gappedScript.toList))).map Lexeme.token
        = (Token.scan gappedScript).map Lexeme.token := by
  have hmarkless : Markless gappedScript.toList := by decide
  exact ⟨hmarkless, map_token_scan_collapse hmarkless⟩

end Dialect

end SchemaAudit
