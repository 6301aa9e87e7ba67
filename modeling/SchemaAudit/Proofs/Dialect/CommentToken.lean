import SchemaAudit.Proofs.Dialect.CommentPiece
import SchemaAudit.Proofs.Token.Readable

/-!
# Tokens of a text without its comments

Comments are found twice, by the pattern that drops them from a dump and by the scanner that skips
them. Both go over the text from left to right, and both pass over quoted texts; where they are at
the same place, one step of the scanner gives the same token in the text and in what the pattern
leaves of it. They part where the scanner reads more than the pattern knows of.

* `SameTokens`: the scanner reads the same in two texts.
* `fits`: the pattern leaves what the scanner reads at one place; `agrees`: it does at every place
  up to one behind which there is nothing to drop.
* `sameTokens_step`: one step, by what the scanner sees.
* `map_token_scan_rewrite_comment`: the tokens of a text on which both agree are kept.
-/

namespace SchemaAudit.Dialect

open Pattern
open Token (scanFrom step stepAt closed? closing? delimited numberTail afterLine)

/-! ### Texts with the same tokens -/

/-- The scanner reads the same tokens in both texts. -/
def SameTokens (s' s : List Char) : Prop :=
  ∀ size' size, (scanFrom size' s').map Lexeme.token = (scanFrom size s).map Lexeme.token

namespace SameTokens

variable {s s' t t' : List Char}

theorem refl (s : List Char) : SameTokens s s := by
  intro size' size
  fun_induction scanFrom size s with
  | case1 s hstep =>
    cases s with
    | nil =>
      rw [Token.scanFrom_nil]
      rfl
    | cons c s =>
      have hview := Token.sees_stepAt c s
      rw [show stepAt c s = .finish from hstep] at hview
      cases hview
  | case2 s rest hstep ih => rw [Token.scanFrom_skip hstep, ih]
  | case3 s token rest hstep ih =>
    rw [Token.scanFrom_take hstep, List.map_cons, List.map_cons, ih]

theorem take {token : Token} (h' : step s' = .take token t') (h : step s = .take token t)
    (hrest : SameTokens t' t) : SameTokens s' s := by
  intro size' size
  rw [Token.scanFrom_take h', Token.scanFrom_take h, List.map_cons, List.map_cons, hrest size' size]

theorem skip (h' : step s' = .skip t') (h : step s = .skip t) (hrest : SameTokens t' t) :
    SameTokens s' s := by
  intro size' size
  rw [Token.scanFrom_skip h', Token.scanFrom_skip h, hrest size' size]

theorem skip_right (h : step s = .skip t) (hrest : SameTokens s' t) : SameTokens s' s := by
  intro size' size
  rw [Token.scanFrom_skip h, hrest size' size]

theorem skip_left (h' : step s' = .skip t') (hrest : SameTokens t' s) : SameTokens s' s := by
  intro size' size
  rw [Token.scanFrom_skip h', hrest size' size]

end SameTokens

/-! ### Where both agree -/

/-- Characters from which on the pattern reads a quoted text. -/
def isQuote (c : Char) : Bool := (['\x27', '\x22', '\x60'] : List Char).contains c

theorem not_mem_quotes_of_any {p : List Char} (h : p.any isQuote = false) :
    ∀ c ∈ p, c ∉ ['\x27', '\x22', '\x60'] := by
  intro c hc hquote
  have hany : p.any isQuote = true := List.any_eq_true.2 ⟨c, hc, List.contains_iff_mem.2 hquote⟩
  rw [h] at hany
  cases hany

/-- Whether the pattern leaves what the scanner reads from the character `c` on. The pattern knows
nothing of brackets, of line breaks behind a backslash, and of a hash that does not stand at the
start of a line; the scanner does not mind if a delimiter is missing. -/
def fits (c : Char) (s : List Char) : Bool :=
  if c = '\x27' then
    match closed? '\x27' true s with
    | none => false
    | some (body, _) => !decide (['\\', '\n'] <:+: body)
  else if c = '[' then
    match closed? ']' false s with
    | none => false
    | some (body, _) => !body.any isQuote && decide (Unmarked false (body ++ [']']))
  else if c = '\x22' || c = '\x60' then (closed? c false s).isSome
  else if c = '#' then
    let line := s.takeWhile (· ≠ '\n')
    !line.any isQuote && !decide (['/', '*'] <:+: line)
  else true

theorem exists_of_fits_literal {s : List Char} (h : fits '\x27' s = true) :
    ∃ body t, closed? '\x27' true s = some (body, t) ∧ ¬['\\', '\n'] <:+: body := by
  rw [fits, if_pos rfl] at h
  split at h
  · cases h
  · rename_i body t hclosed
    exact ⟨body, t, hclosed, by simpa using h⟩

theorem exists_of_fits_bracket {s : List Char} (h : fits '[' s = true) :
    ∃ body t, closed? ']' false s = some (body, t) ∧ body.any isQuote = false
      ∧ Unmarked false (body ++ [']']) := by
  rw [fits, if_neg (by decide), if_pos rfl] at h
  split at h
  · cases h
  · rename_i body t hclosed
    rw [Bool.and_eq_true, Bool.not_eq_true', decide_eq_true_eq] at h
    exact ⟨body, t, hclosed, h⟩

theorem exists_of_fits_quote {c : Char} {s : List Char} (hc : c = '\x22' ∨ c = '\x60')
    (h : fits c s = true) : ∃ body t, closed? c false s = some (body, t) := by
  have hsome : (closed? c false s).isSome = true := by
    rcases hc with rfl | rfl <;> simpa [fits] using h
  obtain ⟨⟨body, t⟩, hclosed⟩ := Option.isSome_iff_exists.1 hsome
  exact ⟨body, t, hclosed⟩

/-- Whether pattern and scanner agree from each step of the scanner to the next, up to a place behind
which the pattern finds nothing to drop. The flag says that the text starts a line. -/
def agrees (fresh : Bool) (s : List Char) : Bool :=
  decide (Unmarked fresh s) ||
  match s with
  | [] => true
  | c :: rest =>
    if fresh && startsHash (c :: rest) then agrees false (afterLine rest)
    else fits c rest &&
      match _h : (stepAt c rest).rest? with
      | none => true
      | some t => agrees (c = '\n') t
termination_by s.length
decreasing_by
  · exact Nat.lt_succ_of_le (Token.dropWhile_length_le _ _)
  · exact Nat.lt_succ_of_le (Token.stepAt_rest_length_le _h)

/-! ### One step -/

/-- The character in front does not end a line. -/
def Inside (before : Option Char) : Prop := before.all (· = '\n') = false

theorem inside_some {c : Char} (h : c ≠ '\n') : Inside (some c) := by simpa [Inside] using h

theorem inside_behind {p : List Char} (hne : p ≠ []) (hp : '\n' ∉ p) (before : Option Char) :
    Inside (behind before p) := by
  rw [behind_eq_getLast?]
  cases h : p.getLast? with
  | none => exact absurd (List.getLast?_eq_none_iff.1 h) hne
  | some d => exact inside_some fun heq => hp (heq ▸ List.mem_of_getLast? h)

/-- What is taken by the scanner and left by the pattern is taken from both texts. -/
theorem sameTokens_of_take {before : Option Char} {p t : List Char} {token : Token}
    (h : step (p ++ t) = .take token t) {b : Option Char}
    (hkeeps : comment.rewriteBehind before (p ++ t) = p ++ comment.rewriteBehind b t)
    (hrest : SameTokens (comment.rewriteBehind b t) t) :
    SameTokens (comment.rewriteBehind before (p ++ t)) (p ++ t) := by
  obtain ⟨q, hq, htake⟩ := Token.exists_step_take h
  obtain rfl := List.append_cancel_right hq
  rw [hkeeps]
  exact .take (htake _ (startsLike_rewriteBehind b t)) h hrest

theorem isPlain_of_class {f : Char → Bool} {c : Char} (h : f c = true)
    (hf : (['\x27', '\x22', '\x60', '/', '-', '#', ' ', '\t'] : List Char).all (fun d => !f d)
      = true) : isPlain c = true := by
  have hne := Token.ne_of_class_of_all h hf
  simp only [List.mem_cons, List.not_mem_nil, or_false, forall_eq_or_imp, forall_eq] at hne
  simp [isPlain, isIndent, hne]

section Steps

variable {before : Option Char} {c : Char} {s t : List Char}

/-- A text of characters with which no comment and no quoted text begins. -/
theorem sameTokens_of_plain {token : Token} {p : List Char} (h : step (p ++ t) = .take token t)
    (hne : p ≠ []) (hp : p.all isPlain = true) (hbreak : '\n' ∉ p)
    (ih : ∀ b, Inside b → SameTokens (comment.rewriteBehind b t) t) :
    SameTokens (comment.rewriteBehind before (p ++ t)) (p ++ t) :=
  sameTokens_of_take h (rewriteBehind_plain hp before t) (ih _ (inside_behind hne hbreak before))

theorem misses_comment_of_startsHash {x : List Char} (hquote : c ∉ ['\x27', '\x22', '\x60'])
    (hslash : c = '/' → x.head? ≠ some '*') (hdash : c = '-' → x.head? ≠ some '-')
    (hhash : (before.all (· = '\n') && startsHash (c :: x)) = false) :
    comment.Misses ⟨before, c :: x⟩ := by
  refine misses_comment hquote hslash hdash fun hline indent u hindent htext => ?_
  rw [hline, startsHash_iff.2 ⟨indent, u, hindent, htext⟩] at hhash
  cases hhash

theorem sameTokens_blank (hc : Text.isBlank c = true)
    (hhash : (before.all (· = '\n') && startsHash (c :: s)) = false)
    (ih : SameTokens (comment.rewriteBehind (some c) s) s) :
    SameTokens (comment.rewriteBehind before (c :: s)) (c :: s) := by
  have hne := Token.ne_of_class hc
  have hstep : ∀ u, step (c :: u) = .skip u := fun u => by rw [step, stepAt, if_pos hc]
  have hquote : c ∉ ['\x27', '\x22', '\x60'] := by
    simp [hne '\x27' (by decide), hne '\x22' (by decide), hne '\x60' (by decide)]
  have hmisses := misses_comment_of_startsHash hquote (fun h => absurd h (hne '/' (by decide)))
    (fun h => absurd h (hne '-' (by decide))) hhash
  rw [rewriteBehind_of_misses isLocal_comment hmisses]
  exact .skip (hstep _) (hstep s) ih

theorem sameTokens_dashes (ih : SameTokens (comment.rewriteBehind (some '-') (afterLine s))
      (afterLine s)) :
    SameTokens (comment.rewriteBehind before ('-' :: '-' :: s)) ('-' :: '-' :: s) := by
  obtain ⟨u, q, rfl, hu, hq⟩ := exists_line s
  have hline : '\n' ∉ '-' :: u := by simpa using hu
  have hafter : afterLine ('-' :: u ++ q) = q := afterLine_append hline hq
  have hstep : step ('-' :: '-' :: (u ++ q)) = .skip q := congrArg Token.Step.skip hafter
  rw [afterLine_append hu hq] at ih
  rw [rewriteBehind_dashes hu hq before (some '-')]
  exact .skip_right hstep ih

theorem SameTokens.indent_right {s' indent : List Char} (hindent : ∀ d ∈ indent, isIndent d = true)
    (h : SameTokens s' t) : SameTokens s' (indent ++ t) := by
  induction indent with
  | nil => exact h
  | cons d indent ih =>
    obtain ⟨hd, hmore⟩ := List.forall_mem_cons.1 hindent
    have hblank : Text.isBlank d = true := by
      rcases (by simpa [isIndent] using hd : d = ' ' ∨ d = '\t') with rfl | rfl <;> decide
    have hstep : step (d :: (indent ++ t)) = .skip (indent ++ t) := by
      rw [step, stepAt, if_pos hblank]
    exact .skip_right hstep (ih hmore)

theorem step_hash (s : List Char) : step ('#' :: s) = .skip (afterLine s) := rfl

theorem sameTokens_hashLine (hline : before.all (· = '\n') = true)
    (hstarts : startsHash (c :: s) = true)
    (ih : SameTokens (comment.rewriteBehind (some '#') (afterLine s)) (afterLine s)) :
    SameTokens (comment.rewriteBehind before (c :: s)) (c :: s) := by
  obtain ⟨indent, u, hindent, hu, hq, htext⟩ := exists_hashLine hstarts
  have hstep : step ('#' :: (u ++ afterLine s)) = .skip (afterLine s) := by
    rw [step_hash, afterLine_append hu hq]
  rw [htext, rewriteBehind_hash hindent hu hq hline (some '#')]
  exact .indent_right hindent (.skip_right hstep ih)

theorem sameTokens_block (ih : ∀ t, behindBlock s = some t →
      SameTokens (comment.rewriteBehind (some '/') t) t) :
    SameTokens (comment.rewriteBehind before ('/' :: '*' :: s)) ('/' :: '*' :: s) := by
  have hstep : ∀ u, step ('/' :: '*' :: u) = .skip (Token.afterBlockComment u) := fun _ => rfl
  cases hblock : behindBlock s with
  | some t =>
    have hafter : Token.afterBlockComment s = t := by rw [afterBlockComment_eq, hblock]; rfl
    have hspace : step (' ' :: comment.rewriteBehind (some '/') t)
        = .skip (comment.rewriteBehind (some '/') t) := by rw [step, stepAt, if_pos (by decide)]
    rw [rewriteBehind_block hblock]
    exact .skip hspace (hafter ▸ hstep s) (ih t hblock)
  | none =>
    -- without an end the comment goes on to the end of both texts
    have hclosed := not_starSlash_rewriteBehind (behindBlock_eq_none_iff.1 hblock) (some '*')
    have hleft := hstep (comment.rewriteBehind (some '*') s)
    have hright := hstep s
    rw [afterBlockComment_eq, behindBlock_eq_none_iff.2 hclosed] at hleft
    rw [afterBlockComment_eq, hblock] at hright
    rw [rewriteBehind_unclosed hblock]
    exact .skip hleft hright (.refl [])

/-- A hash that the pattern does not read as a comment. -/
theorem sameTokens_hash (hb : before.all (· = '\n') = false) (hfits : fits '#' s = true)
    (ih : SameTokens (comment.rewriteBehind (some '#') (afterLine s)) (afterLine s)) :
    SameTokens (comment.rewriteBehind before ('#' :: s)) ('#' :: s) := by
  obtain ⟨u, q, rfl, hu, hq⟩ := exists_line s
  have hline : (u ++ q).takeWhile (· ≠ '\n') = u := by
    refine (Text.takeWhile_dropWhile_append (fun d hd => ?_) fun d hd => ?_).1
    · simpa using fun heq : d = '\n' => hu (heq ▸ hd)
    · simp [hq d hd]
  simp only [fits, Char.reduceEq, if_false, if_true, hline, Bool.and_eq_true, Bool.not_eq_true',
    decide_eq_false_iff_not, Bool.or_self, decide_false, Bool.false_eq_true] at hfits
  have hmisses : comment.Misses ⟨before, '#' :: (u ++ q)⟩ :=
    misses_comment_of_startsHash (by decide) (by simp) (by simp) (by simp [hb])
  obtain ⟨left, hleft, hrest⟩ := exists_rewriteBehind_line hu (not_mem_quotes_of_any hfits.1)
    hfits.2 hq (inside_some (show '#' ≠ '\n' by decide))
  rw [afterLine_append hu hq] at ih
  rw [rewriteBehind_of_misses isLocal_comment hmisses, hrest (some '#')]
  have hstep := step_hash (left ++ comment.rewriteBehind (some '#') q)
  have hstep' := step_hash (u ++ q)
  rw [afterLine_append hleft (endsLine_rewriteBehind hq (some '#'))] at hstep
  rw [afterLine_append hu hq] at hstep'
  exact .skip hstep hstep' ih

/-- The digits behind the first character of a number. -/
theorem all_isPlain_numberTail (s : List Char) : (numberTail false s).1.all isPlain = true
    ∧ '\n' ∉ (numberTail false s).1 := by
  have hall := List.all_eq_true.1 (Token.numberTail_fst false s).1
  refine ⟨List.all_eq_true.2 fun c hc => ?_, fun hbreak => ?_⟩
  · exact isPlain_of_class (f := fun c => Text.isDigit c || c = '.') (hall c hc) (by decide)
  · exact absurd (hall '\n' hbreak) (by decide)

theorem sameTokens_minus {d : Char} (hd : Text.isDigit d = true)
    (hhash : (before.all (· = '\n') && startsHash ('-' :: d :: s)) = false)
    (ih : ∀ b, Inside b → SameTokens (comment.rewriteBehind b (numberTail false (d :: s)).2)
      (numberTail false (d :: s)).2) :
    SameTokens (comment.rewriteBehind before ('-' :: d :: s)) ('-' :: d :: s) := by
  obtain ⟨hplain, hbreak⟩ := all_isPlain_numberTail (d :: s)
  have htext := Token.numberTail_append_self false (d :: s)
  have hdash : d ≠ '-' := Token.ne_of_class hd '-' (by decide)
  have hmisses : comment.Misses ⟨before, '-' :: d :: s⟩ :=
    misses_comment_of_startsHash (by decide) (by simp) (by simpa using hdash) hhash
  have hkeeps : comment.rewriteBehind before ('-' :: (numberTail false (d :: s)).1
      ++ (numberTail false (d :: s)).2) = '-' :: (numberTail false (d :: s)).1
        ++ comment.rewriteBehind (behind (some '-') (numberTail false (d :: s)).1)
          (numberTail false (d :: s)).2 := by
    rw [List.cons_append, htext, rewriteBehind_of_misses isLocal_comment hmisses, ← htext,
      rewriteBehind_plain hplain, htext]
    rfl
  have hinside : Inside (behind (some '-') (numberTail false (d :: s)).1) :=
    inside_behind (p := '-' :: (numberTail false (d :: s)).1) (List.cons_ne_nil _ _)
      (by simpa using hbreak) none
  have hstep := Token.stepAt_minus hd s
  have hsame := sameTokens_of_take (p := '-' :: (numberTail false (d :: s)).1)
    (by rw [List.cons_append, htext]; exact hstep) hkeeps (ih _ hinside)
  rwa [List.cons_append, htext] at hsame

theorem sameTokens_digit (hc : Text.isDigit c = true)
    (ih : ∀ b, Inside b → SameTokens (comment.rewriteBehind b (numberTail false s).2)
      (numberTail false s).2) :
    SameTokens (comment.rewriteBehind before (c :: s)) (c :: s) := by
  obtain ⟨hplain, hbreak⟩ := all_isPlain_numberTail s
  have hfirst : isPlain c = true := isPlain_of_class hc (by decide)
  have hne : c ≠ '\n' := Token.ne_of_class hc '\n' (by decide)
  have htext := Token.numberTail_append_self false s
  have hstep : step (c :: (numberTail false s).1 ++ (numberTail false s).2)
      = .take (.number (String.ofList (c :: (numberTail false s).1))) (numberTail false s).2 := by
    rw [List.cons_append, htext]
    exact Token.stepAt_of_isDigit hc s
  have hsame : SameTokens (comment.rewriteBehind before _) _ := sameTokens_of_plain hstep
    (List.cons_ne_nil _ _) (by simp [hfirst, hplain]) (by simp [hne.symm, hbreak]) ih
  rwa [List.cons_append, htext] at hsame

theorem sameTokens_word (hc : Token.isWordStart c = true)
    (ih : ∀ b, Inside b → SameTokens (comment.rewriteBehind b (s.dropWhile Token.isWordPart))
      (s.dropWhile Token.isWordPart)) :
    SameTokens (comment.rewriteBehind before (c :: s)) (c :: s) := by
  have hpart : Token.isWordPart c = true := by
    rw [Token.isWordStart, Bool.or_eq_true] at hc
    rcases hc with hc | hc <;> simp [Token.isWordPart, hc]
  have hall : ∀ d ∈ c :: s.takeWhile Token.isWordPart, Token.isWordPart d = true :=
    List.forall_mem_cons.2 ⟨hpart, List.all_eq_true.1 List.all_takeWhile⟩
  have hplain : (c :: s.takeWhile Token.isWordPart).all isPlain = true :=
    List.all_eq_true.2 fun d hd => isPlain_of_class (hall d hd) (by decide)
  have hbreak : '\n' ∉ c :: s.takeWhile Token.isWordPart := fun hd =>
    absurd (hall '\n' hd) (by decide)
  have htext : s.takeWhile Token.isWordPart ++ s.dropWhile Token.isWordPart = s :=
    List.takeWhile_append_dropWhile
  have hstep : step (c :: s.takeWhile Token.isWordPart ++ s.dropWhile Token.isWordPart)
      = .take (Token.ofWord (c :: s.takeWhile Token.isWordPart))
        (s.dropWhile Token.isWordPart) := by
    rw [List.cons_append, htext]
    exact Token.stepAt_of_isWordStart hc s
  have hsame : SameTokens (comment.rewriteBehind before _) _ :=
    sameTokens_of_plain hstep (List.cons_ne_nil _ _) hplain hbreak ih
  rwa [List.cons_append, htext] at hsame

theorem sameTokens_punctuation {token : Token} (hc : Token.punctuation? c = some token)
    (ih : ∀ b, Inside b → SameTokens (comment.rewriteBehind b s) s) :
    SameTokens (comment.rewriteBehind before (c :: s)) (c :: s) := by
  have hmem : c ∈ ['(', ')', ',', ';', '.'] := by
    refine Decidable.byContradiction fun hc' => ?_
    have hnone : Token.punctuation? c = none :=
      Token.punctuation?_eq_none fun d hd heq => hc' (heq ▸ hd)
    exact absurd (hc.symm.trans hnone) (by simp)
  have hall : ['(', ')', ',', ';', '.'].all (fun d => isPlain d && d ≠ '\n') = true := by decide
  have hclass := List.all_eq_true.1 hall c hmem
  simp only [ne_eq, decide_not, Bool.and_eq_true, Bool.not_eq_true', decide_eq_false_iff_not]
    at hclass
  exact sameTokens_of_plain (p := [c]) (Token.step_punctuation hc s) (List.cons_ne_nil _ _)
    (by simpa using hclass.1) (by simpa using Ne.symm hclass.2) ih

/-- What stands between delimiters and stays. -/
theorem sameTokens_enclosed {close : Char} {escapes : Bool} {body : List Char} {token : Token}
    (hclosed : closed? close escapes s = some (body, t)) (hclose : close ≠ '\n')
    (hstep : step (c :: s) = .take token (delimited close escapes s).2)
    (hkeeps : comment.rewriteBehind before (c :: (body ++ close :: t))
      = c :: (body ++ close :: comment.rewriteBehind (some close) t))
    (ih : ∀ b, Inside b → SameTokens (comment.rewriteBehind b (delimited close escapes s).2)
      (delimited close escapes s).2) :
    SameTokens (comment.rewriteBehind before (c :: s)) (c :: s) := by
  obtain ⟨hbody, rfl, ht⟩ := Token.isBody_of_closed? hclosed
  obtain ⟨v, hv⟩ := hbody.exists_delimited
  rw [hv t ht] at hstep ih
  have hsame : SameTokens (comment.rewriteBehind before ((c :: (body ++ [close])) ++ t))
      ((c :: (body ++ [close])) ++ t) :=
    sameTokens_of_take (by simpa using hstep) (by simpa using hkeeps) (ih _ (inside_some hclose))
  simpa using hsame

theorem sameTokens_name {close : Char} (hc : closing? c = some close) (hfits : fits c s = true)
    (ih : ∀ b, Inside b → SameTokens (comment.rewriteBehind b (delimited close false s).2)
      (delimited close false s).2) :
    SameTokens (comment.rewriteBehind before (c :: s)) (c :: s) := by
  have hstep := Token.stepAt_of_closing? hc s
  by_cases hbracket : c = '['
  · obtain rfl := hbracket
    obtain rfl : ']' = close := Option.some.inj hc
    obtain ⟨body, t, hclosed, hquotes, hmarks⟩ := exists_of_fits_bracket hfits
    have hfirst := misses_comment_plain (c := '[') (by decide) before (body ++ ']' :: t)
    have hinside : Unmarked ((some '[').all (· = '\n')) (body ++ [']']) := hmarks
    refine sameTokens_enclosed hclosed (by decide) hstep ?_ ih
    rw [rewriteBehind_of_misses isLocal_comment hfirst,
      rewriteBehind_bracketed (not_mem_quotes_of_any hquotes) hinside]
  · have hquote : (c = '\x22' ∨ c = '\x60') ∧ c = close := by
      unfold closing? at hc
      repeat' split at hc
      all_goals cases hc
      all_goals simp_all
    obtain ⟨hquote, rfl⟩ := hquote
    obtain ⟨body, t, hclosed⟩ := exists_of_fits_quote hquote hfits
    have hclose : c ≠ '\n' := by rcases hquote with rfl | rfl <;> decide
    obtain ⟨hbody, -, -⟩ := Token.isBody_of_closed? hclosed
    exact sameTokens_enclosed hclosed hclose hstep (rewriteBehind_quotedName hquote hbody before t) ih

theorem sameTokens_literal (hfits : fits '\x27' s = true)
    (ih : ∀ b, Inside b → SameTokens (comment.rewriteBehind b (delimited '\x27' true s).2)
      (delimited '\x27' true s).2) :
    SameTokens (comment.rewriteBehind before ('\x27' :: s)) ('\x27' :: s) := by
  obtain ⟨body, t, hclosed, hbreak⟩ := exists_of_fits_literal hfits
  obtain ⟨hbody, -, ht⟩ := Token.isBody_of_closed? hclosed
  exact sameTokens_enclosed hclosed (by decide) (Token.stepAt_quote s)
    (rewriteBehind_literal hbody hbreak ht before) ih

theorem sameTokens_symbol (hc : Token.isSymbol c = true)
    (hhash : (before.all (· = '\n') && startsHash (c :: s)) = false)
    (hdash : c = '-' → ∀ d ∈ s.head?, d ≠ '-' ∧ Text.isDigit d = false)
    (hslash : c = '/' → ∀ d ∈ s.head?, d ≠ '*')
    (ih : ∀ b, Inside b → SameTokens (comment.rewriteBehind b s) s) :
    SameTokens (comment.rewriteBehind before (c :: s)) (c :: s) := by
  have hne := Token.ne_of_class hc
  have hquote : c ∉ ['\x27', '\x22', '\x60'] := by
    simp [hne '\x27' (by decide), hne '\x22' (by decide), hne '\x60' (by decide)]
  have hmisses := misses_comment_of_startsHash hquote (fun h hs => hslash h '*' hs rfl)
    (fun h hs => (hdash h '-' hs).1 rfl) hhash
  exact sameTokens_of_take (p := [c]) (Token.stepAt_of_isSymbol hc hdash hslash)
    (rewriteBehind_of_misses isLocal_comment hmisses) (ih _ (inside_some (hne '\n' (by decide))))

/-- **Where the pattern leaves what the scanner reads, one step gives the same token.** -/
theorem sameTokens_step (hhash : (before.all (· = '\n') && startsHash (c :: s)) = false)
    (hfits : fits c s = true)
    (ih : ∀ t b, (stepAt c s).rest? = some t → b.all (· = '\n') = decide (c = '\n') →
      SameTokens (comment.rewriteBehind b t) t) :
    SameTokens (comment.rewriteBehind before (c :: s)) (c :: s) := by
  generalize hstep : stepAt c s = result at ih
  have hview := Token.sees_stepAt c s
  rw [hstep] at hview
  have inside : ∀ t, result.rest? = some t → c ≠ '\n' →
      ∀ b, Inside b → SameTokens (comment.rewriteBehind b t) t := fun t ht hc b hb =>
    ih t b ht (hb.trans (decide_eq_false hc).symm)
  cases hview with
  | blank hc => exact sameTokens_blank hc hhash (ih s (some c) rfl rfl)
  | dashes => exact sameTokens_dashes (ih _ (some '-') rfl rfl)
  | @block s =>
    refine sameTokens_block fun t ht => ih t (some '/') ?_ rfl
    rw [afterBlockComment_eq, ht]
    rfl
  | hash =>
    have hb : before.all (· = '\n') = false := by simpa [startsHash, isIndent] using hhash
    exact sameTokens_hash hb hfits (ih _ (some '#') rfl rfl)
  | minus hd => exact sameTokens_minus hd hhash fun b hb => ih _ b rfl hb
  | punctuation hp => exact sameTokens_punctuation hp (inside s rfl (by rintro rfl; cases hp))
  | name hc => exact sameTokens_name hc hfits (inside _ rfl (by rintro rfl; cases hc))
  | literal => exact sameTokens_literal hfits fun b hb => ih _ b rfl hb
  | digit hc => exact sameTokens_digit hc (inside _ rfl (Token.ne_of_class hc '\n' (by decide)))
  | word hc => exact sameTokens_word hc (inside _ rfl (Token.ne_of_class hc '\n' (by decide)))
  | symbol hc hdash hslash =>
    exact sameTokens_symbol hc hhash hdash hslash
      (inside s rfl (Token.ne_of_class hc '\n' (by decide)))

end Steps

/-! ### Whole texts -/

theorem sameTokens_of_agrees {fresh : Bool} {s : List Char} (h : agrees fresh s = true)
    {before : Option Char} (hb : before.all (· = '\n') = fresh) :
    SameTokens (comment.rewriteBehind before s) s := by
  induction hn : s.length using Nat.strongRecOn generalizing fresh s before with
  | ind n ih =>
    subst hn
    rw [agrees.eq_def, Bool.or_eq_true, decide_eq_true_eq] at h
    rcases h with h | h
    · subst hb
      rw [rewriteBehind_of_unmarked h]
      exact .refl s
    cases s with
    | nil =>
      rw [rewriteBehind_nil]
      exact .refl []
    | cons c s =>
      simp only at h
      split at h
      · rename_i hhash
        rw [Bool.and_eq_true] at hhash
        have hlt : (afterLine s).length < (c :: s).length :=
          Nat.lt_succ_of_le (Token.dropWhile_length_le _ s)
        exact sameTokens_hashLine (hb.trans hhash.1) hhash.2 (ih _ hlt h rfl rfl)
      · rename_i hhash
        rw [Bool.and_eq_true] at h
        refine sameTokens_step (by rw [hb]; exact Bool.eq_false_iff.2 hhash) h.1 fun t b ht hbt => ?_
        have hlt : t.length < (c :: s).length := Nat.lt_succ_of_le (Token.stepAt_rest_length_le ht)
        have hmore : agrees (c = '\n') t = true := by
          have hrest := h.2
          split at hrest
          · rename_i hnone
            rw [hnone] at ht
            cases ht
          · rename_i t' hsome
            obtain rfl := Option.some.inj (hsome.symm.trans ht)
            exact hrest
        exact ih _ hlt hmore hbt rfl

/-- **A text without its comments has the tokens of the text**, if pattern and scanner agree at its
steps. -/
theorem map_token_scan_rewrite_comment {text : String} (h : agrees true text.toList = true) :
    (Token.scan (String.ofList (comment.rewrite text.toList))).map Lexeme.token
      = (Token.scan text).map Lexeme.token := by
  have hsame : SameTokens (comment.rewriteBehind none text.toList) text.toList :=
    sameTokens_of_agrees h rfl
  rw [Token.scan, Token.scan, String.toList_ofList]
  exact hsame _ _

/-- Comments of every kind, and their marks between quotes and brackets. -/
def markedScript : String :=
  "-- first\n  # second\nCREATE TABLE \"a--b\" ( [c -d] text DEFAULT 'it''s \\' -- /* no */', # third\n"
    ++ "  \x60e/*f\x60 int /* fourth -- */, g int );-- last"

theorem map_token_scan_rewrite_comment_markedScript :
    agrees true markedScript.toList = true ∧
      (Token.scan (String.ofList (comment.rewrite markedScript.toList))).map Lexeme.token
        = (Token.scan markedScript).map Lexeme.token := by
  have hagrees : agrees true markedScript.toList = true := by decide +kernel
  exact ⟨hagrees, map_token_scan_rewrite_comment hagrees⟩

/-- Dashes between brackets go with the rest of the line. -/
theorem map_token_scan_rewrite_comment_ne :
    ¬∀ text : String, (Token.scan (String.ofList (comment.rewrite text.toList))).map Lexeme.token
      = (Token.scan text).map Lexeme.token := by
  intro hall
  have hsame := hall "CREATE TABLE t ([a--b] int);"
  exact absurd hsame (by decide +kernel)

end SchemaAudit.Dialect
