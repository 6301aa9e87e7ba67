import Mathlib.Data.List.Infix
import SchemaAudit.Proofs.Dialect.CommentStep

/-!
# Pieces of a text without its comments

* `startsLike_rewriteBehind`: what is left starts like the text, or with a blank.
* `not_starSlash_rewriteBehind`: dropping comments puts no star in front of a slash.
* `Unmarked`: a text in which no comment opens, which stays (`rewriteBehind_of_unmarked`).
* `rewriteBehind_plain`, `rewriteBehind_bracketed`, `exists_rewriteBehind_line`: what is left of a
  piece whatever stands behind it.
-/

namespace SchemaAudit.Dialect

open Pattern
open Token (StartsLike)

/-! ### What stands first -/

theorem rewriteBehind_nil (before : Option Char) : comment.rewriteBehind before [] = [] := by
  rw [rewriteBehind, rewriteFrom]

theorem endsLine_rewriteBehind {q : List Char} (hq : EndsLine q) (before : Option Char) :
    EndsLine (comment.rewriteBehind before q) := by
  cases q with
  | nil =>
    rw [rewriteBehind_nil]
    exact hq
  | cons c q =>
    obtain rfl := hq c rfl
    rw [rewriteBehind_comment_break]
    exact endsLine_break _

theorem startsLike_rewriteBehind (before : Option Char) (s : List Char) :
    StartsLike s (comment.rewriteBehind before s) := by
  cases s with
  | nil => exact .inl (by rw [rewriteBehind_nil])
  | cons c s =>
    rcases rewriteBehind_comment_cases before c s with
      ⟨p, t, -, -, hstay⟩ | ⟨-, t, -, ht, hdrop⟩ | ⟨r, t, -, -, -, hdrop⟩
    · exact .inl (by rw [hstay]; rfl)
    · refine .inr ⟨List.cons_ne_nil c s, fun d hd => .inr ?_⟩
      rw [hdrop none] at hd
      exact endsLine_rewriteBehind ht none d hd
    · exact .inr ⟨List.cons_ne_nil c s, by rw [hdrop]; simp⟩

/-- Two characters side by side stand in one of two texts, or where they join. -/
theorem pair_infix_append {x y : Char} {s t : List Char} (h : [x, y] <:+: s ++ t) :
    [x, y] <:+: s ∨ [x, y] <:+: t ∨ (s.getLast? = some x ∧ t.head? = some y) := by
  rcases List.infix_append_iff_ne_nil.1 h with h | h | ⟨u, v, hu, hv, huv, hsuffix, hprefix⟩
  · exact .inl h
  · exact .inr (.inl h)
  · obtain ⟨rfl, rfl⟩ : u = [x] ∧ v = [y] := by
      rcases List.append_eq_cons_iff.1 huv.symm with ⟨rfl, -⟩ | ⟨u', rfl, hmore⟩
      · exact absurd rfl hu
      · rcases List.append_eq_cons_iff.1 hmore.symm with ⟨rfl, rfl⟩ | ⟨u'', rfl, hnil⟩
        · exact ⟨rfl, rfl⟩
        · exact absurd (List.append_eq_nil_iff.1 hnil.symm).2 hv
    obtain ⟨s, rfl⟩ := hsuffix
    obtain ⟨t, rfl⟩ := hprefix
    exact .inr (.inr ⟨by simp, rfl⟩)

theorem pair_infix_of_join {x y : Char} {s t : List Char} (hs : s.getLast? = some x)
    (ht : t.head? = some y) : [x, y] <:+: s ++ t := by
  obtain ⟨s, rfl⟩ := List.getLast?_eq_some_iff.1 hs
  obtain ⟨t, rfl⟩ := List.head?_eq_some_iff.1 ht
  exact ⟨s, t, by simp⟩

/-- No star comes to stand in front of a slash. -/
theorem not_starSlash_rewriteBehind {s : List Char} (h : ¬['*', '/'] <:+: s)
    (before : Option Char) : ¬['*', '/'] <:+: comment.rewriteBehind before s := by
  induction hn : s.length using Nat.strongRecOn generalizing s before with
  | ind n ih =>
    subst hn
    cases s with
    | nil => simp [rewriteBehind_nil]
    | cons c s =>
      rcases rewriteBehind_comment_cases before c s with
        ⟨p, t, rfl, -, hstay⟩ | ⟨-, t, htail, -, hdrop⟩ | ⟨r, t, rfl, rfl, hblock, -⟩
      · have hlt : t.length < (c :: (p ++ t)).length := by
          simp only [List.length_cons, List.length_append]
          omega
        have ht : ¬['*', '/'] <:+: t := fun hm =>
          h (hm.trans (List.suffix_append (c :: p) t).isInfix)
        rw [hstay, ← List.cons_append]
        intro hpair
        rcases pair_infix_append hpair with hpair | hpair | ⟨hlast, hhead⟩
        · exact h (hpair.trans (List.prefix_append (c :: p) t).isInfix)
        · exact ih _ hlt ht (some c) rfl hpair
        · rcases startsLike_rewriteBehind (some c) t with hsame | ⟨-, hblank⟩
          · exact h (pair_infix_of_join hlast (hsame.symm.trans hhead))
          · rcases hblank '/' hhead with h | h <;> exact absurd h (by decide)
      · have ht : ¬['*', '/'] <:+: t := fun hm =>
          h (hm.trans (htail.isInfix.trans (List.suffix_cons c s).isInfix))
        rw [hdrop none]
        exact ih _ (Nat.lt_succ_of_le htail.length_le) ht none rfl
      · have hr : ¬['*', '/'] <:+: r := fun hm =>
          h (hm.trans (List.suffix_append ['/', '*'] r).isInfix)
        rw [behindBlock_eq_none_iff.2 hr] at hblock
        cases hblock

/-! ### Texts without comments -/

/-- Whether a hash stands at the start of a line. The flag says that the text starts a line. -/
def holdsHashLine : Bool → List Char → Bool
  | _, [] => false
  | fresh, c :: s => (fresh && startsHash (c :: s)) || holdsHashLine (c = '\n') s

/-- Nothing that opens a comment for `comment`. -/
structure Unmarked (fresh : Bool) (s : List Char) : Prop where
  dashes : ¬['-', '-'] <:+: s
  stars : ¬['/', '*'] <:+: s
  hashes : holdsHashLine fresh s = false

instance (fresh : Bool) (s : List Char) : Decidable (Unmarked fresh s) :=
  decidable_of_iff (¬['-', '-'] <:+: s ∧ ¬['/', '*'] <:+: s ∧ holdsHashLine fresh s = false)
    ⟨fun ⟨h, h', h''⟩ => ⟨h, h', h''⟩, fun ⟨h, h', h''⟩ => ⟨h, h', h''⟩⟩

theorem Unmarked.tail {fresh : Bool} {c : Char} {s : List Char} (h : Unmarked fresh (c :: s)) :
    Unmarked (c = '\n') s where
  dashes hm := h.dashes (hm.trans (List.suffix_cons c s).isInfix)
  stars hm := h.stars (hm.trans (List.suffix_cons c s).isInfix)
  hashes := (Bool.or_eq_false_iff.1 h.hashes).2

/-- Inside of a line there are not more marks. -/
theorem holdsHashLine_of_fresh {fresh : Bool} {s : List Char} (h : holdsHashLine fresh s = false) :
    holdsHashLine false s = false := by
  cases s with
  | nil => rfl
  | cons c s =>
    rw [holdsHashLine, Bool.false_and, Bool.false_or]
    exact (Bool.or_eq_false_iff.1 h).2

theorem Unmarked.behind {fresh : Bool} {p t : List Char} (h : Unmarked fresh (p ++ t)) :
    Unmarked false t := by
  induction p generalizing fresh with
  | nil => exact ⟨h.dashes, h.stars, holdsHashLine_of_fresh h.hashes⟩
  | cons c p ih => exact ih h.tail

theorem rewriteBehind_of_unmarked {before : Option Char} {s : List Char}
    (h : Unmarked (before.all (· = '\n')) s) : comment.rewriteBehind before s = s := by
  induction hn : s.length using Nat.strongRecOn generalizing s before with
  | ind n ih =>
    subst hn
    cases s with
    | nil => exact rewriteBehind_nil before
    | cons c s =>
      rcases rewriteBehind_comment_cases before c s with
        ⟨p, t, rfl, hp, hstay⟩ | ⟨hmark, -⟩ | ⟨r, t, rfl, rfl, -⟩
      · have hlt : t.length < (c :: (p ++ t)).length := by
          simp only [List.length_cons, List.length_append]
          omega
        have ht : Unmarked ((some c).all (· = '\n')) t := by
          rcases hp with rfl | hquote
          · exact h.tail
          · have hbreak : (some c).all (· = '\n') = false := by
              simp only [List.mem_cons, List.not_mem_nil, or_false] at hquote
              rcases hquote with rfl | rfl | rfl <;> decide
            rw [hbreak]
            exact h.tail.behind
        rw [hstay, ih _ hlt ht rfl]
      · rcases hmark with ⟨rfl, hs⟩ | ⟨hline, hstarts⟩
        · obtain ⟨t, rfl⟩ := List.head?_eq_some_iff.1 hs
          exact absurd (List.prefix_append ['-', '-'] t).isInfix h.dashes
        · have hashes := h.hashes
          rw [holdsHashLine, hline, hstarts] at hashes
          cases hashes
      · exact absurd (List.prefix_append ['/', '*'] r).isInfix h.stars

/-! ### Pieces that stay -/

/-- Characters with which nothing begins that `comment` reads. -/
def isPlain (c : Char) : Bool :=
  !(['\x27', '\x22', '\x60', '/', '-', '#'] : List Char).contains c && !isIndent c

theorem misses_comment_plain {c : Char} (hc : isPlain c = true) (before : Option Char)
    (s : List Char) : comment.Misses ⟨before, c :: s⟩ := by
  simp only [isPlain, Bool.and_eq_true, Bool.not_eq_true', List.contains_eq_mem,
    decide_eq_false_iff_not, List.mem_cons, List.not_mem_nil, or_false, not_or] at hc
  obtain ⟨⟨hsingle, hdouble, hback, hslash, hdash, hhash⟩, hindent⟩ := hc
  refine misses_comment (by simp [hsingle, hdouble, hback]) (fun h => absurd h hslash)
    (fun h => absurd h hdash) fun _ indent t hall htext => ?_
  cases indent with
  | nil => exact hhash (List.cons.inj htext).1
  | cons d indent =>
    obtain ⟨rfl, -⟩ := List.cons.inj htext
    rw [hall c List.mem_cons_self] at hindent
    cases hindent

/-- A comment that is not closed is none: its two marks stay. -/
theorem rewriteBehind_unclosed {s : List Char} (h : behindBlock s = none) (before : Option Char) :
    comment.rewriteBehind before ('/' :: '*' :: s)
      = '/' :: '*' :: comment.rewriteBehind (some '*') s := by
  have hways := ways_blockComment_of_unclosed h ('/' :: '*' :: s).length before
  have hslash : comment.Misses ⟨before, '/' :: '*' :: s⟩ := by
    refine misses_comment_of (by decide) hways (by simp) fun _ indent u hindent htext => ?_
    have hstarts := startsHash_iff.2 ⟨indent, u, hindent, htext⟩
    exact absurd hstarts (by simp [startsHash, isIndent])
  have hstar := misses_comment_plain (c := '*') (by decide) (some '/') s
  rw [rewriteBehind_of_misses isLocal_comment hslash, rewriteBehind_of_misses isLocal_comment hstar]

theorem rewriteBehind_plain {p : List Char} (hp : p.all isPlain = true) (before : Option Char)
    (t : List Char) : comment.rewriteBehind before (p ++ t)
      = p ++ comment.rewriteBehind (behind before p) t := by
  refine rewriteBehind_append isLocal_comment ?_
  induction p generalizing before with
  | nil => trivial
  | cons c p ih =>
    rw [List.all_cons, Bool.and_eq_true] at hp
    exact ⟨misses_comment_plain hp.1 before (p ++ t), ih hp.2 (some c)⟩

theorem startsHash_bracket (p t : List Char) :
    startsHash (p ++ ']' :: t) = startsHash (p ++ [']']) := by
  induction p with
  | nil => rfl
  | cons c p ih =>
    by_cases hc : isIndent c = true
    · simpa [startsHash, hc] using ih
    · simp [startsHash, hc]

/-- A text without marks and quotes stays up to a bracket. -/
theorem rewriteBehind_bracketed {p : List Char} (hquotes : ∀ c ∈ p, c ∉ ['\x27', '\x22', '\x60'])
    {before : Option Char} (hp : Unmarked (before.all (· = '\n')) (p ++ [']'])) (t : List Char) :
    comment.rewriteBehind before (p ++ ']' :: t)
      = p ++ ']' :: comment.rewriteBehind (some ']') t := by
  induction p generalizing before with
  | nil => exact rewriteBehind_of_misses isLocal_comment (misses_comment_plain (by decide) before t)
  | cons c p ih =>
    obtain ⟨hc, hmore⟩ := List.forall_mem_cons.1 hquotes
    have hnext : ∀ d, d ≠ ']' → (p ++ ']' :: t).head? = some d → [c, d] <:+: c :: p ++ [']'] := by
      intro d hd hhead
      cases p with
      | nil => exact absurd (Option.some.inj hhead).symm hd
      | cons d' p =>
        obtain rfl := Option.some.inj hhead
        exact (List.prefix_append [c, d'] (p ++ [']'])).isInfix
    have hmisses : comment.Misses ⟨before, c :: (p ++ ']' :: t)⟩ := by
      refine misses_comment hc ?_ ?_ fun hline indent u hindent htext => ?_
      · rintro rfl hhead
        exact hp.stars (hnext '*' (by decide) hhead)
      · rintro rfl hhead
        exact hp.dashes (hnext '-' (by decide) hhead)
      · have hstarts := startsHash_iff.2 ⟨indent, u, hindent, htext⟩
        rw [← List.cons_append, startsHash_bracket] at hstarts
        have hhashes := hp.hashes
        rw [List.cons_append, holdsHashLine, hline, Bool.true_and] at hhashes
        rw [List.cons_append, (Bool.or_eq_false_iff.1 hhashes).1] at hstarts
        cases hstarts
    have htail : Unmarked ((some c).all (· = '\n')) (p ++ [']']) := hp.tail
    rw [List.cons_append, rewriteBehind_of_misses isLocal_comment hmisses, ih hmore htail]
    rfl

/-- Behind other characters than indentation, what is left of a line is a part of it. -/
theorem exists_rewriteBehind_line {line t : List Char} (hbreak : '\n' ∉ line)
    (hquotes : ∀ c ∈ line, c ∉ ['\x27', '\x22', '\x60']) (hstars : ¬['/', '*'] <:+: line)
    (ht : EndsLine t) {before : Option Char} (hb : before.all (· = '\n') = false) :
    ∃ left, '\n' ∉ left ∧ ∀ before',
      comment.rewriteBehind before (line ++ t) = left ++ comment.rewriteBehind before' t := by
  induction line generalizing before with
  | nil => exact ⟨[], List.not_mem_nil, fun before' => rewriteBehind_of_endsLine ht before before'⟩
  | cons c line ih =>
    obtain ⟨hc, hmore⟩ := List.forall_mem_cons.1 hquotes
    have hne := List.ne_of_not_mem_cons hbreak
    have hbreak' := List.not_mem_of_not_mem_cons hbreak
    by_cases hdash : c = '-' ∧ line.head? = some '-'
    · obtain ⟨rfl, hhead⟩ := hdash
      obtain ⟨line, rfl⟩ := List.head?_eq_some_iff.1 hhead
      exact ⟨[], List.not_mem_nil, fun before' =>
        rewriteBehind_dashes (List.not_mem_of_not_mem_cons hbreak') ht before before'⟩
    · have hnext : ∀ d, d ≠ '\n' → (line ++ t).head? = some d → line.head? = some d := by
        intro d hd hhead
        cases line with
        | nil => exact absurd (ht d hhead) hd
        | cons d' line => exact hhead
      have hmisses : comment.Misses ⟨before, c :: (line ++ t)⟩ := by
        refine misses_comment hc ?_ ?_ fun hline => ?_
        · rintro rfl hhead
          obtain ⟨line, rfl⟩ := List.head?_eq_some_iff.1 (hnext '*' (by decide) hhead)
          exact hstars (List.prefix_append ['/', '*'] line).isInfix
        · exact fun hdash' hhead => hdash ⟨hdash', hnext '-' (by decide) hhead⟩
        · rw [hb] at hline
          cases hline
      have hstars' : ¬['/', '*'] <:+: line := fun hm =>
        hstars (hm.trans (List.suffix_cons c line).isInfix)
      have hinside : (some c).all (· = '\n') = false := by simpa using Ne.symm hne
      obtain ⟨left, hleft, hrest⟩ := ih hbreak' hmore hstars' hinside
      refine ⟨c :: left, by simp [hne, hleft], fun before' => ?_⟩
      rw [List.cons_append, rewriteBehind_of_misses isLocal_comment hmisses, hrest before']
      rfl

end SchemaAudit.Dialect
