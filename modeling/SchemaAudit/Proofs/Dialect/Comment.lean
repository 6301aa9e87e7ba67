import Mathlib.Data.List.Infix
import SchemaAudit.Dump
import SchemaAudit.Proofs.Pattern.Rewrite

/-!
# Comments at the end of a line

When the comments of a dump are dropped, two dashes and what stands behind them on the line go
wherever they stand, and a hash goes with the rest of its line if only indentation stands before it.

* `IsBare`: a text without quotes and without anything that opens a comment; no comment begins in
  it (`missesIn_comment`).
* `rewrite_comment_dashes`, `rewrite_comment_hash`: a comment behind such a text is dropped up to
  the end of its line.
* `graph_congr_comment`: dumps from which the comments leave the same text have the same graph.
-/

namespace SchemaAudit.Dialect

open Pattern

/-- A text without quotes and without anything that opens a comment. -/
structure IsBare (p : List Char) : Prop where
  marks : ∀ c ∈ p, c ∉ ['\x27', '\x22', '\x60', '#']
  dashes : ¬['-', '-'] <:+: p
  stars : ¬['/', '*'] <:+: p

instance (p : List Char) : Decidable (IsBare p) :=
  letI : Decidable (∀ c ∈ p, c ∉ ['\x27', '\x22', '\x60', '#']) := List.decidableBAll _ p
  decidable_of_iff ((∀ c ∈ p, c ∉ ['\x27', '\x22', '\x60', '#'])
      ∧ ¬['-', '-'] <:+: p ∧ ¬['/', '*'] <:+: p)
    ⟨fun h => ⟨h.1, h.2.1, h.2.2⟩, fun h => ⟨h.marks, h.dashes, h.stars⟩⟩

theorem IsBare.of_isPrefix {p q : List Char} (h : IsBare q) (hp : p <+: q) : IsBare p where
  marks c hc := h.marks c (hp.subset hc)
  dashes hi := h.dashes (hi.trans hp.isInfix)
  stars hi := h.stars (hi.trans hp.isInfix)

theorem IsBare.tail {c : Char} {p : List Char} (h : IsBare (c :: p)) : IsBare p where
  marks d hd := h.marks d (List.mem_cons_of_mem c hd)
  dashes hi := h.dashes (hi.trans (List.suffix_cons c p).isInfix)
  stars hi := h.stars (hi.trans (List.suffix_cons c p).isInfix)

theorem isLocal_comment : comment.IsLocal where
  steady := by decide
  still _ := rfl

/-! ### Where no comment begins -/

theorem eq_of_mem_ways_char {bound : Nat} {x c : Char} {q : Pattern} {keep : Bool}
    {before : Option Char} {s : List Char} {m : Way}
    (h : m ∈ (next (char x) q).ways bound keep ⟨before, c :: s⟩) : c = x := by
  obtain ⟨m₁, h₁, -⟩ := mem_after.1 h
  obtain ⟨d, hd, hrest, -⟩ := exists_of_mem_ways_one h₁
  obtain ⟨rfl, -⟩ := List.cons.inj hrest
  exact of_decide_eq_true hd

/-- Two characters exactly are read. -/
theorem eq_of_mem_ways_pair {bound : Nat} {x y : Char} {keep : Bool} {place : Place} {m : Way}
    (h : m ∈ (next (char x) (char y)).ways bound keep place) :
    place.rest = x :: y :: m.1.rest := by
  obtain ⟨m₁, h₁, m₂, h₂, rfl⟩ := mem_after.1 h
  obtain ⟨d, hd, hrest, -⟩ := exists_of_mem_ways_one h₁
  obtain ⟨e, he, hrest', -⟩ := exists_of_mem_ways_one h₂
  rw [hrest, hrest', of_decide_eq_true hd, of_decide_eq_true he]

theorem eq_of_mem_ways_two {bound : Nat} {x y c : Char} {q : Pattern} {keep : Bool}
    {before : Option Char} {s : List Char} {m : Way}
    (h : m ∈ (next (next (char x) (char y)) q).ways bound keep ⟨before, c :: s⟩) :
    c = x ∧ s.head? = some y := by
  obtain ⟨m₁, h₁, -⟩ := mem_after.1 h
  obtain ⟨rfl, rfl⟩ := List.cons.inj (eq_of_mem_ways_pair h₁)
  exact ⟨rfl, rfl⟩

def isIndent (c : Char) : Bool := c = ' ' || c = '\t'

theorem exists_indent_of_mem_ways {bound : Nat} {keep : Bool} {place : Place} {m : Way}
    (h : m ∈ (many (anyOf [char ' ', char '\t'])).ways bound keep place) :
    ∃ indent, (∀ d ∈ indent, isIndent d = true) ∧ place.rest = indent ++ m.1.rest := by
  refine exists_run_of_mem_ways (fun place m hm => ?_) h
  rcases List.mem_append.1 hm with hm | hm
  · obtain ⟨d, hd, hrest, -⟩ := exists_of_mem_ways_one hm
    exact ⟨d, by rw [of_decide_eq_true hd]; rfl, hrest⟩
  · obtain ⟨d, hd, hrest, -⟩ := exists_of_mem_ways_one hm
    exact ⟨d, by rw [of_decide_eq_true hd]; rfl, hrest⟩

theorem ways_char_eq_nil {bound : Nat} {x c : Char} (h : c ≠ x) (q : Pattern) (keep : Bool)
    (before : Option Char) (s : List Char) :
    (next (char x) q).ways bound keep ⟨before, c :: s⟩ = [] :=
  List.eq_nil_iff_forall_not_mem.2 fun _ hm => h (eq_of_mem_ways_char hm)

/-- The alternatives of `comment`: texts between quotes, which stay, and comments between a slash with
a star and a star with a slash, from two dashes on, and from a hash at the start of a line on. -/
def quotedBy (x : Char) : Pattern :=
  kept (each [char x, many (one fun c => !([x] : List Char).contains c), char x])

def blockComment : Pattern :=
  becomes (each [exactly "/*", few (one fun _ => true), exactly "*/"]) " "

def dashComment : Pattern := each [exactly "--", many (noneOf "\n")]

def hashComment : Pattern :=
  each [lineStart, many (anyOf [char ' ', char '\t']), char '#', many (noneOf "\n")]

theorem ways_comment_eq (bound : Nat) (place : Place) : comment.ways bound false place
    = (kept quotedLiteral).ways bound false place ++ ((quotedBy '\x22').ways bound false place
      ++ ((quotedBy '\x60').ways bound false place ++ (blockComment.ways bound false place
        ++ (dashComment.ways bound false place ++ hashComment.ways bound false place)))) := rfl

section Alternatives

variable {bound : Nat} {c : Char} (before : Option Char) (s : List Char)

theorem ways_quotedLiteral_eq_nil (hc : c ≠ '\x27') :
    (kept quotedLiteral).ways bound false ⟨before, c :: s⟩ = [] :=
  ways_char_eq_nil hc _ true before s

theorem ways_quotedBy_eq_nil {x : Char} (hc : c ≠ x) :
    (quotedBy x).ways bound false ⟨before, c :: s⟩ = [] :=
  ways_char_eq_nil hc _ true before s

theorem ways_blockComment_eq_nil (hc : c ≠ '/') :
    blockComment.ways bound false ⟨before, c :: s⟩ = [] := by
  refine List.eq_nil_iff_forall_not_mem.2 fun m hm => ?_
  obtain ⟨m₁, h₁, -⟩ := mem_after.1 hm
  exact hc (eq_of_mem_ways_two h₁).1

theorem ways_dashComment_eq_nil (hc : c ≠ '-') :
    dashComment.ways bound false ⟨before, c :: s⟩ = [] :=
  List.eq_nil_iff_forall_not_mem.2 fun _ hm => hc (eq_of_mem_ways_two hm).1

/-- A hash is read at the start of a line only, where indentation may stand before it. -/
theorem exists_of_mem_ways_hash {place : Place} {m : Way}
    (h : m ∈ hashComment.ways bound false place) : place.before.all (· = '\n') = true ∧
      ∃ indent t, (∀ d ∈ indent, isIndent d = true) ∧ place.rest = indent ++ '#' :: t := by
  obtain ⟨m₁, h₁, m₂, h₂, -⟩ := mem_after.1 h
  obtain ⟨m₃, h₃, m₄, h₄, -⟩ := mem_after.1 h₂
  obtain ⟨m₅, h₅, -⟩ := mem_after.1 h₄
  obtain ⟨indent, hindent, hrest⟩ := exists_indent_of_mem_ways h₃
  obtain ⟨d, hd, hrest', -⟩ := exists_of_mem_ways_one h₅
  have hstart : place.before.all (· = '\n') = true ∧ m₁.1.rest = place.rest := by
    simp only [ways] at h₁
    split at h₁
    · rename_i hline
      exact ⟨hline, by rw [List.mem_singleton.1 h₁]⟩
    · exact absurd h₁ List.not_mem_nil
  rw [hrest', of_decide_eq_true hd] at hrest
  exact ⟨hstart.1, indent, _, hindent, hstart.2.symm.trans hrest⟩

theorem ways_hashComment_eq_nil (hc : c ≠ '#') (hindent : isIndent c = false) :
    hashComment.ways bound false ⟨before, c :: s⟩ = [] := by
  refine List.eq_nil_iff_forall_not_mem.2 fun m hm => ?_
  obtain ⟨-, indent, t, hall, htext⟩ := exists_of_mem_ways_hash hm
  cases indent with
  | nil => exact hc (List.cons.inj htext).1
  | cons d indent =>
    obtain ⟨rfl, -⟩ := List.cons.inj htext
    rw [hall c List.mem_cons_self] at hindent
    cases hindent

/-- Where no quote stands, only comments are tried. -/
theorem ways_comment_of_ne (hc : c ∉ ['\x27', '\x22', '\x60']) :
    comment.ways bound false ⟨before, c :: s⟩ = blockComment.ways bound false ⟨before, c :: s⟩
      ++ (dashComment.ways bound false ⟨before, c :: s⟩
        ++ hashComment.ways bound false ⟨before, c :: s⟩) := by
  simp only [List.mem_cons, List.not_mem_nil, or_false, not_or] at hc
  rw [ways_comment_eq, ways_quotedLiteral_eq_nil before s hc.1, ways_quotedBy_eq_nil before s hc.2.1,
    ways_quotedBy_eq_nil before s hc.2.2]
  rfl

/-- Where no quote and no slash stands, only the comments to the end of a line are tried. -/
theorem ways_comment (hc : c ∉ ['\x27', '\x22', '\x60', '/']) :
    comment.ways bound false ⟨before, c :: s⟩ = dashComment.ways bound false ⟨before, c :: s⟩
      ++ hashComment.ways bound false ⟨before, c :: s⟩ := by
  simp only [List.mem_cons, List.not_mem_nil, or_false, not_or] at hc
  rw [ways_comment_of_ne before s (by simp [hc]), ways_blockComment_eq_nil before s hc.2.2.2,
    List.nil_append]

end Alternatives

theorem misses_comment_of {before : Option Char} {c : Char} {s : List Char}
    (hquote : c ∉ ['\x27', '\x22', '\x60'])
    (hblock : blockComment.ways (c :: s).length false ⟨before, c :: s⟩ = [])
    (hdash : c = '-' → s.head? ≠ some '-')
    (hhash : before.all (· = '\n') = true → ∀ indent t, (∀ d ∈ indent, isIndent d = true) →
      c :: s ≠ indent ++ '#' :: t) :
    comment.Misses ⟨before, c :: s⟩ := by
  rw [Misses, ways_comment_of_ne before s hquote, hblock, List.nil_append]
  refine List.eq_nil_iff_forall_not_mem.2 fun m hm => ?_
  rcases List.mem_append.1 hm with hm | hm
  · obtain ⟨hc, hs⟩ := eq_of_mem_ways_two hm
    exact hdash hc hs
  · obtain ⟨hline, indent, t, hindent, htext⟩ := exists_of_mem_ways_hash hm
    exact hhash hline indent t hindent htext

theorem misses_comment {before : Option Char} {c : Char} {s : List Char}
    (hquote : c ∉ ['\x27', '\x22', '\x60']) (hslash : c = '/' → s.head? ≠ some '*')
    (hdash : c = '-' → s.head? ≠ some '-')
    (hhash : before.all (· = '\n') = true → ∀ indent t, (∀ d ∈ indent, isIndent d = true) →
      c :: s ≠ indent ++ '#' :: t) :
    comment.Misses ⟨before, c :: s⟩ := by
  refine misses_comment_of hquote ?_ hdash hhash
  refine List.eq_nil_iff_forall_not_mem.2 fun m hm => ?_
  obtain ⟨m₁, h₁, -⟩ := mem_after.1 hm
  obtain ⟨hc, hs⟩ := eq_of_mem_ways_two h₁
  exact hslash hc hs

/-- What may stand behind a bare text so that no comment begins inside the text: nothing that makes
a mark together with its last character, and a hash or indentation only behind a line break. -/
structure Follows (p t : List Char) : Prop where
  dash : p.getLast? = some '-' → t.head? ≠ some '-'
  star : p.getLast? = some '/' → t.head? ≠ some '*'
  hash : p = [] ∨ p.getLast? = some '\n' ∨ ∀ d ∈ t.head?, d ≠ '#' ∧ isIndent d = false

theorem Follows.tail {c : Char} {p t : List Char} (h : Follows (c :: p) t) : Follows p t := by
  cases p with
  | nil => exact ⟨by simp, by simp, Or.inl rfl⟩
  | cons d p =>
    obtain ⟨hdash, hstar, hhash⟩ := h
    rw [List.getLast?_cons_cons] at hdash hstar hhash
    refine ⟨hdash, hstar, Or.inr ?_⟩
    exact hhash.resolve_left (List.cons_ne_nil c (d :: p))

/-- Two characters in a row do not stand across the join of two texts. -/
theorem head?_append_ne {x y : Char} {s t : List Char} (hinside : ¬[x, y] <:+: x :: s)
    (hjoin : (x :: s).getLast? = some x → t.head? ≠ some y) : (s ++ t).head? ≠ some y := by
  cases s with
  | nil => exact hjoin rfl
  | cons d s =>
    intro hd
    obtain rfl : d = y := Option.some.inj hd
    exact hinside ⟨[], s, rfl⟩

theorem ne_indent_append {p t : List Char} (hp : '#' ∉ p) (hne : p ≠ []) (h : Follows p t)
    {indent rest : List Char} (hindent : ∀ d ∈ indent, isIndent d = true) :
    p ++ t ≠ indent ++ '#' :: rest := by
  intro heq
  rcases List.append_eq_append_iff.1 heq with ⟨more, rfl, ht⟩ | ⟨more, rfl, hmore⟩
  · rcases h.hash with hnil | hlast | hhead
    · exact hne hnil
    · have hbreak := hindent '\n' (List.mem_append_left more (List.mem_of_getLast? hlast))
      exact absurd hbreak (by decide)
    · cases more with
      | nil => exact (hhead '#' (by rw [ht]; rfl)).1 rfl
      | cons d more =>
        have hd := hindent d (List.mem_append_right p List.mem_cons_self)
        rw [(hhead d (by rw [ht]; rfl)).2] at hd
        exact absurd hd (by decide)
  · cases more with
    | nil =>
      rw [List.append_nil] at h hne
      rw [List.nil_append] at hmore
      rcases h.hash with hnil | hlast | hhead
      · exact hne hnil
      · exact absurd (hindent '\n' (List.mem_of_getLast? hlast)) (by decide)
      · exact (hhead '#' (by rw [← hmore]; rfl)).1 rfl
    | cons d more =>
      obtain ⟨rfl, -⟩ := List.cons.inj hmore
      exact hp (List.mem_append_right indent List.mem_cons_self)

/-- **No comment begins in a bare text.** -/
theorem missesIn_comment {p t : List Char} (hp : IsBare p) (h : Follows p t)
    (before : Option Char) : comment.MissesIn before p t := by
  induction p generalizing before with
  | nil => trivial
  | cons c p ih =>
    have hmarks := hp.marks c List.mem_cons_self
    have hhash : '#' ∉ c :: p := fun hm => absurd (hp.marks '#' hm) (by decide)
    refine ⟨misses_comment ?_ ?_ ?_ ?_, ih hp.tail h.tail (some c)⟩
    · intro hc
      refine hmarks ?_
      simp only [List.mem_cons, List.not_mem_nil, or_false] at hc ⊢
      rcases hc with hc | hc | hc <;> simp [hc]
    · rintro rfl
      exact head?_append_ne hp.stars h.star
    · rintro rfl
      exact head?_append_ne hp.dashes h.dash
    · intro _ indent rest hindent
      exact ne_indent_append hhash (List.cons_ne_nil c p) h hindent

/-! ### Comments that go -/

/-- A line break comes next, or nothing. -/
def EndsLine (t : List Char) : Prop := ∀ d ∈ t.head?, d = '\n'

theorem endsLine_break (q : List Char) : EndsLine ('\n' :: q) := by simp [EndsLine]

/-- The rest of the line that a comment reads. -/
theorem head?_ways_line {c : List Char} (hc : '\n' ∉ c) {bound : Nat} {q : List Char}
    (hq : EndsLine q) (hbound : (c ++ q).length ≤ bound) (before : Option Char) :
    ((many (noneOf "\n")).ways bound false ⟨before, c ++ q⟩).head?
      = some (⟨behind before c, q⟩, []) := by
  refine head?_ways_many_append hbound (fun d hd => ?_) (fun d hd => ?_) false before
  · have hne : d ≠ '\n' := fun heq => hc (heq ▸ hd)
    simpa using hne
  · rw [hq d hd]
    rfl

/-- Two dashes are read with the rest of their line. -/
theorem head?_ways_dashes {c q : List Char} (hc : '\n' ∉ c) (hq : EndsLine q)
    (before : Option Char) :
    (comment.ways ('-' :: '-' :: (c ++ q)).length false ⟨before, '-' :: '-' :: (c ++ q)⟩).head?
      = some (⟨behind before ('-' :: '-' :: c), q⟩, []) := by
  have hdashes : ∀ bound : Nat, ((exactly "--").ways bound false
      ⟨before, '-' :: '-' :: (c ++ q)⟩).head? = some (⟨some '-', c ++ q⟩, []) :=
    fun _ => rfl
  have hbound : (c ++ q).length ≤ ('-' :: '-' :: (c ++ q)).length := by
    simp only [List.length_cons]
    omega
  have hread : (dashComment.ways ('-' :: '-' :: (c ++ q)).length false
      ⟨before, '-' :: '-' :: (c ++ q)⟩).head? = some (⟨behind before ('-' :: '-' :: c), q⟩, []) :=
    head?_ways_next (hdashes _) (head?_ways_line hc hq hbound (some '-'))
  rw [ways_comment before _ (by decide), List.head?_append, hread]
  rfl

theorem head?_ways_indent {indent : List Char} (hindent : ∀ d ∈ indent, isIndent d = true)
    {bound : Nat} {q : List Char} (hbound : (indent ++ '#' :: q).length ≤ bound)
    (before : Option Char) :
    ((many (anyOf [char ' ', char '\t'])).ways bound false ⟨before, indent ++ '#' :: q⟩).head?
      = some (⟨behind before indent, '#' :: q⟩, []) := by
  have hruns : ∀ before, RunsTo ((anyOf [char ' ', char '\t']).ways bound false)
      ⟨before, indent ++ '#' :: q⟩ (⟨behind before indent, '#' :: q⟩, []) := by
    clear hbound before
    induction indent with
    | nil => exact fun before => RunsTo.stop rfl
    | cons d indent ih =>
      intro before
      obtain ⟨hd, hmore⟩ := List.forall_mem_cons.1 hindent
      have hone : ((anyOf [char ' ', char '\t']).ways bound false
          ⟨before, d :: (indent ++ '#' :: q)⟩).head? = some (⟨some d, indent ++ '#' :: q⟩, []) := by
        rcases (by simpa [isIndent] using hd : d = ' ' ∨ d = '\t') with rfl | rfl <;> rfl
      exact RunsTo.step hone (Nat.lt_succ_self _) (ih hmore (some d))
  exact hruns before bound hbound

/-- At the start of a line a hash is read with the indentation before it and with the rest of its
line. -/
theorem head?_ways_hash {indent c q : List Char} (hindent : ∀ d ∈ indent, isIndent d = true)
    (hc : '\n' ∉ c) (hq : EndsLine q) {before : Option Char}
    (hb : before.all (· = '\n') = true) :
    (comment.ways (indent ++ '#' :: (c ++ q)).length false
      ⟨before, indent ++ '#' :: (c ++ q)⟩).head?
      = some (⟨behind (some '#') c, q⟩, []) := by
  have hstart : ∀ bound : Nat, (lineStart.ways bound false
      ⟨before, indent ++ '#' :: (c ++ q)⟩).head? = some (⟨before, indent ++ '#' :: (c ++ q)⟩, []) :=
    fun _ => congrArg List.head? (if_pos hb)
  have hhash : ∀ bound : Nat, ((char '#').ways bound false
      ⟨behind before indent, '#' :: (c ++ q)⟩).head? = some (⟨some '#', c ++ q⟩, []) :=
    fun _ => rfl
  have hbound : (c ++ q).length ≤ (indent ++ '#' :: (c ++ q)).length := by
    simp only [List.length_append, List.length_cons]
    omega
  have hline := head?_ways_line hc hq hbound (some '#')
  have hread := head?_ways_next (hstart _) (head?_ways_next
    (head?_ways_indent hindent (Nat.le_refl _) before) (head?_ways_next (hhash _) hline))
  -- the hash or the indentation stands first, so no other alternative fits
  obtain ⟨d, s, hd, htext⟩ : ∃ d s, d ∉ ['\x27', '\x22', '\x60', '/', '-'] ∧
      indent ++ '#' :: (c ++ q) = d :: s := by
    cases indent with
    | nil => exact ⟨'#', c ++ q, by decide, rfl⟩
    | cons d indent =>
      have hblank := hindent d List.mem_cons_self
      rcases (by simpa [isIndent] using hblank : d = ' ' ∨ d = '\t') with rfl | rfl <;>
        exact ⟨_, _, by decide, rfl⟩
  simp only [List.mem_cons, List.not_mem_nil, or_false, not_or] at hd
  rw [htext] at hread ⊢
  rw [ways_comment before s (by simp [hd]), ways_dashComment_eq_nil before s hd.2.2.2.2,
    List.nil_append]
  exact hread

/-! ### Dumps with a comment -/

/-- The end of a line stays, and what follows is rewritten apart from what stands before. -/
theorem rewriteBehind_comment_break (before : Option Char) (q : List Char) :
    comment.rewriteBehind before ('\n' :: q) = '\n' :: comment.rewriteBehind (some '\n') q := by
  refine rewriteBehind_of_misses isLocal_comment ?_
  refine misses_comment (by decide) (by simp) (by simp) fun _ indent rest hindent => ?_
  exact ne_indent_append (p := ['\n']) (t := q) (by decide) (by decide)
    ⟨by simp, by simp, Or.inr (Or.inl rfl)⟩ hindent

theorem rewrite_comment_break {p : List Char} (hp : IsBare p) (q : List Char) :
    comment.rewrite (p ++ '\n' :: q) = p ++ '\n' :: comment.rewriteBehind (some '\n') q := by
  have hfollows : Follows p ('\n' :: q) := ⟨by simp, by simp, Or.inr (Or.inr (by simp [isIndent]))⟩
  show comment.rewriteBehind none (p ++ '\n' :: q) = _
  rw [rewriteBehind_append isLocal_comment (missesIn_comment hp hfollows none),
    rewriteBehind_comment_break]

/-- A comment that is read with the rest of its line is dropped up to the end of the line. -/
theorem rewrite_comment_of_head? {p c q : List Char} (hp : IsBare p)
    (hfollows : Follows p (c ++ '\n' :: q)) (hne : c ≠ []) {before : Option Char}
    (h : (comment.ways (c ++ '\n' :: q).length false ⟨behind none p, c ++ '\n' :: q⟩).head?
      = some (⟨before, '\n' :: q⟩, [])) :
    comment.rewrite (p ++ (c ++ '\n' :: q)) = comment.rewrite (p ++ '\n' :: q) := by
  have hshorter : ('\n' :: q).length < (c ++ '\n' :: q).length := by
    have hpos := List.length_pos_iff.2 hne
    rw [List.length_append]
    omega
  rw [rewrite_comment_break hp]
  show comment.rewriteBehind none (p ++ (c ++ '\n' :: q)) = _
  rw [rewriteBehind_append isLocal_comment (missesIn_comment hp hfollows none),
    rewriteBehind_of_way isLocal_comment h hshorter, List.nil_append, rewriteBehind_comment_break]

theorem rewrite_comment_dashes {p c : List Char} (hp : IsBare p) (hend : p.getLast? ≠ some '-')
    (hc : '\n' ∉ c) (q : List Char) :
    comment.rewrite (p ++ ('-' :: '-' :: c ++ '\n' :: q)) = comment.rewrite (p ++ '\n' :: q) := by
  refine rewrite_comment_of_head? hp ⟨fun h => absurd h hend, by simp, ?_⟩ (List.cons_ne_nil _ _)
    (head?_ways_dashes hc (endsLine_break q) _)
  exact Or.inr (Or.inr (by simp [isIndent]))

/-- A comment behind a hash is dropped with the indentation in front of it. -/
theorem rewrite_comment_hash {p indent c : List Char} (hp : IsBare p)
    (hend : p = [] ∨ p.getLast? = some '\n') (hindent : ∀ d ∈ indent, isIndent d = true)
    (hc : '\n' ∉ c) (q : List Char) :
    comment.rewrite (p ++ (indent ++ '#' :: c ++ '\n' :: q)) = comment.rewrite (p ++ '\n' :: q) := by
  have hstart : (behind none p).all (· = '\n') = true := by
    rw [behind_eq_getLast?]
    rcases hend with rfl | hlast
    · rfl
    · rw [hlast]
      rfl
  have hline : indent ++ '#' :: c ++ '\n' :: q = indent ++ '#' :: (c ++ '\n' :: q) :=
    List.append_assoc indent ('#' :: c) _
  have hother : ∀ x, x ≠ '\n' → p.getLast? ≠ some x := by
    rintro x hx hlast
    rcases hend with rfl | hbreak
    · cases hlast
    · exact hx (Option.some.inj (hlast.symm.trans hbreak))
  have hread := head?_ways_hash hindent hc (endsLine_break q) hstart
  rw [← hline] at hread
  refine rewrite_comment_of_head? hp ⟨?_, ?_, hend.imp_right Or.inl⟩ (by simp) hread
  · exact fun hlast => absurd hlast (hother '-' (by decide))
  · exact fun hlast => absurd hlast (hother '/' (by decide))

/-- The graph of a dump depends on its portable text only. -/
theorem graph_congr_portable {dialect : Dialect} {sql sql' : String}
    (h : dialect.portable sql = dialect.portable sql') :
    Dump.graph dialect sql = Dump.graph dialect sql' := by
  rw [Dump.graph, Dump.graph, Dump.graphWith, Dump.graphWith, Dump.outlineWith, Dump.outlineWith, h]

/-- Dumps from which the comments leave the same text give the same graph. -/
theorem graph_congr_comment (dialect : Dialect) {sql sql' : String}
    (h : comment.rewrite sql.toList = comment.rewrite sql'.toList) :
    Dump.graph dialect sql = Dump.graph dialect sql' :=
  graph_congr_portable (by rw [portable, portable, h])

end SchemaAudit.Dialect
