import SchemaAudit.Proofs.Dialect.Comment
import SchemaAudit.Proofs.Token.Closing

/-!
# What goes with the comments of a text

The pattern for comments has an alternative for each kind of comment, which drops it, and one for
each kind of quoted text, which keeps it. At any place at most one of them fits, so that one step
over a text can be told by what stands there.

* `rewriteBehind_dashes`, `rewriteBehind_hash`, `rewriteBehind_block`: comments go.
* `rewriteBehind_literal`, `rewriteBehind_quotedName`: closed texts between quotes stay, with what
  looks like a comment in them.
* `rewriteBehind_comment_cases`: at every place the text goes on with what stays there, or a comment
  goes.
-/

namespace SchemaAudit.Dialect

open Pattern
open Token (IsBody)

/-! ### Comments to the end of a line -/

/-- At the end of a line it does not matter what stands before. -/
theorem rewriteBehind_of_endsLine {q : List Char} (hq : EndsLine q) (before before' : Option Char) :
    comment.rewriteBehind before q = comment.rewriteBehind before' q := by
  cases q with
  | nil => rw [rewriteBehind, rewriteBehind, rewriteFrom, rewriteFrom]
  | cons c q =>
    obtain rfl := hq c rfl
    rw [rewriteBehind_comment_break, rewriteBehind_comment_break]

theorem rewriteBehind_dashes {c q : List Char} (hc : '\n' ∉ c) (hq : EndsLine q)
    (before before' : Option Char) :
    comment.rewriteBehind before ('-' :: '-' :: (c ++ q)) = comment.rewriteBehind before' q := by
  have hshorter : q.length < ('-' :: '-' :: (c ++ q)).length := by
    simp only [List.length_cons, List.length_append]
    omega
  rw [rewriteBehind_of_way isLocal_comment (head?_ways_dashes hc hq before) hshorter,
    List.nil_append]
  exact rewriteBehind_of_endsLine hq _ _

theorem rewriteBehind_hash {indent c q : List Char} (hindent : ∀ d ∈ indent, isIndent d = true)
    (hc : '\n' ∉ c) (hq : EndsLine q) {before : Option Char}
    (hb : before.all (· = '\n') = true) (before' : Option Char) :
    comment.rewriteBehind before (indent ++ '#' :: (c ++ q))
      = comment.rewriteBehind before' q := by
  have hshorter : q.length < (indent ++ '#' :: (c ++ q)).length := by
    simp only [List.length_append, List.length_cons]
    omega
  rw [rewriteBehind_of_way isLocal_comment (head?_ways_hash hindent hc hq hb) hshorter,
    List.nil_append]
  exact rewriteBehind_of_endsLine hq _ _

/-! ### Comments inside of a line -/

/-- What stands behind the first star with a slash. -/
def behindBlock : List Char → Option (List Char)
  | [] => none
  | [_] => none
  | c :: d :: rest => if c = '*' ∧ d = '/' then some rest else behindBlock (d :: rest)

theorem afterBlockComment_eq (s : List Char) :
    Token.afterBlockComment s = (behindBlock s).getD [] := by
  fun_induction behindBlock s with
  | case1 => rfl
  | case2 => rfl
  | case3 c d rest h => simp [Token.afterBlockComment, h]
  | case4 c d rest h ih =>
    rw [Token.afterBlockComment, ih]
    simp [h]

theorem behindBlock_eq_none_iff {s : List Char} :
    behindBlock s = none ↔ ¬['*', '/'] <:+: s := by
  fun_induction behindBlock s with
  | case1 => simp
  | case2 c => simp [List.infix_cons_iff]
  | case3 c d rest hmark =>
    obtain ⟨rfl, rfl⟩ := hmark
    simpa using ⟨[], rest, rfl⟩
  | case4 c d rest hmark ih =>
    rw [ih, List.infix_cons_iff (a := c)]
    have hfirst : ¬['*', '/'] <+: c :: d :: rest := by
      simpa [List.cons_prefix_cons, eq_comm] using hmark
    simp [hfirst]

/-- Rounds that are as few as possible are taken one by one until what follows fits. -/
theorem after_repeated_succ {ways second : Place → List Way} {rounds : Nat} {place place' : Place}
    (hstop : second place = []) (hround : ways place = [(place', [])]) :
    after (repeated false ways (rounds + 1) place) second
      = after (repeated false ways rounds place') second := by
  rw [repeated, hround, after_singleton]
  simp [after, hstop]

theorem ways_starSlash {bound : Nat} {keep : Bool} {before : Option Char} {c d : Char}
    {s : List Char} (h : ¬(c = '*' ∧ d = '/')) :
    (exactly "*/").ways bound keep ⟨before, c :: d :: s⟩ = [] := by
  refine List.eq_nil_iff_forall_not_mem.2 fun m hm => h ?_
  obtain ⟨rfl, htail⟩ := List.cons.inj (eq_of_mem_ways_pair hm)
  exact ⟨rfl, (List.cons.inj htail).1⟩

/-- The shortest text up to a star with a slash. -/
theorem head?_ways_few {s t : List Char} (h : behindBlock s = some t) {bound : Nat}
    (hbound : s.length ≤ bound) (before : Option Char) :
    ((next (few (one fun _ => true)) (exactly "*/")).ways bound false ⟨before, s⟩).head?
      = some (⟨some '/', t⟩, []) := by
  have hrounds : ∀ rounds, s.length ≤ rounds → ∀ before,
      (after (repeated false ((one fun _ => true).ways bound false) rounds ⟨before, s⟩)
        ((exactly "*/").ways bound false)).head? = some (⟨some '/', t⟩, []) := by
    clear hbound before
    fun_induction behindBlock s with
    | case1 => cases h
    | case2 => cases h
    | case3 c d rest hmark =>
      obtain ⟨rfl, rfl⟩ := hmark
      obtain rfl := Option.some.inj h
      intro rounds hrounds before
      cases rounds with
      | zero => exact absurd hrounds (by simp)
      | succ rounds => rfl
    | case4 c d rest hmark ih =>
      intro rounds hrounds before
      cases rounds with
      | zero => exact absurd hrounds (by simp)
      | succ rounds =>
        rw [after_repeated_succ (ways_starSlash hmark) rfl]
        exact ih h rounds (Nat.le_of_succ_le_succ hrounds) (some c)
  exact hrounds bound hbound before

theorem length_lt_of_behindBlock {s t : List Char} (h : behindBlock s = some t) :
    t.length < s.length := by
  fun_induction behindBlock s with
  | case1 => cases h
  | case2 => cases h
  | case3 c d rest hmark =>
    obtain rfl := Option.some.inj h
    simp only [List.length_cons]
    omega
  | case4 c d rest hmark ih => exact Nat.lt_succ_of_lt (ih h)

theorem rewriteBehind_block {s t : List Char} (h : behindBlock s = some t) (before : Option Char) :
    comment.rewriteBehind before ('/' :: '*' :: s) = ' ' :: comment.rewriteBehind (some '/') t := by
  have hlt := length_lt_of_behindBlock h
  have hbound : s.length ≤ ('/' :: '*' :: s).length := by
    simp only [List.length_cons]
    omega
  have hopen : ((exactly "/*").ways ('/' :: '*' :: s).length false ⟨before, '/' :: '*' :: s⟩).head?
      = some (⟨some '*', s⟩, []) := rfl
  have hclosed := head?_ways_next hopen (head?_ways_few h hbound (some '*'))
  have hput : ((put " ".toList).ways ('/' :: '*' :: s).length false ⟨some '/', t⟩).head?
      = some (⟨some '/', t⟩, [' ']) := rfl
  have hread : (blockComment.ways ('/' :: '*' :: s).length false ⟨before, '/' :: '*' :: s⟩).head?
      = some (⟨some '/', t⟩, [' ']) := head?_ways_next hclosed hput
  have hway : (comment.ways ('/' :: '*' :: s).length false ⟨before, '/' :: '*' :: s⟩).head?
      = some (⟨some '/', t⟩, [' ']) := by
    rw [ways_comment_of_ne before _ (by decide), List.head?_append, hread]
    rfl
  have hshorter : t.length < ('/' :: '*' :: s).length := by
    simp only [List.length_cons]
    omega
  exact rewriteBehind_of_way isLocal_comment hway hshorter

/-- A comment that is not closed does not fit. -/
theorem ways_blockComment_of_unclosed {s : List Char} (h : behindBlock s = none) (bound : Nat)
    (before : Option Char) : blockComment.ways bound false ⟨before, '/' :: '*' :: s⟩ = [] := by
  refine List.eq_nil_iff_forall_not_mem.2 fun m hm => behindBlock_eq_none_iff.1 h ?_
  obtain ⟨m₁, h₁, -⟩ := mem_after.1 hm
  obtain ⟨m₂, h₂, m₃, h₃, -⟩ := mem_after.1 h₁
  obtain ⟨m₄, h₄, m₅, h₅, -⟩ := mem_after.1 h₃
  obtain ⟨-, htail⟩ := List.cons.inj (eq_of_mem_ways_pair h₂)
  obtain ⟨-, hrest⟩ := List.cons.inj htail
  have hsuffix := rest_isSuffix h₄
  rw [← hrest, eq_of_mem_ways_pair h₅] at hsuffix
  exact (List.prefix_append ['*', '/'] m₅.1.rest).isInfix.trans hsuffix.isInfix

/-! ### Texts between quotes -/

section Quotes

variable {bound : Nat} {x : Char} (before : Option Char) (s : List Char)

theorem ways_comment_of_quote (h : x = '\x22' ∨ x = '\x60') :
    comment.ways bound false ⟨before, x :: s⟩ = (quotedBy x).ways bound false ⟨before, x :: s⟩ := by
  rw [ways_comment_eq]
  rcases h with rfl | rfl
  · rw [ways_quotedLiteral_eq_nil before s (by decide),
      ways_quotedBy_eq_nil before s (show '\x22' ≠ '\x60' by decide),
      ways_blockComment_eq_nil before s (by decide), ways_dashComment_eq_nil before s (by decide),
      ways_hashComment_eq_nil before s (by decide) (by decide)]
    simp
  · rw [ways_quotedLiteral_eq_nil before s (by decide),
      ways_quotedBy_eq_nil before s (show '\x60' ≠ '\x22' by decide),
      ways_blockComment_eq_nil before s (by decide), ways_dashComment_eq_nil before s (by decide),
      ways_hashComment_eq_nil before s (by decide) (by decide)]
    simp

theorem ways_comment_of_literal : comment.ways bound false ⟨before, '\x27' :: s⟩
    = (kept quotedLiteral).ways bound false ⟨before, '\x27' :: s⟩ := by
  rw [ways_comment_eq, ways_quotedBy_eq_nil before s (by decide),
    ways_quotedBy_eq_nil before s (by decide), ways_blockComment_eq_nil before s (by decide),
    ways_dashComment_eq_nil before s (by decide),
    ways_hashComment_eq_nil before s (by decide) (by decide)]
  simp

end Quotes

theorem head?_ways_quotedBy {x : Char} {u : List Char} (hu : x ∉ u) (before : Option Char)
    (t : List Char) : ((quotedBy x).ways (x :: (u ++ x :: t)).length false
      ⟨before, x :: (u ++ x :: t)⟩).head? = some (⟨some x, t⟩, x :: (u ++ [x])) := by
  have hopen : ∀ bound : Nat, ((char x).ways bound true ⟨before, x :: (u ++ x :: t)⟩).head?
      = some (⟨some x, u ++ x :: t⟩, [x]) := fun _ => by simp [char, ways]
  have hbody := head?_ways_many_append (f := fun c => !([x] : List Char).contains c)
    (Nat.le_succ (u ++ x :: t).length) (fun d hd => by simpa using fun h : d = x => hu (h ▸ hd))
    (by simp) true (some x)
  have hclose : ∀ bound : Nat, ((char x).ways bound true ⟨behind (some x) u, x :: t⟩).head?
      = some (⟨some x, t⟩, [x]) := fun _ => by simp [char, ways]
  exact head?_ways_next (hopen _) (head?_ways_next hbody (hclose _))

theorem rewriteBehind_quotedBy {x : Char} (hx : x = '\x22' ∨ x = '\x60') {u : List Char}
    (hu : x ∉ u) (before : Option Char) (t : List Char) :
    comment.rewriteBehind before (x :: (u ++ x :: t))
      = x :: (u ++ x :: comment.rewriteBehind (some x) t) := by
  have hread := head?_ways_quotedBy hu before t
  rw [← ways_comment_of_quote before _ hx] at hread
  have hshorter : t.length < (x :: (u ++ x :: t)).length := by
    simp only [List.length_cons, List.length_append]
    omega
  rw [rewriteBehind_of_way isLocal_comment hread hshorter]
  simp

/-! ### Literals -/

/-- What a literal repeats: another character than a quote or a backslash, a backslash with the
character behind it, or two quotes. -/
def literalPart : Pattern :=
  anyOf [noneOf "\x27\\", each [char '\\', noneOf "\n"], exactly "\x27\x27"]

section LiteralPart

variable (bound : Nat) (before : Option Char)

theorem head?_ways_literalPart_plain {c : Char} (hquote : c ≠ '\x27') (hescape : c ≠ '\\')
    (s : List Char) : (literalPart.ways bound true ⟨before, c :: s⟩).head?
      = some (⟨some c, s⟩, [c]) := by
  have hone : (noneOf "\x27\\").ways bound true ⟨before, c :: s⟩ = [(⟨some c, s⟩, [c])] := by
    simp [noneOf, ways, hquote, hescape]
  show (_ ++ _ : List Way).head? = _
  rw [hone]
  rfl

theorem head?_ways_literalPart_escaped {c : Char} (hc : c ≠ '\n') (s : List Char) :
    (literalPart.ways bound true ⟨before, '\\' :: c :: s⟩).head?
      = some (⟨some c, s⟩, ['\\', c]) := by
  have hone : (noneOf "\n").ways bound true ⟨some '\\', c :: s⟩ = [(⟨some c, s⟩, [c])] := by
    simp [noneOf, ways, hc]
  have htwo : (each [char '\\', noneOf "\n"]).ways bound true ⟨before, '\\' :: c :: s⟩
      = [(⟨some c, s⟩, ['\\', c])] := by
    rw [ways_each_cons]
    show after [(⟨some '\\', c :: s⟩, ['\\'])] ((noneOf "\n").ways bound true) = _
    rw [after_singleton, hone]
    rfl
  have hnone : (noneOf "\x27\\").ways bound true ⟨before, '\\' :: c :: s⟩ = [] := rfl
  show (_ ++ (_ ++ _) : List Way).head? = _
  rw [hnone, htwo]
  rfl

theorem head?_ways_literalPart_double (s : List Char) :
    (literalPart.ways bound true ⟨before, '\x27' :: '\x27' :: s⟩).head?
      = some (⟨some '\x27', s⟩, ['\x27', '\x27']) := rfl

theorem ways_literalPart_close {t : List Char} (ht : ∀ c ∈ t.head?, c ≠ '\x27') :
    literalPart.ways bound true ⟨before, '\x27' :: t⟩ = [] := by
  have hpair : (exactly "\x27\x27").ways bound true ⟨before, '\x27' :: t⟩ = [] := by
    refine List.eq_nil_iff_forall_not_mem.2 fun m hm => ?_
    obtain ⟨-, htail⟩ := List.cons.inj (eq_of_mem_ways_pair hm)
    exact ht '\x27' (by rw [htail]; rfl) rfl
  show (noneOf "\x27\\").ways bound true _ ++ ((each [char '\\', noneOf "\n"]).ways bound true _
    ++ (exactly "\x27\x27").ways bound true _) = _
  rw [hpair]
  rfl

end LiteralPart

theorem head?_ways_literalParts {p t : List Char} (hp : IsBody '\x27' true p)
    (hbreak : ¬['\\', '\n'] <:+: p) (ht : ∀ c ∈ t.head?, c ≠ '\x27') {bound : Nat}
    (hbound : (p ++ '\x27' :: t).length ≤ bound) (before : Option Char) :
    ((many literalPart).ways bound true ⟨before, p ++ '\x27' :: t⟩).head?
      = some (⟨behind before p, '\x27' :: t⟩, p) := by
  have hruns : ∀ before, RunsTo (literalPart.ways bound true) ⟨before, p ++ '\x27' :: t⟩
      (⟨behind before p, '\x27' :: t⟩, p) := by
    clear hbound before
    -- by the parts of the body, each of which takes one round
    induction hp with
    | nil => exact fun before => RunsTo.stop (ways_literalPart_close bound before ht)
    | @double p hp ih =>
      intro before
      have hrest := ih (fun h => hbreak (h.trans ⟨['\x27', '\x27'], [], by simp⟩)) (some '\x27')
      exact RunsTo.step (head?_ways_literalPart_double bound before _)
        (Nat.lt_succ_of_lt (Nat.lt_succ_self _)) hrest
    | @escaped c p _ _ hp ih =>
      intro before
      have hc : c ≠ '\n' := fun h => hbreak ⟨[], p, by rw [h]; rfl⟩
      have hrest := ih (fun h => hbreak (h.trans ⟨['\\', c], [], by simp⟩)) (some c)
      exact RunsTo.step (head?_ways_literalPart_escaped bound before hc _)
        (Nat.lt_succ_of_lt (Nat.lt_succ_self _)) hrest
    | @plain c p hquote hescape hp ih =>
      intro before
      have hbackslash : c ≠ '\\' := by simpa using hescape
      have hrest := ih (fun h => hbreak (h.trans ⟨[c], [], by simp⟩)) (some c)
      exact RunsTo.step (head?_ways_literalPart_plain bound before hquote hbackslash _)
        (Nat.lt_succ_self _) hrest
  exact hruns before bound hbound

/-- A literal without a line break behind a backslash stays. -/
theorem rewriteBehind_literal {p t : List Char} (hp : IsBody '\x27' true p)
    (hbreak : ¬['\\', '\n'] <:+: p) (ht : ∀ c ∈ t.head?, c ≠ '\x27') (before : Option Char) :
    comment.rewriteBehind before ('\x27' :: (p ++ '\x27' :: t))
      = '\x27' :: (p ++ '\x27' :: comment.rewriteBehind (some '\x27') t) := by
  have hopen : ∀ bound : Nat, ((char '\x27').ways bound true
      ⟨before, '\x27' :: (p ++ '\x27' :: t)⟩).head? = some (⟨some '\x27', p ++ '\x27' :: t⟩, ['\x27']) :=
    fun _ => rfl
  have hbody := head?_ways_literalParts hp hbreak ht (Nat.le_succ (p ++ '\x27' :: t).length)
    (some '\x27')
  have hclose : ∀ bound : Nat, ((char '\x27').ways bound true
      ⟨behind (some '\x27') p, '\x27' :: t⟩).head? = some (⟨some '\x27', t⟩, ['\x27']) := fun _ => rfl
  have hread : ((kept quotedLiteral).ways ('\x27' :: (p ++ '\x27' :: t)).length false
      ⟨before, '\x27' :: (p ++ '\x27' :: t)⟩).head?
      = some (⟨some '\x27', t⟩, '\x27' :: (p ++ ['\x27'])) :=
    head?_ways_next (hopen _) (head?_ways_next hbody (hclose _))
  rw [← ways_comment_of_literal] at hread
  have hshorter : t.length < ('\x27' :: (p ++ '\x27' :: t)).length := by
    simp only [List.length_cons, List.length_append]
    omega
  rw [rewriteBehind_of_way isLocal_comment hread hshorter]
  simp

/-- A name between quotes stays, whether quotes stand twice in it or not: the pattern reads it in
pieces, each from one quote to the next. -/
theorem rewriteBehind_quotedName {x : Char} (hx : x = '\x22' ∨ x = '\x60') {p : List Char}
    (hp : IsBody x false p) (before : Option Char) (t : List Char) :
    comment.rewriteBehind before (x :: (p ++ x :: t))
      = x :: (p ++ x :: comment.rewriteBehind (some x) t) := by
  have hpiece : ∀ u : List Char, x ∉ u → ∀ before,
      comment.rewriteBehind before (x :: (u ++ (p ++ x :: t)))
        = x :: (u ++ (p ++ x :: comment.rewriteBehind (some x) t)) := by
    clear before
    induction hp with
    | nil => exact fun u hu before => rewriteBehind_quotedBy hx hu before t
    | @double p _ ih =>
      intro u hu before
      have hnext := ih [] List.not_mem_nil (some x)
      simp only [List.nil_append] at hnext
      simp only [List.cons_append]
      rw [rewriteBehind_quotedBy hx hu, hnext]
    | escaped hescapes => cases hescapes
    | @plain c p hc _ _ ih =>
      intro u hu before
      have hmore : x ∉ u ++ [c] := by simpa [hu] using hc.symm
      simpa using ih (u ++ [c]) hmore before
  exact hpiece [] List.not_mem_nil before

/-! ### What one step does -/

/-- Indentation, and then a hash. -/
def startsHash (s : List Char) : Bool := (s.dropWhile isIndent).head? == some '#'

theorem startsHash_iff {s : List Char} : startsHash s = true ↔
    ∃ indent t, (∀ d ∈ indent, isIndent d = true) ∧ s = indent ++ '#' :: t := by
  rw [startsHash, beq_iff_eq]
  constructor
  · intro h
    obtain ⟨t, ht⟩ := List.head?_eq_some_iff.1 h
    refine ⟨s.takeWhile isIndent, t, List.all_eq_true.1 List.all_takeWhile, ?_⟩
    rw [← ht, List.takeWhile_append_dropWhile]
  · rintro ⟨indent, t, hindent, rfl⟩
    have hstop : ∀ d ∈ ('#' :: t).head?, isIndent d = false := by simp [isIndent]
    rw [(Text.takeWhile_dropWhile_append hindent hstop).2]
    rfl

/-- The first line of a text, and what stands at its end. -/
theorem exists_line (s : List Char) : ∃ c q, s = c ++ q ∧ '\n' ∉ c ∧ EndsLine q := by
  refine ⟨s.takeWhile (· ≠ '\n'), s.dropWhile (· ≠ '\n'), (List.takeWhile_append_dropWhile).symm,
    fun h => ?_, fun d hd => ?_⟩
  · exact absurd (List.all_eq_true.1 List.all_takeWhile _ h) (by simp)
  · simpa using Text.head?_dropWhile_eq_false (· ≠ '\n') s d hd

theorem afterLine_append {c q : List Char} (hc : '\n' ∉ c) (hq : EndsLine q) :
    Token.afterLine (c ++ q) = q := by
  refine (Text.takeWhile_dropWhile_append (fun d hd => ?_) fun d hd => ?_).2
  · have hne : d ≠ '\n' := fun heq => hc (heq ▸ hd)
    simpa using hne
  · rw [hq d hd]
    rfl

/-- A line that begins with indentation and a hash, up to its end. -/
theorem exists_hashLine {c : Char} {s : List Char} (h : startsHash (c :: s) = true) :
    ∃ indent u, (∀ d ∈ indent, isIndent d = true) ∧ '\n' ∉ u ∧ EndsLine (Token.afterLine s)
      ∧ c :: s = indent ++ '#' :: (u ++ Token.afterLine s) := by
  obtain ⟨indent, t, hindent, htext⟩ := startsHash_iff.1 h
  obtain ⟨u, q, rfl, hu, hq⟩ := exists_line t
  have hbreak : '\n' ∉ indent ++ '#' :: u := by
    have hall : '\n' ∉ indent := fun hm => absurd (hindent '\n' hm) (by decide)
    simp [hall, hu]
  have hafter : Token.afterLine s = q := by
    cases indent with
    | nil =>
      obtain ⟨-, rfl⟩ := List.cons.inj htext
      exact afterLine_append hu hq
    | cons d indent =>
      obtain ⟨-, rfl⟩ := List.cons.inj htext
      have hrest := afterLine_append (List.not_mem_of_not_mem_cons hbreak) hq
      simpa using hrest
  rw [hafter]
  exact ⟨indent, u, hindent, hu, hq, htext⟩

theorem eq_of_mem_ways_enclosed {bound : Nat} {x : Char} {q : Pattern} (hq : q.isSilent = true)
    {before : Option Char} {s : List Char} {m : Way}
    (h : m ∈ (kept (next (char x) (next q (char x)))).ways bound false ⟨before, s⟩) :
    s = m.2 ++ m.1.rest ∧ m.1.before = some x ∧ m.1.rest.length < s.length := by
  have hsilent : (next (char x) (next q (char x))).isSilent = true := by
    simp [isSilent, hq, char]
  have hcopies : Copies true ⟨before, s⟩ m := copies_of_isSilent hsilent h
  have hreader : (kept (next (char x) (next q (char x)))).isReader = true := rfl
  refine ⟨hcopies, ?_, rest_length_lt hreader h⟩
  obtain ⟨m₁, -, m₂, h₂, rfl⟩ := mem_after.1 h
  obtain ⟨m₃, -, m₄, h₄, rfl⟩ := mem_after.1 h₂
  obtain ⟨d, hd, -, hm⟩ := exists_of_mem_ways_one h₄
  rw [hm, of_decide_eq_true hd]

/-- A piece stays that is one character or stands between quotes, in front of which the character
`c` stands. -/
def Stays (before : Option Char) (c : Char) (s : List Char) : Prop :=
  ∃ p t, s = p ++ t ∧ (p = [] ∨ c ∈ ['\x27', '\x22', '\x60'])
    ∧ comment.rewriteBehind before (c :: s) = c :: (p ++ comment.rewriteBehind (some c) t)

/-- Two dashes, or a hash at the start of a line, go with the rest of the line. -/
def DropsLine (before : Option Char) (c : Char) (s : List Char) : Prop :=
  ((c = '-' ∧ s.head? = some '-') ∨ (before.all (· = '\n') = true ∧ startsHash (c :: s) = true))
    ∧ ∃ t, t <:+ s ∧ EndsLine t ∧ ∀ before',
      comment.rewriteBehind before (c :: s) = comment.rewriteBehind before' t

/-- A slash with a star goes with all up to a star with a slash, and leaves a space. -/
def DropsBlock (before : Option Char) (c : Char) (s : List Char) : Prop :=
  ∃ r t, c = '/' ∧ s = '*' :: r ∧ behindBlock r = some t
    ∧ comment.rewriteBehind before (c :: s) = ' ' :: comment.rewriteBehind (some '/') t

theorem stays_of_misses {before : Option Char} {c : Char} {s : List Char}
    (h : comment.Misses ⟨before, c :: s⟩) : Stays before c s :=
  ⟨[], s, rfl, .inl rfl, rewriteBehind_of_misses isLocal_comment h⟩

theorem stays_of_quote {c : Char} (hc : c ∈ ['\x27', '\x22', '\x60']) (before : Option Char)
    (s : List Char) : Stays before c s := by
  by_cases hmiss : comment.Misses ⟨before, c :: s⟩
  · exact stays_of_misses hmiss
  · obtain ⟨m, hm⟩ : ∃ m, (comment.ways (c :: s).length false ⟨before, c :: s⟩).head? = some m := by
      cases h : comment.ways (c :: s).length false ⟨before, c :: s⟩ with
      | nil => exact absurd h hmiss
      | cons m _ => exact ⟨m, rfl⟩
    have hmem := List.mem_of_mem_head? (Option.mem_def.2 hm)
    obtain ⟨hread, hbefore, hlt⟩ :
        c :: s = m.2 ++ m.1.rest ∧ m.1.before = some c ∧ m.1.rest.length < (c :: s).length := by
      simp only [List.mem_cons, List.not_mem_nil, or_false] at hc
      rcases hc with rfl | rfl | rfl
      · rw [ways_comment_of_literal] at hmem
        exact eq_of_mem_ways_enclosed rfl hmem
      · rw [ways_comment_of_quote before s (.inl rfl)] at hmem
        exact eq_of_mem_ways_enclosed rfl hmem
      · rw [ways_comment_of_quote before s (.inr rfl)] at hmem
        exact eq_of_mem_ways_enclosed rfl hmem
    have hwrite := rewriteBehind_of_way isLocal_comment hm hlt
    obtain ⟨p, hp⟩ : ∃ p, m.2 = c :: p := by
      cases hw : m.2 with
      | nil =>
        rw [hw, List.nil_append] at hread
        rw [← hread] at hlt
        exact absurd hlt (Nat.lt_irrefl _)
      | cons d p =>
        rw [hw] at hread
        exact ⟨p, by rw [(List.cons.inj hread).1]⟩
    rw [hp] at hread hwrite
    rw [hbefore] at hwrite
    exact ⟨p, m.1.rest, (List.cons.inj hread).2, .inr hc, hwrite⟩

/-- **At every place the text goes on with what stays there, or a comment goes.** -/
theorem rewriteBehind_comment_cases (before : Option Char) (c : Char) (s : List Char) :
    Stays before c s ∨ DropsLine before c s ∨ DropsBlock before c s := by
  by_cases hquote : c ∈ ['\x27', '\x22', '\x60']
  · exact .inl (stays_of_quote hquote before s)
  by_cases hhash : before.all (· = '\n') = true ∧ startsHash (c :: s) = true
  · obtain ⟨hline, hstarts⟩ := hhash
    obtain ⟨indent, u, hindent, hu, hq, htext⟩ := exists_hashLine hstarts
    refine .inr (.inl ⟨.inr ⟨hline, hstarts⟩, _, List.dropWhile_suffix _, hq, fun before' => ?_⟩)
    rw [htext]
    exact rewriteBehind_hash hindent hu hq hline before'
  have hnoHash : before.all (· = '\n') = true → ∀ indent t, (∀ d ∈ indent, isIndent d = true) →
      c :: s ≠ indent ++ '#' :: t := fun hline indent t hindent htext =>
    hhash ⟨hline, startsHash_iff.2 ⟨indent, t, hindent, htext⟩⟩
  by_cases hdash : c = '-' ∧ s.head? = some '-'
  · obtain ⟨rfl, hs⟩ := hdash
    obtain ⟨t, rfl⟩ := List.head?_eq_some_iff.1 hs
    obtain ⟨u, q, rfl, hu, hq⟩ := exists_line t
    refine .inr (.inl ⟨.inl ⟨rfl, rfl⟩, q, ⟨'-' :: u, rfl⟩, hq, fun before' => ?_⟩)
    exact rewriteBehind_dashes hu hq before before'
  have hnoDash : c = '-' → s.head? ≠ some '-' := fun hc hs => hdash ⟨hc, hs⟩
  by_cases hslash : c = '/' ∧ s.head? = some '*'
  · obtain ⟨rfl, hs⟩ := hslash
    obtain ⟨r, rfl⟩ := List.head?_eq_some_iff.1 hs
    cases hblock : behindBlock r with
    | some t => exact .inr (.inr ⟨r, t, rfl, rfl, hblock, rewriteBehind_block hblock before⟩)
    | none =>
      have hways := ways_blockComment_of_unclosed hblock ('/' :: '*' :: r).length before
      exact .inl (stays_of_misses (misses_comment_of hquote hways hnoDash hnoHash))
  · exact .inl (stays_of_misses (misses_comment hquote (fun hc hs => hslash ⟨hc, hs⟩) hnoDash hnoHash))

end SchemaAudit.Dialect
