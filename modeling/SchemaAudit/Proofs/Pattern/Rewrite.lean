import SchemaAudit.Proofs.Pattern.Ways
import SchemaAudit.Proofs.Text.Search

/-!
# Rewriting a text piece by piece

For most patterns what happens to a piece of a text depends only on the character before it and on
what stands behind it. Such patterns run over nothing, and each of their rounds reads something.

* `IsLocal`, `rewriteBehind`: these patterns, and the rewriting of a text behind a character.
* `rewriteBehind_of_misses`, `rewriteBehind_of_way`: the two steps of it.
* `rewriteBehind_append`: a stretch in which the pattern fits nowhere stays as it is.
* `RunsTo`: where a repetition that prefers more rounds ends.
* `head?_ways_many`, `head?_ways_many_append`: a repetition of single characters reads all of a
  run.
-/

namespace SchemaAudit.Pattern

/-- A pattern that runs over nothing, and in which every round reads something. -/
structure IsLocal (p : Pattern) : Prop where
  steady : p.isSteady = true
  still : ∀ c, p.runsOver c = false

/-- The text rewritten behind a character, with as many rounds as it is long. -/
def rewriteBehind (p : Pattern) (before : Option Char) (s : List Char) : List Char :=
  rewriteFrom s.length p false before s

/-- The character before a place that lies behind `s`. -/
def behind : (before : Option Char) → (s : List Char) → Option Char
  | before, [] => before
  | _, c :: s => behind (some c) s

theorem behind_append (before : Option Char) (s t : List Char) :
    behind before (s ++ t) = behind (behind before s) t := by
  induction s generalizing before with
  | nil => rfl
  | cons c s ih => exact ih (some c)

theorem behind_eq_getLast? (before : Option Char) (s : List Char) :
    behind before s = s.getLast?.or before := by
  induction s generalizing before with
  | nil => rfl
  | cons c s ih =>
    rw [behind, ih]
    cases s with
    | nil => rfl
    | cons d s =>
      rw [List.getLast?_cons_cons, List.getLast?_cons]
      rfl

/-- The pattern does not fit at the place. -/
def Misses (p : Pattern) (place : Place) : Prop := p.ways place.rest.length false place = []

/-- The pattern fits nowhere in `s`, before which `before` and behind which `t` stands. -/
def MissesIn (p : Pattern) : (before : Option Char) → (s t : List Char) → Prop
  | _, [], _ => True
  | before, c :: s, t => p.Misses ⟨before, c :: (s ++ t)⟩ ∧ MissesIn p (some c) s t

theorem missesIn_append {p : Pattern} {before : Option Char} {s t u : List Char} :
    p.MissesIn before (s ++ t) u
      ↔ p.MissesIn before s (t ++ u) ∧ p.MissesIn (behind before s) t u := by
  induction s generalizing before with
  | nil => simp [MissesIn, behind]
  | cons c s ih =>
    rw [List.cons_append, MissesIn, MissesIn, ih, and_assoc, List.append_assoc, behind]

/-! ### Steps of a rewriting -/

section

variable {p : Pattern} (hp : p.isSteady = true) {bound : Nat}

include hp

/-- **A stretch in which the pattern fits nowhere stays as it is**, and no refusal is left behind it
if the pattern does not run over what follows. -/
theorem rewriteFrom_append {refused : Bool} {before : Option Char} {s t : List Char}
    (hbound : (s ++ t).length ≤ bound) (h : p.MissesIn before s t)
    (ht : ∀ c ∈ t.head?, p.runsOver c = false) :
    rewriteFrom bound p refused before (s ++ t)
      = s ++ rewriteFrom bound p false (behind before s) t := by
  induction s generalizing refused before with
  | nil =>
    cases t with
    | nil => rw [List.nil_append, List.nil_append, rewriteFrom, rewriteFrom]
    | cons c t =>
      rw [List.nil_append, rewriteFrom, rewriteFrom, ht c rfl, Bool.and_false, Bool.and_false]
      rfl
  | cons c s ih =>
    obtain ⟨hc, hs⟩ := h
    have hrest : ∀ refused, rewriteFrom bound p refused (some c) (s ++ t)
        = s ++ rewriteFrom bound p false (behind (some c) s) t := fun _ =>
      ih (Nat.le_of_succ_le hbound) hs
    have hnone : p.matchAt bound ⟨before, c :: (s ++ t)⟩ = none := by
      rw [matchAt_eq_none_iff, ways_congr_bound hp hbound (Nat.le_refl _)]
      exact hc
    rw [List.cons_append, rewriteFrom, hnone]
    simp only [hrest, ite_self]
    rfl

theorem rewriteFrom_of_missesIn {refused : Bool} {before : Option Char} {s : List Char}
    (hbound : s.length ≤ bound) (h : p.MissesIn before s []) :
    rewriteFrom bound p refused before s = s := by
  have hall : rewriteFrom bound p refused before (s ++ [])
      = s ++ rewriteFrom bound p false (behind before s) [] :=
    rewriteFrom_append hp (by simpa using hbound) h (by simp)
  rwa [List.append_nil, rewriteFrom, List.append_nil] at hall

theorem rewriteFrom_of_way {before : Option Char} {s : List Char} (hbound : s.length ≤ bound)
    {m : Way} (h : (p.ways s.length false ⟨before, s⟩).head? = some m)
    (hlt : m.1.rest.length < s.length) :
    rewriteFrom bound p false before s
      = m.2 ++ rewriteFrom bound p false m.1.before m.1.rest := by
  have hsome : p.matchAt bound ⟨before, s⟩ = some (m.1, m.2.reverse) := by
    rw [matchAt_eq_head?, ways_congr_bound hp hbound (Nat.le_refl _), h]
    rfl
  cases s with
  | nil => exact absurd hlt (Nat.not_lt_zero _)
  | cons c s =>
    rw [rewriteFrom, Bool.false_and, if_neg (by decide), hsome]
    simp only [if_pos hlt, List.reverse_reverse]

end

/-- A text in which every way writes what it reads stays as it is. -/
theorem rewrite_of_copies {p : Pattern} {s : List Char}
    (h : ∀ bound place, place.rest <:+ s → ∀ m ∈ p.ways bound false place,
      place.rest = m.2 ++ m.1.rest) : p.rewrite s = s := by
  have hall : ∀ {bound : Nat} {refused : Bool} {before : Option Char} {t : List Char}, t <:+ s →
      rewriteFrom bound p refused before t = t := by
    intro bound refused before t
    fun_induction rewriteFrom bound p refused before t with
    | case1 => exact fun _ => rfl
    | case2 refused before c t hrefused ih =>
      exact fun ht => congrArg (c :: ·) (ih ((List.suffix_cons c t).trans ht))
    | case3 refused before c t hrefused hnone ih =>
      exact fun ht => congrArg (c :: ·) (ih ((List.suffix_cons c t).trans ht))
    | case4 refused before c t hrefused place out hsome hlt ih =>
      intro ht
      have hway := mem_ways_of_matchAt hsome
      rw [ih ((rest_isSuffix hway).trans ht)]
      exact (h bound ⟨before, c :: t⟩ ht _ hway).symm
    | case5 refused before c t hrefused place out hsome hlt ih =>
      exact fun ht => congrArg (c :: ·) (ih ((List.suffix_cons c t).trans ht))
  exact hall List.suffix_rfl

/-! ### Local patterns -/

section

variable {p : Pattern} (hp : p.IsLocal)

include hp

/-- Neither the bound nor the flag matters to a local pattern. -/
theorem rewriteFrom_congr {bound bound' : Nat} {refused refused' : Bool} {before : Option Char}
    {s : List Char} (h : s.length ≤ bound) (h' : s.length ≤ bound') :
    rewriteFrom bound p refused before s = rewriteFrom bound' p refused' before s := by
  induction hn : s.length using Nat.strongRecOn generalizing s refused refused' before with
  | ind n ih =>
    subst hn
    cases s with
    | nil => rw [rewriteFrom, rewriteFrom]
    | cons c s =>
      rw [List.length_cons] at h h'
      have hshorter : ∀ {refused refused' : Bool} {before : Option Char} {t : List Char},
          t.length < (c :: s).length →
          rewriteFrom bound p refused before t = rewriteFrom bound' p refused' before t := by
        intro refused refused' before t hlt
        rw [List.length_cons] at hlt
        exact ih t.length hlt (by omega) (by omega) rfl
      have hmatch : p.matchAt bound ⟨before, c :: s⟩ = p.matchAt bound' ⟨before, c :: s⟩ :=
        matchAt_congr_bound hp.steady h h'
      have hrest : rewriteFrom bound p false (some c) s = rewriteFrom bound' p false (some c) s :=
        hshorter (Nat.lt_succ_self s.length)
      rw [rewriteFrom, rewriteFrom, hp.still, Bool.and_false, Bool.and_false, hmatch]
      cases p.matchAt bound' ⟨before, c :: s⟩ with
      | none => simpa using hrest
      | some found =>
        obtain ⟨place, out⟩ := found
        by_cases hlt : place.rest.length < (c :: s).length
        · simp only [if_pos hlt]
          rw [hshorter hlt]
          rfl
        · simp only [if_neg hlt]
          rw [hrest]
          rfl

/-- **A stretch in which the pattern fits nowhere stays as it is.** -/
theorem rewriteBehind_append {before : Option Char} {s t : List Char} (h : p.MissesIn before s t) :
    p.rewriteBehind before (s ++ t) = s ++ p.rewriteBehind (behind before s) t := by
  have hle : t.length ≤ (s ++ t).length := by simp
  rw [rewriteBehind, rewriteFrom_append hp.steady (Nat.le_refl _) h fun c _ => hp.still c]
  exact congrArg (s ++ ·) (rewriteFrom_congr hp hle (Nat.le_refl _))

theorem rewriteBehind_of_misses {before : Option Char} {c : Char} {s : List Char}
    (h : p.Misses ⟨before, c :: s⟩) :
    p.rewriteBehind before (c :: s) = c :: p.rewriteBehind (some c) s :=
  rewriteBehind_append hp (s := [c]) ⟨h, trivial⟩

theorem rewriteBehind_of_way {before : Option Char} {s : List Char} {m : Way}
    (h : (p.ways s.length false ⟨before, s⟩).head? = some m) (hlt : m.1.rest.length < s.length) :
    p.rewriteBehind before s = m.2 ++ p.rewriteBehind m.1.before m.1.rest := by
  rw [rewriteBehind, rewriteFrom_of_way hp.steady (Nat.le_refl _) h hlt]
  exact congrArg (m.2 ++ ·) (rewriteFrom_congr hp (Nat.le_of_lt hlt) (Nat.le_refl _))

end

/-- With rounds enough for all of the text, this way of repeating is the preferred one. -/
def RunsTo (ways : Place → List Way) (place : Place) (m : Way) : Prop :=
  ∀ rounds, place.rest.length ≤ rounds → (repeated true ways rounds place).head? = some m

namespace RunsTo

variable {ways : Place → List Way} {place : Place}

theorem stop (h : ways place = []) : RunsTo ways place (place, []) := by
  intro rounds _
  cases rounds with
  | zero => rfl
  | succ rounds =>
    rw [repeated, h]
    rfl

/-- One more round is tried first. -/
theorem step {m m' : Way} (h : (ways place).head? = some m)
    (hlt : m.1.rest.length < place.rest.length) (h' : RunsTo ways m.1 m') :
    RunsTo ways place (m'.1, m.2 ++ m'.2) := by
  intro rounds hrounds
  cases rounds with
  | zero => exact absurd hlt (by omega)
  | succ rounds =>
    rw [repeated, if_pos rfl, List.head?_append, head?_after h (h' rounds (by omega))]
    rfl

end RunsTo

/-- **A repetition of single characters reads all of a run.** -/
theorem head?_ways_many {f : Char → Bool} {bound : Nat} {keep : Bool} {place : Place}
    (h : place.rest.length ≤ bound) :
    ((many (one f)).ways bound keep place).head?
      = some (⟨behind place.before (place.rest.takeWhile f), place.rest.dropWhile f⟩,
          if keep then place.rest.takeWhile f else []) := by
  have hruns : ∀ (before : Option Char) (s : List Char),
      RunsTo ((one f).ways bound keep) ⟨before, s⟩ (⟨behind before (s.takeWhile f), s.dropWhile f⟩,
        if keep then s.takeWhile f else []) := by
    intro before s
    induction s generalizing before with
    | nil =>
      have hstop : RunsTo ((one f).ways bound keep) ⟨before, []⟩ (⟨before, []⟩, []) := .stop rfl
      cases keep <;> exact hstop
    | cons c s ih =>
      by_cases hc : f c = true
      · have hone : ((one f).ways bound keep ⟨before, c :: s⟩).head?
            = some (⟨some c, s⟩, if keep then [c] else []) := congrArg List.head? (if_pos hc)
        have hstep := RunsTo.step hone (Nat.lt_succ_self _) (ih (some c))
        rw [List.takeWhile_cons_of_pos hc, List.dropWhile_cons_of_pos hc]
        cases keep <;> exact hstep
      · have hone : (one f).ways bound keep ⟨before, c :: s⟩ = [] := if_neg hc
        rw [List.takeWhile_cons_of_neg hc, List.dropWhile_cons_of_neg hc]
        have hstop := RunsTo.stop hone
        cases keep <;> exact hstop
  exact hruns place.before place.rest bound h

/-- A run ends where the first other character stands. -/
theorem head?_ways_many_append {f : Char → Bool} {bound : Nat} {s t : List Char}
    (hbound : (s ++ t).length ≤ bound) (hs : ∀ d ∈ s, f d = true) (ht : ∀ d ∈ t.head?, f d = false)
    (keep : Bool) (before : Option Char) :
    ((many (one f)).ways bound keep ⟨before, s ++ t⟩).head?
      = some (⟨behind before s, t⟩, if keep then s else []) := by
  obtain ⟨htake, hdrop⟩ := Text.takeWhile_dropWhile_append hs ht
  rw [head?_ways_many hbound, htake, hdrop]

/-- What a repetition reads is a run of what its rounds read. -/
theorem exists_run_of_mem_ways {f : Char → Prop} {a : Pattern} {bound : Nat} {keep : Bool}
    (ha : ∀ place, ∀ m ∈ a.ways bound keep place, ∃ d, f d ∧ place.rest = d :: m.1.rest)
    {place : Place} {m : Way} (h : m ∈ (many a).ways bound keep place) :
    ∃ run, (∀ d ∈ run, f d) ∧ place.rest = run ++ m.1.rest := by
  refine repeated_induction (P := fun place m =>
    ∃ run, (∀ d ∈ run, f d) ∧ place.rest = run ++ m.1.rest)
    (fun place => ⟨[], by simp, rfl⟩) ?_ true bound place m h
  rintro place m hm m' ⟨run, hrun, hrest⟩
  obtain ⟨d, hd, hd'⟩ := ha place m hm
  exact ⟨d :: run, List.forall_mem_cons.2 ⟨hd, hrun⟩, by rw [hd', hrest]; rfl⟩

theorem exists_run_of_mem_ways_one {f : Char → Bool} {bound : Nat} {keep : Bool} {place : Place}
    {m : Way} (h : m ∈ (many (one f)).ways bound keep place) :
    ∃ run, (∀ d ∈ run, f d = true) ∧ place.rest = run ++ m.1.rest := by
  refine exists_run_of_mem_ways (fun place m hm => ?_) h
  obtain ⟨d, hd, hrest, -⟩ := exists_of_mem_ways_one hm
  exact ⟨d, hd, hrest⟩

/-! ### Words -/

/-- The characters are the letters of the word in any case. -/
def Spells (word s : List Char) : Prop := List.Forall₂ (fun l c => sameLetter l c = true) word s

theorem Spells.not_mem {word s : List Char} (h : Spells word s) {c : Char}
    (hc : ∀ l ∈ word, sameLetter l c = false) : c ∉ s := by
  induction h with
  | nil => exact List.not_mem_nil
  | @cons l d word s hd hs ih =>
    rw [List.forall_mem_cons] at hc
    intro hm
    rcases List.mem_cons.1 hm with rfl | hm
    · rw [hc.1] at hd
      exact absurd hd (by decide)
    · exact ih hc.2 hm

theorem Spells.exists_of_mem {word s : List Char} (h : Spells word s) {l : Char} (hl : l ∈ word) :
    ∃ c ∈ s, sameLetter l c = true := by
  induction h with
  | nil => exact absurd hl List.not_mem_nil
  | @cons k c word s hc hs ih =>
    rcases List.mem_cons.1 hl with rfl | hl
    · exact ⟨c, List.mem_cons_self, hc⟩
    · obtain ⟨d, hd, hsame⟩ := ih hl
      exact ⟨d, List.mem_cons_of_mem c hd, hsame⟩

/-- A word reads one of its spellings. -/
theorem exists_of_mem_ways_letters {word : List Char} {bound : Nat} {keep : Bool} {place : Place}
    {m : Way} (h : m ∈ (each (word.map fun l => one (sameLetter l))).ways bound keep place) :
    ∃ s, Spells word s ∧ place.rest = s ++ m.1.rest ∧ m.1.before = behind place.before s := by
  induction word generalizing place m with
  | nil =>
    rw [List.mem_singleton.1 h]
    exact ⟨[], .nil, rfl, rfl⟩
  | cons l word ih =>
    rw [List.map_cons, ways_each_cons] at h
    obtain ⟨m₁, h₁, m₂, h₂, rfl⟩ := mem_after.1 h
    obtain ⟨c, hc, hrest, hm₁⟩ := exists_of_mem_ways_one h₁
    obtain ⟨s, hs, hrest', hbefore⟩ := ih h₂
    refine ⟨c :: s, .cons hc hs, ?_, ?_⟩
    · rw [hrest, hrest']
      rfl
    · rw [hbefore, hm₁]
      rfl

theorem ways_letters {word s : List Char} (h : Spells word s) (bound : Nat) (keep : Bool)
    (before : Option Char) (t : List Char) :
    (each (word.map fun l => one (sameLetter l))).ways bound keep ⟨before, s ++ t⟩
      = [(⟨behind before s, t⟩, if keep then s else [])] := by
  induction h generalizing before with
  | nil => cases keep <;> rfl
  | @cons l c word s hc hs ih =>
    have hone : (one (sameLetter l)).ways bound keep ⟨before, c :: (s ++ t)⟩
        = [(⟨some c, s ++ t⟩, if keep then [c] else [])] := if_pos hc
    rw [List.map_cons, ways_each_cons, List.cons_append, hone, after_singleton, ih]
    cases keep <;> rfl

/-- Below code 128 a letter has no other spellings than its two cases. -/
theorem sameLetter_iff_of_ascii {l c : Char} (hc : c.toNat < 128) :
    sameLetter l c = true ↔ Text.asciiLower l = Text.asciiLower c := by
  rw [sameLetter_iff]
  constructor
  · rintro (h | ⟨h, -⟩ | ⟨h, -⟩)
    · exact h
    · omega
    · omega
  · exact Or.inl

theorem spells_iff_of_ascii {word s : List Char} (h : ∀ c ∈ s, c.toNat < 128) :
    Spells word s ↔ word.map Text.asciiLower = s.map Text.asciiLower := by
  induction word generalizing s with
  | nil =>
    cases s with
    | nil => exact ⟨fun _ => rfl, fun _ => .nil⟩
    | cons c s => exact ⟨(nomatch ·), (nomatch ·)⟩
  | cons l word ih =>
    cases s with
    | nil => exact ⟨(nomatch ·), (nomatch ·)⟩
    | cons c s =>
      rw [List.forall_mem_cons] at h
      rw [Spells, List.forall₂_cons, sameLetter_iff_of_ascii h.1, List.map_cons, List.map_cons,
        List.cons_eq_cons]
      exact and_congr_right fun _ => ih h.2

/-! ### First steps of a row -/

section

variable {bound : Nat} {keep : Bool} {place : Place}

/-- A pattern that stays where it is leaves the ways of the row as they are. -/
theorem ways_each_of_stays {p : Pattern} (h : p.ways bound keep place = [(place, [])])
    (ps : List Pattern) :
    (each (p :: ps)).ways bound keep place = (each ps).ways bound keep place := by
  rw [ways_each_cons, h, after_singleton]
  simp

theorem ways_one_of_head {f : Char → Bool} (h : ∀ c ∈ place.rest.head?, f c = false) :
    (one f).ways bound keep place = [] := by
  refine List.eq_nil_iff_forall_not_mem.2 fun m hm => ?_
  obtain ⟨c, hc, hrest, -⟩ := exists_of_mem_ways_one hm
  rw [h c (by rw [hrest]; rfl)] at hc
  exact absurd hc (by decide)

theorem ways_many_of_head {f : Char → Bool} (h : ∀ c ∈ place.rest.head?, f c = false) :
    (many (one f)).ways bound keep place = [(place, [])] := by
  rw [ways]
  cases bound <;> simp [repeated, ways_one_of_head h, after]

theorem ways_optional_of_nil {p : Pattern} (h : p.ways bound keep place = []) :
    (optional p).ways bound keep place = [(place, [])] := by
  rw [optional, ways, h]
  rfl

theorem ways_each_letters {word : String} {s : List Char} (h : Spells word.toList s)
    (ps : List Pattern) (before : Option Char) (t : List Char) :
    (each (letters word :: ps)).ways bound false ⟨before, s ++ t⟩
      = (each ps).ways bound false ⟨behind before s, t⟩ := by
  rw [ways_each_cons, letters, ways_letters h, after_singleton]
  simp

end

/-- The word is not spelled at the start of the text, whatever stands behind it. -/
def misfits : (word s : List Char) → Bool
  | l :: word, c :: s => !sameLetter l c || misfits word s
  | _, _ => false

theorem not_spells_of_misfits {word s : List Char} (h : misfits word s = true) {u t r : List Char}
    (hu : Spells word u) : s ++ t ≠ u ++ r := by
  induction hu generalizing s with
  | nil => exact absurd h (by cases s <;> simp [misfits])
  | @cons l c word u hc hu ih =>
    cases s with
    | nil => exact absurd h (by simp [misfits])
    | cons d s =>
      intro heq
      obtain ⟨rfl, htail⟩ := List.cons.inj heq
      rw [misfits, hc] at h
      exact ih h htail

theorem rewriteAll_cons (p : Pattern) (rules : List Pattern) (s : List Char) :
    rewriteAll (p :: rules) s = rewriteAll rules (p.rewrite s) := rfl

/-- A rule for one character replaces it wherever it stands. -/
theorem rewrite_char_put (c : Char) (w s : List Char) :
    (next (char c) (put w)).rewrite s = s.flatMap fun d => if d = c then w else [d] := by
  have hlocal : (next (char c) (put w)).IsLocal := ⟨rfl, fun _ => rfl⟩
  have hall : ∀ before, (next (char c) (put w)).rewriteBehind before s
      = s.flatMap fun d => if d = c then w else [d] := by
    induction s with
    | nil =>
      intro before
      rw [rewriteBehind, rewriteFrom]
      rfl
    | cons d s ih =>
      intro before
      rw [List.flatMap_cons]
      by_cases hd : d = c
      · have hread : ((char c).ways (d :: s).length false ⟨before, d :: s⟩).head?
            = some (⟨some d, s⟩, []) := congrArg List.head? (if_pos (decide_eq_true hd))
        have hput : ((put w).ways (d :: s).length false ⟨some d, s⟩).head?
            = some (⟨some d, s⟩, w) := rfl
        rw [rewriteBehind_of_way hlocal (head?_ways_next hread hput) (Nat.lt_succ_self _),
          if_pos hd]
        exact congrArg (w ++ ·) (ih (some d))
      · have hmisses : (char c).ways (d :: s).length false ⟨before, d :: s⟩ = [] :=
          ways_one_of_head fun e he => by
            obtain rfl : d = e := Option.some.inj he
            exact decide_eq_false hd
        have hnone : (next (char c) (put w)).Misses ⟨before, d :: s⟩ := by
          rw [Misses, ways, hmisses]
          rfl
        rw [rewriteBehind_of_misses hlocal hnone, ih, if_neg hd]
        rfl
  exact hall none

/-! ### Pieces of a text -/

/-- The piece `s` becomes `s'`, whatever stands before and behind it. -/
def Rewrites (p : Pattern) (s s' : List Char) : Prop :=
  ∀ before t, p.rewriteBehind before (s ++ t) = s' ++ p.rewriteBehind (behind before s) t

namespace Rewrites

variable {p : Pattern} {s s' t t' : List Char}

theorem nil : Rewrites p [] [] := fun _ _ => rfl

theorem append (h : Rewrites p s s') (h' : Rewrites p t t') : Rewrites p (s ++ t) (s' ++ t') := by
  intro before rest
  rw [List.append_assoc, h, h', behind_append, List.append_assoc]

/-- Pieces between which the same text stands. -/
theorem join {separator : List Char} (hseparator : Rewrites p separator separator) {α : Type}
    {xs : List α} {f f' : α → List Char} (h : ∀ x ∈ xs, Rewrites p (f x) (f' x)) :
    Rewrites p (Text.join separator (xs.map f)) (Text.join separator (xs.map f')) := by
  induction xs with
  | nil => exact nil
  | cons x xs ih =>
    rw [List.forall_mem_cons] at h
    cases xs with
    | nil => simpa [Text.join] using h.1
    | cons y xs =>
      rw [List.map_cons, List.map_cons, List.map_cons, List.map_cons, Text.join, Text.join,
        List.intercalate_cons_cons, List.intercalate_cons_cons]
      exact (h.1.append hseparator).append (ih h.2)

theorem of_missesIn (hp : p.IsLocal) (h : ∀ before t, p.MissesIn before s t) : Rewrites p s s :=
  fun before t => rewriteBehind_append hp (h before t)

end Rewrites

/-! ### Characters that a rewriting can write -/

/-- Whether the pattern writes a character of its own. -/
def writes : Pattern → Char → Bool
  | next a b, c | either a b, c => writes a c || writes b c
  | many a, c | few a, c | kept a, c => writes a c
  | put s, c => s.contains c
  | _, _ => false

/-- Rounds write what each of them writes. -/
theorem mem_or_of_mem_repeated {ways : Place → List Way} {c : Char} {own : Prop}
    (hsuffix : ∀ place, ∀ m ∈ ways place, m.1.rest <:+ place.rest)
    (h : ∀ place, ∀ m ∈ ways place, c ∈ m.2 → c ∈ place.rest ∨ own) {greedy : Bool}
    {rounds : Nat} {place : Place} {m : Way} (hm : m ∈ repeated greedy ways rounds place) :
    c ∈ m.2 → c ∈ place.rest ∨ own := by
  refine repeated_induction (P := fun place m => c ∈ m.2 → c ∈ place.rest ∨ own)
    (fun _ hc => absurd hc List.not_mem_nil) ?_ greedy rounds place m hm
  intro place m hm m' ih hc
  rcases List.mem_append.1 hc with hc | hc
  · exact h place m hm hc
  · exact (ih hc).imp_left fun hrest => (hsuffix place m hm).subset hrest

/-- What a way writes it has read, or it is a character of its own. -/
theorem mem_or_writes_of_mem_ways {bound : Nat} {p : Pattern} {keep : Bool} {place : Place}
    {m : Way} (h : m ∈ p.ways bound keep place) {c : Char} (hc : c ∈ m.2) :
    c ∈ place.rest ∨ p.writes c = true := by
  induction p generalizing keep place m with
  | always => simp_all [ways]
  | never => simp_all [ways]
  | one p =>
    obtain ⟨d, -, hrest, hm⟩ := exists_of_mem_ways_one h
    rw [hm] at hc
    cases keep with
    | false => exact absurd hc List.not_mem_nil
    | true => exact Or.inl (by rw [hrest, List.mem_singleton.1 hc]; exact List.mem_cons_self)
  | next a b iha ihb =>
    obtain ⟨m₁, h₁, m₂, h₂, rfl⟩ := mem_after.1 h
    rcases List.mem_append.1 hc with hc | hc
    · exact (iha h₁ hc).imp_right fun hw => by rw [writes, hw]; rfl
    · rcases ihb h₂ hc with hrest | hw
      · exact Or.inl ((rest_isSuffix h₁).subset hrest)
      · exact Or.inr (by rw [writes, hw, Bool.or_true])
  | either a b iha ihb =>
    rcases List.mem_append.1 h with h | h
    · exact (iha h hc).imp_right fun hw => by rw [writes, hw]; rfl
    · exact (ihb h hc).imp_right fun hw => by rw [writes, hw, Bool.or_true]
  | many a ih =>
    exact mem_or_of_mem_repeated (fun _ _ => rest_isSuffix) (fun _ _ hm hc => ih hm hc) h hc
  | few a ih =>
    exact mem_or_of_mem_repeated (fun _ _ => rest_isSuffix) (fun _ _ hm hc => ih hm hc) h hc
  | kept a ih => exact ih h hc
  | put s =>
    rw [List.mem_singleton.1 h] at hc
    exact Or.inr (List.contains_iff_mem.2 hc)
  | wordEdge => simp_all [ways]
  | lineStart => simp_all [ways]
  | lineEnd => simp_all [ways]

/-- **A rewritten text holds no character that is neither in the text nor in the pattern.** -/
theorem mem_or_writes_of_mem_rewriteBehind {p : Pattern} {before : Option Char} {s : List Char}
    {c : Char} (h : c ∈ p.rewriteBehind before s) : c ∈ s ∨ p.writes c = true := by
  have hall : ∀ {bound : Nat} {refused : Bool} {before : Option Char} {s : List Char},
      c ∈ rewriteFrom bound p refused before s → c ∈ s ∨ p.writes c = true := by
    intro bound refused before s
    fun_induction rewriteFrom bound p refused before s with
    | case1 => exact Or.inl
    | case2 refused before d s hrefused ih =>
      intro hc
      rcases List.mem_cons.1 hc with rfl | hc
      · exact Or.inl List.mem_cons_self
      · exact (ih hc).imp_left (List.mem_cons_of_mem d)
    | case3 refused before d s hrefused hnone ih =>
      intro hc
      rcases List.mem_cons.1 hc with rfl | hc
      · exact Or.inl List.mem_cons_self
      · exact (ih hc).imp_left (List.mem_cons_of_mem d)
    | case4 refused before d s hrefused place out hsome hlt ih =>
      intro hc
      have hway := mem_ways_of_matchAt hsome
      rcases List.mem_append.1 hc with hc | hc
      · exact mem_or_writes_of_mem_ways hway hc
      · exact (ih hc).imp_left fun hrest => (rest_isSuffix hway).subset hrest
    | case5 refused before d s hrefused place out hsome hlt ih =>
      intro hc
      rcases List.mem_cons.1 hc with rfl | hc
      · exact Or.inl List.mem_cons_self
      · exact (ih hc).imp_left (List.mem_cons_of_mem d)
  exact hall h

end SchemaAudit.Pattern
