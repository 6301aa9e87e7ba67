import Mathlib.Algebra.Ring.Int.Defs
import Mathlib.Data.List.Infix
import SchemaAudit.Proofs.Pattern.Rewrite

/-!
# Rewriting in front of a wall

A character at which a pattern stops as it stops at the end of a text is a wall: what stands in front
of it is rewritten as if nothing followed. A list in parentheses is read with whatever stands in it,
and so are names and texts in quotes, so a wall holds only behind a text in which nothing is left
open.

* `surplus`, `Calm`: parentheses of a text, and texts in which nothing is left open.
* `tells`: whether a pattern tells a character from the end of a text (`walled_of_tells`).
* `Walled`: the ways of a pattern in front of the wall. Inside of parentheses it is enough that more
  are closed than opened in what is left.
* `Turns`, `Trades`: what a pattern does to the surplus. A calm text stays calm when it is rewritten
  (`calm_rewriteFrom`).
* `exists_rewriteAll_wall`: rules one after another leave the wall where it is.
-/

namespace SchemaAudit.Pattern

/-! ### Texts in which nothing is left open -/

/-- How many more parentheses are closed than opened. -/
def surplus (s : List Char) : Int := s.count ')' - s.count '('

@[simp] theorem surplus_nil : surplus [] = 0 := rfl

theorem surplus_append (s t : List Char) : surplus (s ++ t) = surplus s + surplus t := by
  simp only [surplus, List.count_append]
  omega

theorem surplus_cons (c : Char) (s : List Char) : surplus (c :: s) = surplus [c] + surplus s :=
  surplus_append [c] s

theorem surplus_singleton {c : Char} (hopen : c ≠ '(') (hclose : c ≠ ')') : surplus [c] = 0 := by
  rw [surplus, List.count_singleton, List.count_singleton]
  simp [hopen, hclose]

/-- A text without quotes in which every parenthesis that opens is closed. -/
structure Calm (s : List Char) : Prop where
  quotes : ∀ c ∈ s, c ∉ ['\x27', '\x22', '\x60']
  closed : ∀ t, t <:+ s → 0 ≤ surplus t

instance (s : List Char) : Decidable (Calm s) :=
  letI : Decidable (∀ c ∈ s, c ∉ ['\x27', '\x22', '\x60']) := List.decidableBAll _ s
  letI : Decidable (∀ t ∈ s.tails, 0 ≤ surplus t) := List.decidableBAll _ s.tails
  decidable_of_iff ((∀ c ∈ s, c ∉ ['\x27', '\x22', '\x60']) ∧ ∀ t ∈ s.tails, 0 ≤ surplus t)
    ⟨fun h => ⟨h.1, fun t ht => h.2 t ((List.mem_tails t s).2 ht)⟩,
      fun h => ⟨h.quotes, fun t ht => h.closed t ((List.mem_tails t s).1 ht)⟩⟩

/-- A text without quotes and without a parenthesis that opens. -/
def OpensNothing (s : List Char) : Prop := ∀ c ∈ s, c ∉ ['\x27', '\x22', '\x60', '(']

instance (s : List Char) : Decidable (OpensNothing s) := List.decidableBAll _ s

namespace Calm

variable {s t : List Char} {c : Char}

theorem of_isSuffix (h : Calm s) (ht : t <:+ s) : Calm t where
  quotes d hd := h.quotes d (ht.subset hd)
  closed u hu := h.closed u (hu.trans ht)

theorem surplus_nonneg (h : Calm s) : 0 ≤ surplus s := h.closed s List.suffix_rfl

theorem nil : Calm [] where
  quotes _ hc := absurd hc List.not_mem_nil
  closed t ht := by
    rw [List.suffix_nil.1 ht]
    exact Int.le_refl 0

theorem cons (h : Calm s) (hc : c ∉ ['\x27', '\x22', '\x60']) (hsurplus : 0 ≤ surplus (c :: s)) :
    Calm (c :: s) where
  quotes := List.forall_mem_cons.2 ⟨hc, h.quotes⟩
  closed t ht := by
    rcases List.suffix_cons_iff.1 ht with rfl | ht
    · exact hsurplus
    · exact h.closed t ht

/-- What follows is replaced by another text with the same surplus. -/
theorem replace {rest : List Char} (h : Calm (s ++ rest)) (ht : Calm t)
    (heq : surplus t = surplus rest) : Calm (s ++ t) := by
  induction s with
  | nil => exact ht
  | cons c s ih =>
    have hrest := ih (h.of_isSuffix (List.suffix_cons c _))
    refine hrest.cons (h.quotes c List.mem_cons_self) ?_
    have hsurplus := h.surplus_nonneg
    rw [← List.cons_append, surplus_append, heq, ← surplus_append]
    exact hsurplus

/-- Nothing is opened in front. -/
theorem append (ht : Calm t) (hs : OpensNothing s) : Calm (s ++ t) := by
  induction s with
  | nil => exact ht
  | cons c s ih =>
    obtain ⟨hc, hs⟩ := List.forall_mem_cons.1 hs
    refine (ih hs).cons (fun hm => hc (List.mem_append_left ['('] hm)) ?_
    have hrest := (ih hs).surplus_nonneg
    have hopen : '(' ∉ [c] := fun hm => hc (List.mem_singleton.1 hm ▸ by decide)
    have hnone : [c].count '(' = 0 := List.count_eq_zero.2 hopen
    have hc : 0 ≤ surplus [c] := by
      rw [surplus, hnone]
      omega
    rw [← List.cons_append, List.cons_append, surplus_cons]
    omega

end Calm

/-! ### Ways in front of more text -/

/-- The place with more text behind it. -/
def Place.inFront (t : List Char) (place : Place) : Place := ⟨place.before, place.rest ++ t⟩

/-- The way with more text behind it. -/
def inFront (t : List Char) (m : Way) : Way := (m.1.inFront t, m.2)

theorem after_inFront {t : List Char} {first : List Way} {second : Place → List Way}
    (h : ∀ m ∈ first, second (m.1.inFront t) = (second m.1).map (inFront t)) :
    after (first.map (inFront t)) second = (after first second).map (inFront t) := by
  rw [after, after, List.flatMap_map, List.map_flatMap]
  refine List.flatMap_congr fun m hm => ?_
  show (second (m.1.inFront t)).map _ = _
  rw [h m hm, List.map_map, List.map_map]
  rfl

/-- Rounds keep what each of them keeps. -/
theorem repeated_inFront {t : List Char} {ways : Place → List Way} {P : List Char → Prop}
    (h : ∀ place : Place, P place.rest →
      ways (place.inFront t) = (ways place).map (inFront t) ∧ ∀ m ∈ ways place, P m.1.rest)
    (greedy : Bool) (rounds : Nat) {place : Place} (hplace : P place.rest) :
    repeated greedy ways rounds (place.inFront t)
      = (repeated greedy ways rounds place).map (inFront t) := by
  induction rounds generalizing place with
  | zero => rfl
  | succ rounds ih =>
    obtain ⟨hways, hkeeps⟩ := h place hplace
    have hmore : after (ways (place.inFront t)) (repeated greedy ways rounds)
        = (after (ways place) (repeated greedy ways rounds)).map (inFront t) := by
      rw [hways]
      exact after_inFront fun m hm => ih (hkeeps m hm)
    rw [repeated, repeated, hmore]
    cases greedy with
    | true =>
      rw [if_pos rfl, if_pos rfl, List.map_append]
      rfl
    | false => rfl

/-- Whether some part of the pattern tells the character from the end of a text. -/
def tells : Pattern → Char → Bool
  | one f, c => f c
  | next a b, c | either a b, c => tells a c || tells b c
  | many a, c | few a, c | kept a, c => tells a c
  | wordEdge, c => Text.isWordChar c
  | lineEnd, c => c ≠ '\n'
  | _, _ => false

variable {wall : Char} {k d : Int} {p q : Pattern}

/-- Where at least `k` more parentheses are closed than opened in what is left of a calm text, the
pattern fits in front of the wall as it fits in front of nothing. -/
def Walled (wall : Char) (k : Int) (p : Pattern) : Prop :=
  ∀ bound keep (place : Place), Calm place.rest → k ≤ surplus place.rest → ∀ t,
    p.ways bound keep (place.inFront (wall :: t))
      = (p.ways bound keep place).map (inFront (wall :: t))

/-- Every way of the pattern closes `d` parentheses more than it opens. -/
def Turns (d : Int) (p : Pattern) : Prop :=
  ∀ bound keep (place : Place), Calm place.rest → ∀ m ∈ p.ways bound keep place,
    surplus place.rest = d + surplus m.1.rest

theorem ways_inFront_if {b b' : Bool} (h : b = b') (place : Place) (t : List Char) :
    (if b then [(place.inFront t, [])] else [] : List Way)
      = (if b' then [(place, [])] else []).map (inFront t) := by
  subst h
  cases b <;> rfl

theorem ways_one_inFront {f : Char → Bool} (bound : Nat) (keep : Bool) {place : Place}
    {t : List Char} (h : place.rest = [] → ∀ c ∈ t.head?, f c = false) :
    (one f).ways bound keep (place.inFront t)
      = ((one f).ways bound keep place).map (inFront t) := by
  obtain ⟨before, s⟩ := place
  cases s with
  | nil =>
    have hnone : (one f).ways bound keep (Place.inFront t ⟨before, []⟩) = [] :=
      ways_one_of_head (h rfl)
    rw [hnone]
    rfl
  | cons c s => by_cases hc : f c = true <;> simp [ways, Place.inFront, inFront, hc]

/-- **A pattern that does not tell the wall from the end of a text** fits in front of both in the same
ways. -/
theorem walled_of_tells (h : p.tells wall = false) : Walled wall k p := by
  have hall : ∀ bound keep (place : Place), Calm place.rest → ∀ t,
      p.ways bound keep (place.inFront (wall :: t))
        = (p.ways bound keep place).map (inFront (wall :: t)) := by
    intro bound keep place hplace t
    induction p generalizing keep place with
    | always => rfl
    | never => rfl
    | one f => exact ways_one_inFront bound keep fun _ c hc => Option.some.inj hc ▸ h
    | next a b iha ihb =>
      obtain ⟨ha, hb⟩ := Bool.or_eq_false_iff.1 h
      rw [ways, iha ha keep place hplace]
      exact after_inFront fun m hm => ihb hb keep m.1 (hplace.of_isSuffix (rest_isSuffix hm))
    | either a b iha ihb =>
      obtain ⟨ha, hb⟩ := Bool.or_eq_false_iff.1 h
      rw [ways, iha ha keep place hplace, ihb hb keep place hplace]
      exact List.map_append.symm
    | many a ih =>
      exact repeated_inFront (P := Calm) (fun place hplace =>
        ⟨ih h keep place hplace, fun m hm => hplace.of_isSuffix (rest_isSuffix hm)⟩) true bound
        hplace
    | few a ih =>
      exact repeated_inFront (P := Calm) (fun place hplace =>
        ⟨ih h keep place hplace, fun m hm => hplace.of_isSuffix (rest_isSuffix hm)⟩) false bound
        hplace
    | kept a ih => exact ih h true place hplace
    | put s => rfl
    | wordEdge =>
      refine ways_inFront_if ?_ place (wall :: t)
      obtain ⟨before, s⟩ := place
      have hwall : Text.isWordChar wall = false := h
      cases s <;> simp [atWordEdge, Place.inFront, hwall]
    | lineStart => exact ways_inFront_if rfl place (wall :: t)
    | lineEnd =>
      refine ways_inFront_if ?_ place (wall :: t)
      obtain ⟨before, s⟩ := place
      have hwall : wall = '\n' := by simpa [tells] using h
      cases s <;> simp [atLineEnd, Place.inFront, hwall]
  exact fun bound keep place hplace _ => hall bound keep place hplace

/-! ### Surplus that a pattern reads -/

namespace Turns

/-- **A pattern that does not read parentheses** leaves the surplus as it is. -/
theorem of_tells (hopen : p.tells '(' = false) (hclose : p.tells ')' = false) : Turns 0 p := by
  intro bound keep place hplace m hm
  clear hplace
  rw [Int.zero_add]
  have hrounds : ∀ {ways : Place → List Way} {greedy : Bool} {place : Place} {m : Way},
      (∀ place, ∀ m ∈ ways place, surplus place.rest = surplus m.1.rest) →
      m ∈ repeated greedy ways bound place → surplus place.rest = surplus m.1.rest := by
    intro ways greedy place m hways hm
    exact repeated_induction (P := fun place m => surplus place.rest = surplus m.1.rest)
      (fun _ => rfl) (fun place m hm m' h' => (hways place m hm).trans h') greedy bound place m hm
  induction p generalizing keep place m with
  | one f =>
    obtain ⟨c, hc, hrest, -⟩ := exists_of_mem_ways_one hm
    have hc : surplus [c] = 0 := by
      refine surplus_singleton ?_ ?_
      · rintro rfl
        exact absurd (hc.symm.trans hopen) (by decide)
      · rintro rfl
        exact absurd (hc.symm.trans hclose) (by decide)
    rw [hrest, surplus_cons, hc, Int.zero_add]
  | next a b iha ihb =>
    obtain ⟨hopenA, hopenB⟩ := Bool.or_eq_false_iff.1 hopen
    obtain ⟨hcloseA, hcloseB⟩ := Bool.or_eq_false_iff.1 hclose
    obtain ⟨m₁, h₁, m₂, h₂, rfl⟩ := mem_after.1 hm
    exact (iha hopenA hcloseA keep place m₁ h₁).trans (ihb hopenB hcloseB keep m₁.1 m₂ h₂)
  | either a b iha ihb =>
    obtain ⟨hopenA, hopenB⟩ := Bool.or_eq_false_iff.1 hopen
    obtain ⟨hcloseA, hcloseB⟩ := Bool.or_eq_false_iff.1 hclose
    rcases List.mem_append.1 hm with hm | hm
    · exact iha hopenA hcloseA keep place m hm
    · exact ihb hopenB hcloseB keep place m hm
  | many a ih => exact hrounds (fun place m hm => ih hopen hclose keep place m hm) hm
  | few a ih => exact hrounds (fun place m hm => ih hopen hclose keep place m hm) hm
  | kept a ih => exact ih hopen hclose true place m hm
  | _ => simp_all [ways]

theorem opening : Turns (-1) (char '(') := by
  intro bound keep place _ m hm
  obtain ⟨c, hc, hrest, -⟩ := exists_of_mem_ways_one hm
  rw [hrest, of_decide_eq_true hc, surplus_cons]
  rfl

theorem closing : Turns 1 (char ')') := by
  intro bound keep place _ m hm
  obtain ⟨c, hc, hrest, -⟩ := exists_of_mem_ways_one hm
  rw [hrest, of_decide_eq_true hc, surplus_cons]
  rfl

theorem next {d' : Int} (hp : Turns d p) (hq : Turns d' q) : Turns (d + d') (Pattern.next p q) := by
  intro bound keep place hplace m hm
  obtain ⟨m₁, h₁, m₂, h₂, rfl⟩ := mem_after.1 hm
  have hfirst := hp bound keep place hplace m₁ h₁
  have hsecond := hq bound keep m₁.1 (hplace.of_isSuffix (rest_isSuffix h₁)) m₂ h₂
  show surplus place.rest = d + d' + surplus m₂.1.rest
  omega

theorem either (hp : Turns d p) (hq : Turns d q) : Turns d (Pattern.either p q) := by
  intro bound keep place hplace m hm
  rcases List.mem_append.1 hm with hm | hm
  · exact hp bound keep place hplace m hm
  · exact hq bound keep place hplace m hm

theorem many (hp : Turns 0 p) : Turns 0 (Pattern.many p) := by
  intro bound keep place hplace m hm
  refine repeated_induction (P := fun place m => Calm place.rest →
    surplus place.rest = 0 + surplus m.1.rest) (fun _ _ => (Int.zero_add _).symm) ?_ true bound
    place m hm hplace
  intro place m hm m' ih hplace
  have hfirst := hp bound keep place hplace m hm
  have hmore := ih (hplace.of_isSuffix (rest_isSuffix hm))
  show surplus place.rest = 0 + surplus m'.1.rest
  omega

/-- The parts of a row turn the surplus one after the other. -/
theorem each {ds : List Int} {ps : List Pattern} (h : List.Forall₂ Turns ds ps) :
    Turns ds.sum (Pattern.each ps) := by
  induction h with
  | nil => exact of_tells rfl rfl
  | @cons d p ds ps hp hps ih =>
    cases hps with
    | nil => simpa [Pattern.each] using hp
    | cons hq hps => exact hp.next ih

theorem parens (hp : Turns 0 p) : Turns 0 (Pattern.each [char '(', p, char ')']) :=
  opening.next (hp.next closing)

end Turns

/-! ### Patterns in front of the wall -/

namespace Walled

theorem next (hp : Walled wall k p) (hd : Turns d p) (hq : Walled wall (k - d) q) :
    Walled wall k (Pattern.next p q) := by
  intro bound keep place hplace hk t
  rw [ways, hp bound keep place hplace hk]
  refine after_inFront fun m hm => ?_
  have hsurplus := hd bound keep place hplace m hm
  exact hq bound keep m.1 (hplace.of_isSuffix (rest_isSuffix hm)) (by omega) t

theorem either (hp : Walled wall k p) (hq : Walled wall k q) :
    Walled wall k (Pattern.either p q) := by
  intro bound keep place hplace hk t
  rw [ways, hp bound keep place hplace hk, hq bound keep place hplace hk]
  exact List.map_append.symm

theorem many (hp : Walled wall k p) (hd : Turns 0 p) : Walled wall k (Pattern.many p) := by
  intro bound keep place hplace hk t
  refine repeated_inFront (P := fun s => Calm s ∧ k ≤ surplus s) ?_ true bound ⟨hplace, hk⟩
  rintro place ⟨hplace, hk⟩
  refine ⟨hp bound keep place hplace hk t, fun m hm => ⟨hplace.of_isSuffix (rest_isSuffix hm), ?_⟩⟩
  have hsurplus := hd bound keep place hplace m hm
  omega

theorem kept (hp : Walled wall k p) : Walled wall k (Pattern.kept p) :=
  fun bound _ => hp bound true

/-- Inside of parentheses the wall is not next. -/
theorem inside (f : Char → Bool) (hk : 0 < k) : Walled wall k (one f) := by
  intro bound keep place _ hsurplus t
  refine ways_one_inFront bound keep fun hnil => ?_
  rw [hnil, surplus_nil] at hsurplus
  omega

/-- Between the parentheses there is one more to be closed. -/
theorem parens (hp : Walled wall (k + 1) p) (hd : Turns 0 p) (hopen : wall ≠ '(')
    (hclose : wall ≠ ')') : Walled wall k (Pattern.each [char '(', p, char ')']) := by
  have hrest : Walled wall (k + 1) (Pattern.next p (char ')')) :=
    hp.next hd (walled_of_tells (decide_eq_false hclose))
  refine Walled.next (walled_of_tells (decide_eq_false hopen)) Turns.opening ?_
  rwa [Int.sub_neg]

end Walled

/-- What begins with a quote does not fit in a calm text. -/
theorem ways_quote_eq_nil {c : Char} (hc : c ∈ ['\x27', '\x22', '\x60']) (q : Pattern) (bound : Nat)
    (keep : Bool) {place : Place} (h : Calm place.rest) :
    (next (char c) q).ways bound keep place = [] := by
  refine List.eq_nil_iff_forall_not_mem.2 fun m hm => ?_
  obtain ⟨m₁, h₁, -⟩ := mem_after.1 hm
  obtain ⟨d, hd, hrest, -⟩ := exists_of_mem_ways_one h₁
  rw [of_decide_eq_true hd] at hrest
  exact h.quotes c (hrest ▸ List.mem_cons_self) hc

theorem turns_quote {c : Char} (hc : c ∈ ['\x27', '\x22', '\x60']) (q : Pattern) (d : Int) :
    Turns d (next (char c) q) := by
  intro bound keep place hplace m hm
  rw [ways_quote_eq_nil hc q bound keep hplace] at hm
  exact absurd hm List.not_mem_nil

theorem walled_quote {c : Char} (hc : c ∈ ['\x27', '\x22', '\x60']) (hwall : wall ≠ c) (q : Pattern) (k : Int) :
    Walled wall k (next (char c) q) := by
  intro bound keep place hplace hk t
  have hstart : (char c).ways bound keep (place.inFront (wall :: t))
      = ((char c).ways bound keep place).map (inFront (wall :: t)) :=
    walled_of_tells (k := k) (by simpa [char, tells] using hwall) bound keep place hplace hk t
  have hnone : (char c).ways bound keep place = [] := by
    refine List.eq_nil_iff_forall_not_mem.2 fun m hm => ?_
    have hnil := ways_quote_eq_nil hc always bound keep hplace
    rw [ways] at hnil
    exact absurd (hnil ▸ mem_after.2 ⟨m, hm, _, List.mem_singleton_self _, rfl⟩) List.not_mem_nil
  rw [ways, ways, hstart, hnone]
  rfl

/-- The pattern stays in front of the wall and closes what it opens. -/
structure Contained (wall : Char) (p : Pattern) : Prop where
  walled : Walled wall 0 p
  turns : Turns 0 p

namespace Contained

theorem of_tells (h : [wall, '(', ')'].all (!p.tells ·) = true) : Contained wall p := by
  simp only [List.all_cons, List.all_nil, Bool.and_true, Bool.and_eq_true, Bool.not_eq_true'] at h
  exact ⟨walled_of_tells h.1, Turns.of_tells h.2.1 h.2.2⟩

theorem quote {c : Char} (hc : c ∈ ['\x27', '\x22', '\x60']) (hwall : wall ≠ c) (q : Pattern) :
    Contained wall (Pattern.next (char c) q) := ⟨walled_quote hc hwall q 0, turns_quote hc q 0⟩

theorem next (hp : Contained wall p) (hq : Contained wall q) : Contained wall (Pattern.next p q) where
  walled := hp.walled.next hp.turns hq.walled
  turns := hp.turns.next hq.turns

theorem either (hp : Contained wall p) (hq : Contained wall q) :
    Contained wall (Pattern.either p q) where
  walled := hp.walled.either hq.walled
  turns := hp.turns.either hq.turns

theorem kept (hp : Contained wall p) : Contained wall (Pattern.kept p) where
  walled := hp.walled.kept
  turns bound _ := hp.turns bound true

theorem optional (hp : Contained wall p) : Contained wall (Pattern.optional p) :=
  hp.either ⟨walled_of_tells rfl, .of_tells rfl rfl⟩

theorem each {ps : List Pattern} (h : ∀ p ∈ ps, Contained wall p) :
    Contained wall (Pattern.each ps) := by
  induction ps with
  | nil => exact ⟨walled_of_tells rfl, .of_tells rfl rfl⟩
  | cons p ps ih =>
    obtain ⟨hp, hps⟩ := List.forall_mem_cons.1 h
    cases ps with
    | nil => exact hp
    | cons q ps => exact hp.next (ih hps)

end Contained

/-! ### Calm texts stay calm -/

/-- What the pattern writes leaves a text calm, with the surplus that it had. -/
def Trades (p : Pattern) : Prop :=
  ∀ bound (place : Place), Calm place.rest → ∀ m ∈ p.ways bound false place, ∀ t, Calm t →
    surplus t = surplus m.1.rest → Calm (m.2 ++ t) ∧ surplus (m.2 ++ t) = surplus place.rest

namespace Trades

/-- The pattern writes a text that closes what the pattern has closed and opens nothing. -/
theorem becomes {w : List Char} (hp : p.isSilent = true) (hd : Turns d p) (hsurplus : surplus w = d)
    (hw : OpensNothing w) : Trades (Pattern.next p (Pattern.put w)) := by
  intro bound place hplace m hm t ht heq
  obtain ⟨m₁, h₁, m₂, h₂, rfl⟩ := mem_after.1 hm
  have hnone : m₁.2 = [] := copies_of_isSilent hp h₁
  have hturned := hd bound false place hplace m₁ h₁
  rw [List.mem_singleton.1 h₂] at heq ⊢
  rw [hnone, List.nil_append]
  exact ⟨ht.append hw, by rw [surplus_append, hturned, hsurplus, heq]⟩

theorem drop (hp : p.isSilent = true) (hd : Turns 0 p) : Trades p := by
  intro bound place hplace m hm t ht heq
  have hnone : m.2 = [] := copies_of_isSilent hp hm
  have hturned := hd bound false place hplace m hm
  rw [hnone, List.nil_append]
  exact ⟨ht, by omega⟩

theorem kept (hp : p.isSilent = true) : Trades (Pattern.kept p) := by
  intro bound place hplace m hm t ht heq
  have hway : m ∈ p.ways bound true place := hm
  have hcopy : place.rest = m.2 ++ m.1.rest := copies_of_isSilent hp hway
  rw [hcopy] at hplace ⊢
  exact ⟨hplace.replace ht heq, by rw [surplus_append, surplus_append, heq]⟩

theorem quote {c : Char} (hc : c ∈ ['\x27', '\x22', '\x60']) (q : Pattern) :
    Trades (Pattern.next (char c) q) := by
  intro bound place hplace m hm
  rw [ways_quote_eq_nil hc q bound false hplace] at hm
  exact absurd hm List.not_mem_nil

theorem put {w : List Char} (hsurplus : surplus w = 0) (hw : OpensNothing w) :
    Trades (Pattern.put w) := by
  intro bound place hplace m hm t ht heq
  rw [List.mem_singleton.1 hm] at heq ⊢
  exact ⟨ht.append hw, by rw [surplus_append, hsurplus, Int.zero_add, heq]⟩

theorem each {ps : List Pattern} (h : ∀ p ∈ ps, Trades p) : Trades (Pattern.each ps) := by
  induction ps with
  | nil => exact drop rfl (Turns.of_tells rfl rfl)
  | cons p ps ih =>
    obtain ⟨hp, hps⟩ := List.forall_mem_cons.1 h
    cases ps with
    | nil => exact hp
    | cons q ps =>
      intro bound place hplace m hm t ht heq
      obtain ⟨m₁, h₁, m₂, h₂, rfl⟩ := mem_after.1 hm
      have hmiddle := hplace.of_isSuffix (rest_isSuffix h₁)
      obtain ⟨hcalm, hmore⟩ := ih hps bound m₁.1 hmiddle m₂ h₂ t ht heq
      rw [List.append_assoc]
      exact hp bound place hplace m₁ h₁ (m₂.2 ++ t) hcalm hmore

end Trades

/-- **A calm text stays calm** when it is rewritten, with the surplus that it had. -/
theorem calm_rewriteFrom (hp : Trades p) {bound : Nat} {refused : Bool} {before : Option Char}
    {s : List Char} (hs : Calm s) : Calm (rewriteFrom bound p refused before s)
      ∧ surplus (rewriteFrom bound p refused before s) = surplus s := by
  have hcons : ∀ {c : Char} {s t : List Char}, Calm (c :: s) → Calm t ∧ surplus t = surplus s →
      Calm (c :: t) ∧ surplus (c :: t) = surplus (c :: s) := by
    intro c s t hs ht
    have hfirst : Calm ([c] ++ t) := Calm.replace (s := [c]) hs ht.1 ht.2
    exact ⟨hfirst, by rw [surplus_cons, ht.2, ← surplus_cons]⟩
  fun_induction rewriteFrom bound p refused before s with
  | case1 => exact ⟨hs, rfl⟩
  | case2 refused before c s hrefused ih =>
    exact hcons hs (ih (hs.of_isSuffix (List.suffix_cons c s)))
  | case3 refused before c s hrefused hnone ih =>
    exact hcons hs (ih (hs.of_isSuffix (List.suffix_cons c s)))
  | case4 refused before c s hrefused place out hsome hlt ih =>
    have hway := mem_ways_of_matchAt hsome
    obtain ⟨hcalm, heq⟩ := ih (hs.of_isSuffix (rest_isSuffix hway))
    exact hp bound ⟨before, c :: s⟩ hs _ hway _ hcalm heq
  | case5 refused before c s hrefused place out hsome hlt ih =>
    exact hcons hs (ih (hs.of_isSuffix (List.suffix_cons c s)))

/-! ### Rewriting -/

theorem rewriteFrom_congr_bound (hp : p.isSteady = true) {bound bound' : Nat} {refused : Bool}
    {before : Option Char} {s : List Char} (h : s.length ≤ bound) (h' : s.length ≤ bound') :
    rewriteFrom bound p refused before s = rewriteFrom bound' p refused before s := by
  fun_induction rewriteFrom bound p refused before s with
  | case1 => rw [rewriteFrom]
  | case2 refused before c s hrefused ih =>
    rw [List.length_cons] at h h'
    rw [rewriteFrom, if_pos hrefused, ih (by omega) (by omega)]
  | case3 refused before c s hrefused hnone ih =>
    rw [matchAt_congr_bound hp h h'] at hnone
    rw [List.length_cons] at h h'
    rw [rewriteFrom, if_neg hrefused, hnone, ih (by omega) (by omega)]
  | case4 refused before c s hrefused place out hsome hlt ih =>
    rw [matchAt_congr_bound hp h h'] at hsome
    rw [rewriteFrom, if_neg hrefused, hsome, ih (by omega) (by omega)]
    exact (if_pos hlt).symm
  | case5 refused before c s hrefused place out hsome hlt ih =>
    rw [matchAt_congr_bound hp h h'] at hsome
    rw [List.length_cons] at h h'
    rw [rewriteFrom, if_neg hrefused, hsome, ih (by omega) (by omega)]
    exact (if_neg hlt).symm

theorem Walled.matchAt_inFront (hp : Walled wall 0 p) (bound : Nat) (place : Place)
    (hplace : Calm place.rest) (t : List Char) :
    p.matchAt bound (place.inFront (wall :: t))
      = (p.matchAt bound place).map fun m => (m.1.inFront (wall :: t), m.2) := by
  rw [matchAt_eq_head?, matchAt_eq_head?, hp bound false place hplace hplace.surplus_nonneg,
    List.head?_map]
  cases (p.ways bound false place).head? <;> rfl

/-- **What stands in front of a wall is rewritten as if nothing followed.** -/
theorem rewriteFrom_wall (hp : Walled wall 0 p) (hstill : p.runsOver wall = false) {bound : Nat}
    {refused : Bool} {before : Option Char} {s : List Char} (hs : Calm s) (t : List Char) :
    rewriteFrom bound p refused before (s ++ wall :: t)
      = rewriteFrom bound p refused before s ++ wall :: rewriteFrom bound p false (some wall) t := by
  have hmatch : ∀ (before : Option Char) {s : List Char}, Calm s →
      p.matchAt bound ⟨before, s ++ wall :: t⟩
        = (p.matchAt bound ⟨before, s⟩).map fun m => (m.1.inFront (wall :: t), m.2) :=
    fun before {s} hs => hp.matchAt_inFront bound ⟨before, s⟩ hs t
  fun_induction rewriteFrom bound p refused before s with
  | case1 refused before =>
    -- nothing is read in front of the wall, because nothing is read at the end of a text
    have hend := hmatch before Calm.nil
    rw [List.nil_append] at hend ⊢
    rw [rewriteFrom, hstill, Bool.and_false, if_neg (by decide), hend]
    cases hfound : p.matchAt bound ⟨before, []⟩ with
    | none => rfl
    | some found =>
      obtain ⟨place, out⟩ := found
      have hnil : place.rest = [] := List.suffix_nil.1 (rest_isSuffix (mem_ways_of_matchAt hfound))
      refine if_neg ?_
      rw [Place.inFront, hnil]
      exact Nat.lt_irrefl _
  | case2 refused before c s hrefused ih =>
    rw [List.cons_append, rewriteFrom, if_pos hrefused,
      ih (hs.of_isSuffix (List.suffix_cons c s))]
    rfl
  | case3 refused before c s hrefused hnone ih =>
    have hhere := hmatch before hs
    rw [hnone, Option.map_none, List.cons_append] at hhere
    rw [List.cons_append, rewriteFrom, if_neg hrefused, hhere,
      ih (hs.of_isSuffix (List.suffix_cons c s))]
    rfl
  | case4 refused before c s hrefused place out hsome hlt ih =>
    have hhere := hmatch before hs
    rw [hsome, Option.map_some, List.cons_append] at hhere
    have hshorter : (place.inFront (wall :: t)).rest.length < (c :: (s ++ wall :: t)).length := by
      rw [Place.inFront, ← List.cons_append, List.length_append, List.length_append]
      omega
    have hrest := ih (hs.of_isSuffix (rest_isSuffix (mem_ways_of_matchAt hsome)))
    rw [List.cons_append, rewriteFrom, if_neg hrefused, hhere]
    simp only [if_pos hshorter]
    rw [Place.inFront, hrest, List.append_assoc]
  | case5 refused before c s hrefused place out hsome hlt ih =>
    have hhere := hmatch before hs
    rw [hsome, Option.map_some, List.cons_append] at hhere
    have hlonger : ¬(place.inFront (wall :: t)).rest.length < (c :: (s ++ wall :: t)).length := by
      rw [Place.inFront, ← List.cons_append, List.length_append, List.length_append]
      omega
    rw [List.cons_append, rewriteFrom, if_neg hrefused, hhere]
    simp only [if_neg hlonger]
    rw [ih (hs.of_isSuffix (List.suffix_cons c s))]
    rfl

/-- A rule that stops at the wall and leaves calm texts calm. -/
structure Stops (wall : Char) (p : Pattern) : Prop where
  steady : p.isSteady = true
  still : p.runsOver wall = false
  walled : Walled wall 0 p
  trades : Trades p

/-- **Rules leave the wall where it is**, and what stands in front of it becomes what it becomes alone. -/
theorem exists_rewriteAll_wall {rules : List Pattern} (h : ∀ p ∈ rules, Stops wall p) {s : List Char}
    (hs : Calm s) (t : List Char) :
    ∃ t', rewriteAll rules (s ++ wall :: t) = rewriteAll rules s ++ wall :: t' := by
  induction rules generalizing s t with
  | nil => exact ⟨t, rfl⟩
  | cons p rules ih =>
    obtain ⟨hp, hrules⟩ := List.forall_mem_cons.1 h
    have hlength : s.length ≤ (s ++ wall :: t).length := by simp
    have hrewrite : p.rewrite (s ++ wall :: t) = p.rewrite s
        ++ wall :: rewriteFrom (s ++ wall :: t).length p false (some wall) t := by
      rw [rewrite, rewriteFrom_wall hp.walled hp.still hs, rewrite,
        rewriteFrom_congr_bound hp.steady hlength (Nat.le_refl _)]
    rw [rewriteAll_cons, rewriteAll_cons, hrewrite]
    exact ih hrules (calm_rewriteFrom hp.trades hs).1 _

end SchemaAudit.Pattern
