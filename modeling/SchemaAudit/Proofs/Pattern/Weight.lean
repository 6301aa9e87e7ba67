import Mathlib.Data.List.TakeWhile
import SchemaAudit.Proofs.Pattern.Ways

/-!
# Rewriting that makes a text lighter

Characters are put on a scale on which blanks weigh nothing. A pattern lightens texts if each of
its ways either writes back what it read or leaves less weight than before. What such patterns do
one after another cannot be undone by the later ones, and joining lines does not change the weight.
So a text that is as heavy at the end as at the start was left alone by each of them.

* `Scale`, `Scale.load`: how much a text weighs behind a character.
* `rewriteFrom_eq_or_load_lt`, `rewriteAll_eq_or_load_lt`: rewriting leaves a text as it is or makes
  it lighter.
* `Scale.load_collapse`: joining the lines of a text keeps its weight.

Nothing here says how often a pattern fits, or that it fits no more in what it wrote.
-/

namespace SchemaAudit.Pattern

/-- How much characters weigh, each behind the one before it. Blanks weigh nothing, all others
something, and nothing weighs less than at the start of a text or behind a blank. -/
structure Scale where
  weight : (before : Option Char) → Char → Nat
  blank : ∀ before {c}, Text.isBlank c = true → weight before c = 0
  ink : ∀ before {c}, Text.isBlank c = false → 0 < weight before c
  least : ∀ before c, weight none c ≤ weight before c
  behindBlank : ∀ {b}, Text.isBlank b = true → ∀ c, weight (some b) c = weight none c

namespace Scale

variable (w : Scale)

/-- The weight of a text behind a character. -/
def load : (before : Option Char) → List Char → Nat
  | _, [] => 0
  | before, c :: s => w.weight before c + load (some c) s

theorem load_none_le (before : Option Char) (s : List Char) : w.load none s ≤ w.load before s := by
  cases s with
  | nil => exact Nat.le_refl _
  | cons c s => exact Nat.add_le_add_right (w.least before c) _

theorem load_behindBlank {b : Char} (hb : Text.isBlank b = true) (s : List Char) :
    w.load (some b) s = w.load none s := by
  cases s with
  | nil => rfl
  | cons c s => rw [load, load, w.behindBlank hb]

theorem load_blank_cons (before : Option Char) {b : Char} (hb : Text.isBlank b = true)
    (s : List Char) : w.load before (b :: s) = w.load none s := by
  rw [load, w.blank before hb, w.load_behindBlank hb, Nat.zero_add]

theorem load_blanks_append_le (before : Option Char) {blanks : List Char}
    (h : ∀ c ∈ blanks, Text.isBlank c = true) (s : List Char) :
    w.load before (blanks ++ s) ≤ w.load before s := by
  induction blanks generalizing before with
  | nil => exact Nat.le_refl _
  | cons c blanks ih =>
    rw [List.forall_mem_cons] at h
    rw [List.cons_append, w.load_blank_cons before h.1]
    exact le_trans (ih none h.2) (w.load_none_le before s)

theorem load_append_lt {s t : List Char} (h : ∀ before, w.load before s < w.load before t)
    (front : List Char) (before : Option Char) :
    w.load before (front ++ s) < w.load before (front ++ t) := by
  induction front generalizing before with
  | nil => exact h before
  | cons c front ih => exact Nat.add_lt_add_left (ih (some c)) _

/-- Two texts one after the other weigh no less than each alone at the start of a text. -/
theorem load_append_le (before : Option Char) (s t : List Char) :
    w.load before s + w.load none t ≤ w.load before (s ++ t) := by
  induction s generalizing before with
  | nil =>
    rw [load, Nat.zero_add]
    exact w.load_none_le before t
  | cons c s ih =>
    have htail := ih (some c)
    rw [List.cons_append, load, load]
    omega

theorem load_concat_append (before : Option Char) (s : List Char) (c : Char) (t : List Char) :
    w.load before (s ++ [c] ++ t) = w.load before (s ++ [c]) + w.load (some c) t := by
  induction s generalizing before with
  | nil => rfl
  | cons d s ih =>
    have hs := ih (some d)
    simp only [List.cons_append, load] at hs ⊢
    omega

/-! ### Joining lines -/

theorem load_squeezeFrom (inBlanks : Bool) (before : Option Char) (s : List Char)
    (h : inBlanks = true → ∀ t, w.load before t = w.load none t) :
    w.load before (Text.squeezeFrom inBlanks s) = w.load before s := by
  induction s generalizing inBlanks before with
  | nil => rfl
  | cons c s ih =>
    by_cases hc : Text.isBlank c = true
    · have hrest := ih true (some c) fun _ => w.load_behindBlank hc
      rw [w.load_behindBlank hc, w.load_behindBlank hc] at hrest
      cases inBlanks with
      | true =>
        rw [Text.squeezeFrom, if_pos hc, if_pos rfl, h rfl, hrest, w.load_blank_cons before hc]
      | false =>
        rw [Text.squeezeFrom, if_pos hc, if_neg (by decide),
          w.load_blank_cons before (by decide), hrest, w.load_blank_cons before hc]
    · rw [Bool.not_eq_true] at hc
      rw [Text.squeezeFrom, if_neg (by rw [hc]; decide), load, load,
        ih false (some c) (by simp)]

theorem load_trimStart (s : List Char) : w.load none (Text.trimStart s) = w.load none s := by
  induction s with
  | nil => rfl
  | cons c s ih =>
    by_cases hc : Text.isBlank c = true
    · rw [Text.trimStart, List.dropWhile_cons_of_pos hc, w.load_blank_cons none hc]
      exact ih
    · rw [Text.trimStart, List.dropWhile_cons_of_neg hc]

theorem load_append_blanks (before : Option Char) (s : List Char) {blanks : List Char}
    (h : ∀ c ∈ blanks, Text.isBlank c = true) :
    w.load before (s ++ blanks) = w.load before s := by
  induction s generalizing before with
  | nil =>
    induction blanks generalizing before with
    | nil => rfl
    | cons c blanks ih =>
      rw [List.forall_mem_cons] at h
      rw [List.nil_append, w.load_blank_cons before h.1]
      exact ih h.2 none
  | cons c s ih => rw [List.cons_append, load, load, ih]

theorem load_trimEnd (before : Option Char) (s : List Char) :
    w.load before (Text.trimEnd s) = w.load before s := by
  have hparts : s = Text.trimEnd s ++ (s.reverse.takeWhile Text.isBlank).reverse := by
    rw [Text.trimEnd, ← List.reverse_append, List.takeWhile_append_dropWhile,
      List.reverse_reverse]
  conv_rhs => rw [hparts]
  refine (w.load_append_blanks before _ fun c hc => ?_).symm
  exact List.mem_takeWhile_imp (List.mem_reverse.1 hc)

/-- **Joining the lines of a text keeps its weight.** -/
theorem load_collapse (s : List Char) : w.load none (Text.collapse s) = w.load none s := by
  rw [Text.collapse, Text.trim, load_trimEnd, load_trimStart]
  exact w.load_squeezeFrom false none s (by simp)

end Scale

/-! ### Patterns that make texts lighter -/

/-- Each way of the pattern writes back what it read, or leaves less weight than before. -/
def Lightens (w : Scale) (p : Pattern) : Prop :=
  ∀ bound place, ∀ m ∈ p.ways bound false place,
    m.2 ++ m.1.rest = place.rest
      ∨ ∀ before, w.load before (m.2 ++ m.1.rest) < w.load before place.rest

variable {w : Scale}

/-- A step that changes nothing or lightens, before a rest to which the same has happened. -/
theorem eq_or_load_lt_append {written rest rest' s : List Char}
    (hrest : rest' = rest ∨ ∀ before, w.load before rest' < w.load before rest)
    (h : written ++ rest = s ∨ ∀ before, w.load before (written ++ rest) < w.load before s) :
    written ++ rest' = s ∨ ∀ before, w.load before (written ++ rest') < w.load before s := by
  rcases hrest with rfl | hrest
  · exact h
  · refine Or.inr fun before => ?_
    have hlt := w.load_append_lt hrest written before
    rcases h with rfl | h
    · exact hlt
    · exact Nat.lt_trans hlt (h before)

theorem eq_or_load_lt_cons {rest rest' : List Char}
    (hrest : rest' = rest ∨ ∀ before, w.load before rest' < w.load before rest) (c : Char) :
    c :: rest' = c :: rest ∨ ∀ before, w.load before (c :: rest') < w.load before (c :: rest) := by
  have hstep : [c] ++ rest = c :: rest := rfl
  exact eq_or_load_lt_append hrest (Or.inl hstep)

theorem rewriteFrom_eq_or_load_lt {p : Pattern} (hp : Lightens w p) (bound : Nat)
    (refused : Bool) (actual : Option Char) (s : List Char) :
    rewriteFrom bound p refused actual s = s
      ∨ ∀ before, w.load before (rewriteFrom bound p refused actual s) < w.load before s := by
  fun_induction rewriteFrom bound p refused actual s with
  | case1 => exact Or.inl rfl
  | case2 refused actual c rest hrefused ih =>
    exact eq_or_load_lt_cons ih c
  | case3 refused actual c rest hrefused hnone ih =>
    exact eq_or_load_lt_cons ih c
  | case4 refused actual c rest hrefused place out hsome hlt ih =>
    exact eq_or_load_lt_append ih (hp bound _ _ (mem_ways_of_matchAt hsome))
  | case5 refused actual c rest hrefused place out hsome hlt ih =>
    exact eq_or_load_lt_cons ih c

theorem rewrite_eq_or_load_lt {p : Pattern} (hp : Lightens w p) (s : List Char) :
    p.rewrite s = s ∨ w.load none (p.rewrite s) < w.load none s :=
  (rewriteFrom_eq_or_load_lt hp s.length false none s).imp_right fun h => h none

theorem rewriteAll_eq_self {rules : List Pattern} {s : List Char}
    (h : ∀ rule ∈ rules, rule.rewrite s = s) : rewriteAll rules s = s := by
  induction rules with
  | nil => rfl
  | cons rule rules ih =>
    rw [List.forall_mem_cons] at h
    show rewriteAll rules (rule.rewrite s) = s
    rw [h.1]
    exact ih h.2

/-- **Patterns that lighten leave a text alone, each of them, or make it lighter together.** -/
theorem rewriteAll_eq_or_load_lt {rules : List Pattern} (h : ∀ rule ∈ rules, Lightens w rule)
    (s : List Char) :
    (∀ rule ∈ rules, rule.rewrite s = s) ∨ w.load none (rewriteAll rules s) < w.load none s := by
  induction rules generalizing s with
  | nil => exact Or.inl (by simp)
  | cons rule rules ih =>
    rw [List.forall_mem_cons] at h
    have hall : rewriteAll (rule :: rules) s = rewriteAll rules (rule.rewrite s) := rfl
    rw [hall]
    rcases rewrite_eq_or_load_lt h.1 s with hself | hlt
    · rw [hself]
      exact (ih h.2 s).imp_left fun hrest => List.forall_mem_cons.2 ⟨hself, hrest⟩
    · have hle : w.load none (rewriteAll rules (rule.rewrite s))
          ≤ w.load none (rule.rewrite s) := by
        rcases ih h.2 (rule.rewrite s) with hrest | hlt
        · exact Nat.le_of_eq (congrArg (w.load none) (rewriteAll_eq_self hrest))
        · exact Nat.le_of_lt hlt
      exact Or.inr (Nat.lt_of_le_of_lt hle hlt)

end SchemaAudit.Pattern
