import Mathlib.Algebra.Ring.Int.Defs
import Mathlib.Data.List.Forall2
import SchemaAudit.Proofs.Pattern.Weight

/-!
# How much a pattern takes off a text

Two ways to see from its parts that a pattern makes texts lighter. On a scale that does not look at
the character before, the losses of the parts of a pattern add up. On any scale, a pattern that
drops what it reads has only to read a stretch that is heavy enough.

* `Loses`: every way leaves the text lighter by some amount, with a lemma per constructor, and
  `Loses.lightens` at the end.
* `Covers`: every way reads a stretch of some kind, among other things.
-/

namespace SchemaAudit.Pattern

/-! ### Losses -/

/-- What stands before a character does not matter. -/
def Scale.IsPlain (w : Scale) : Prop := ∀ before c, w.weight before c = w.weight none c

theorem Scale.IsPlain.load_eq {w : Scale} (hw : w.IsPlain) (before : Option Char) (s : List Char) :
    w.load before s = w.load none s := by
  cases s with
  | nil => rfl
  | cons c s => rw [Scale.load, Scale.load, hw]

theorem Scale.IsPlain.load_append {w : Scale} (hw : w.IsPlain) (s t : List Char) :
    w.load none (s ++ t) = w.load none s + w.load none t := by
  induction s with
  | nil => rw [List.nil_append, Scale.load, Nat.zero_add]
  | cons c s ih =>
    rw [List.cons_append, Scale.load, Scale.load, hw.load_eq, hw.load_eq (some c) s, ih,
      Nat.add_assoc]

/-- Every way of the pattern leaves a text that is lighter by `n` at least. -/
def Loses (w : Scale) (n : Int) (p : Pattern) : Prop :=
  ∀ bound place, ∀ m ∈ p.ways bound false place,
    (w.load none m.2 + w.load none m.1.rest + n : Int) ≤ w.load none place.rest

namespace Loses

variable {w : Scale} {n k : Int} {p q : Pattern}

theorem mono (h : Loses w n p) (hle : k ≤ n) : Loses w k p := by
  intro bound place m hm
  have hn := h bound place m hm
  omega

theorem of_isSilent (hp : p.isSilent = true) : Loses w 0 p := by
  intro bound place m hm
  have hnone : m.2 = [] := copies_of_isSilent hp hm
  obtain ⟨front, hrest⟩ := rest_isSuffix hm
  have hle := w.load_append_le none front m.1.rest
  rw [hnone, ← hrest, Scale.load]
  omega

theorem one {f : Char → Bool} (h : ∀ c, f c = true → n ≤ w.weight none c) :
    Loses w n (Pattern.one f) := by
  intro bound place m hm
  obtain ⟨c, hc, hrest, -⟩ := exists_of_mem_ways_one hm
  have hnone : m.2 = [] := copies_of_isSilent rfl hm
  have hn := h c hc
  have hle := w.load_none_le (some c) m.1.rest
  rw [hnone, hrest, Scale.load, Scale.load]
  omega

theorem next (hw : w.IsPlain) (hp : Loses w n p) (hq : Loses w k q) :
    Loses w (n + k) (Pattern.next p q) := by
  intro bound place m hm
  obtain ⟨m₁, h₁, m₂, h₂, rfl⟩ := mem_after.1 hm
  have hfirst := hp bound place m₁ h₁
  have hsecond := hq bound m₁.1 m₂ h₂
  show (w.load none (m₁.2 ++ m₂.2) + w.load none m₂.1.rest + (n + k) : Int)
    ≤ w.load none place.rest
  rw [hw.load_append]
  omega

theorem either (hp : Loses w n p) (hq : Loses w n q) : Loses w n (Pattern.either p q) := by
  intro bound place m hm
  rcases List.mem_append.1 hm with hm | hm
  · exact hp bound place m hm
  · exact hq bound place m hm

theorem kept (hw : w.IsPlain) (hp : p.isSilent = true) : Loses w 0 (Pattern.kept p) := by
  intro bound place m hm
  have hkept : m ∈ p.ways bound true place := hm
  have hcopy : place.rest = m.2 ++ m.1.rest := copies_of_isSilent hp hkept
  rw [hcopy, hw.load_append]
  omega

theorem put (s : List Char) : Loses w (-w.load none s) (Pattern.put s) := by
  intro bound place m hm
  rw [List.mem_singleton.1 hm]
  show (w.load none s + w.load none place.rest + -w.load none s : Int) ≤ w.load none place.rest
  omega

/-- The parts of a pattern lose what they lose one after the other. -/
theorem each (hw : w.IsPlain) {ps : List Pattern} (ns : List Int)
    (h : List.Forall₂ (Loses w) ns ps) : Loses w ns.sum (Pattern.each ps) := by
  induction h with
  | nil => exact of_isSilent rfl
  | @cons n p ns ps hp hps ih =>
    cases hps with
    | nil => simpa [Pattern.each] using hp
    | cons hq hps => exact hp.next hw ih

theorem anyOf {ps : List Pattern} (h : ∀ p ∈ ps, Loses w n p) : Loses w n (Pattern.anyOf ps) := by
  induction ps with
  | nil =>
    intro bound place m hm
    exact absurd hm List.not_mem_nil
  | cons p ps ih =>
    rw [List.forall_mem_cons] at h
    cases ps with
    | nil => exact h.1
    | cons q ps => exact h.1.either (ih h.2)

/-- A silent row loses at least what one of its parts loses. -/
theorem each_of_mem (hw : w.IsPlain) {ps : List Pattern} (hs : (Pattern.each ps).isSilent = true)
    (hmem : p ∈ ps) (hp : Loses w n p) : Loses w n (Pattern.each ps) := by
  induction ps with
  | nil => exact absurd hmem List.not_mem_nil
  | cons q ps ih =>
    cases ps with
    | nil => exact List.mem_singleton.1 hmem ▸ hp
    | cons r ps =>
      obtain ⟨hq, hrest⟩ := Bool.and_eq_true_iff.1 hs
      rcases List.mem_cons.1 hmem with rfl | hmem
      · exact (hp.next hw (of_isSilent hrest)).mono (by omega)
      · exact ((of_isSilent hq).next hw (ih hrest hmem)).mono (by omega)

theorem becomes (hw : w.IsPlain) (hp : Loses w n p) (s : String) :
    Loses w (n - w.load none s.toList) (Pattern.next p (Pattern.put s.toList)) :=
  hp.next hw (put _)

theorem letters (hw : w.IsPlain) {s : String}
    (h : ∀ l ∈ s.toList, ∀ c, sameLetter l c = true → w.weight none l ≤ w.weight none c) :
    Loses w (w.load none s.toList) (Pattern.letters s) := by
  have hparts : ∀ ls : List Char, (∀ l ∈ ls, l ∈ s.toList) →
      List.Forall₂ (Loses w) (ls.map fun l => (w.weight none l : Int))
        (ls.map fun l => Pattern.one (sameLetter l)) := by
    intro ls hls
    refine List.forall₂_map_left_iff.2 (List.forall₂_map_right_iff.2 ?_)
    refine List.forall₂_same.2 fun l hl => one fun c hc => ?_
    exact Int.ofNat_le.2 (h l (hls l hl) c hc)
  have hsum : ∀ ls : List Char,
      (ls.map fun l => (w.weight none l : Int)).sum = w.load none ls := by
    intro ls
    induction ls with
    | nil => rfl
    | cons l ls ih =>
      rw [List.map_cons, List.sum_cons, ih, Scale.load, hw.load_eq (some l)]
      exact (Int.natCast_add _ _).symm
  rw [← hsum]
  exact each hw _ (hparts s.toList fun _ hl => hl)

/-- **A pattern that loses something lightens.** -/
theorem lightens (hw : w.IsPlain) (hn : 0 < n) (hp : Loses w n p) : Lightens w p := by
  intro bound place m hm
  refine Or.inr fun before => ?_
  have hloss := hp bound place m hm
  rw [hw.load_eq, hw.load_append, hw.load_eq before]
  omega

end Loses

/-! ### Stretches that are heavy enough -/

/-- Every way of the pattern reads, among other things, a stretch of this kind. -/
def Covers (P : List Char → Prop) (p : Pattern) : Prop :=
  ∀ bound place, ∀ m ∈ p.ways bound false place,
    ∃ front stretch back, place.rest = front ++ (stretch ++ (back ++ m.1.rest)) ∧ P stretch

namespace Covers

variable {P : List Char → Prop} {p q : Pattern} {f g : Char → Bool}

theorem one (h : ∀ c, f c = true → P [c]) : Covers P (Pattern.one f) := by
  intro bound place m hm
  obtain ⟨c, hc, hrest, -⟩ := exists_of_mem_ways_one hm
  exact ⟨[], [c], [], hrest, h c hc⟩

theorem next_left (hp : Covers P p) (q : Pattern) : Covers P (Pattern.next p q) := by
  intro bound place m hm
  obtain ⟨m₁, h₁, m₂, h₂, rfl⟩ := mem_after.1 hm
  obtain ⟨front, stretch, back, hrest, hP⟩ := hp bound place m₁ h₁
  obtain ⟨read, hread⟩ := rest_isSuffix h₂
  exact ⟨front, stretch, back ++ read, by rw [hrest, ← hread, List.append_assoc back], hP⟩

theorem next_right (p : Pattern) (hq : Covers P q) : Covers P (Pattern.next p q) := by
  intro bound place m hm
  obtain ⟨m₁, h₁, m₂, h₂, rfl⟩ := mem_after.1 hm
  obtain ⟨front, stretch, back, hrest, hP⟩ := hq bound m₁.1 m₂ h₂
  obtain ⟨read, hread⟩ := rest_isSuffix h₁
  exact ⟨read ++ front, stretch, back, by rw [← hread, hrest, List.append_assoc read], hP⟩

theorem either (hp : Covers P p) (hq : Covers P q) : Covers P (Pattern.either p q) := by
  intro bound place m hm
  rcases List.mem_append.1 hm with hm | hm
  · exact hp bound place m hm
  · exact hq bound place m hm

/-- Two characters in a row. -/
theorem two (h : ∀ c d, f c = true → g d = true → P [c, d]) (q : Pattern) :
    Covers P (Pattern.next (Pattern.one f) (Pattern.next (Pattern.one g) q)) := by
  intro bound place m hm
  obtain ⟨m₁, h₁, m₂, h₂, rfl⟩ := mem_after.1 hm
  obtain ⟨m₃, h₃, m₄, h₄, rfl⟩ := mem_after.1 h₂
  obtain ⟨c, hc, hfirst, -⟩ := exists_of_mem_ways_one h₁
  obtain ⟨d, hd, hsecond, -⟩ := exists_of_mem_ways_one h₃
  obtain ⟨read, hread⟩ := rest_isSuffix h₄
  refine ⟨[], [c, d], read, ?_, h c d hc hd⟩
  rw [hfirst, hsecond, ← hread]
  rfl

end Covers

/-- The stretch weighs more than `written` in its place, whatever stands around it. -/
def Scale.Outweighs (w : Scale) (written stretch : List Char) : Prop :=
  ∀ before rest, w.load before (written ++ rest) < w.load none stretch + w.load none rest

variable {w : Scale} {p q : Pattern}

/-- **A pattern that reads a heavy stretch lightens**, if it writes only what that outweighs. -/
theorem Lightens.becomes {written : List Char} (hp : p.isSilent = true)
    (hc : Covers (w.Outweighs written) p) : Lightens w (next p (put written)) := by
  intro bound place m hm
  obtain ⟨m₁, h₁, m₂, h₂, rfl⟩ := mem_after.1 hm
  obtain ⟨front, stretch, back, hrest, hlt⟩ := hc bound place m₁ h₁
  have hnone : m₁.2 = [] := copies_of_isSilent hp h₁
  rw [List.mem_singleton.1 h₂, hnone]
  refine Or.inr fun before => ?_
  show w.load before (written ++ m₁.1.rest) < w.load before place.rest
  calc w.load before (written ++ m₁.1.rest)
      < w.load none stretch + w.load none m₁.1.rest := hlt before m₁.1.rest
    _ ≤ w.load none stretch + w.load none (back ++ m₁.1.rest) :=
        Nat.add_le_add_left (le_trans (Nat.le_add_left _ _) (w.load_append_le none back _)) _
    _ ≤ w.load none (stretch ++ (back ++ m₁.1.rest)) := w.load_append_le none stretch _
    _ ≤ w.load before (front ++ (stretch ++ (back ++ m₁.1.rest))) :=
        le_trans (Nat.le_add_left _ _) (w.load_append_le before front _)
    _ = w.load before place.rest := by rw [hrest]

theorem Lightens.drop (hp : p.isSilent = true) (hc : Covers (w.Outweighs []) p) : Lightens w p := by
  intro bound place m hm
  have hdrop : Lightens w (next p (put [])) := Lightens.becomes hp hc
  refine hdrop bound place m ?_
  refine mem_after.2 ⟨m, hm, (m.1, []), List.mem_singleton.2 rfl, ?_⟩
  rw [List.append_nil]

theorem Lightens.kept (hp : p.isSilent = true) : Lightens w (Pattern.kept p) := by
  intro bound place m hm
  have hkept : m ∈ p.ways bound true place := hm
  exact Or.inl (copies_of_isSilent hp hkept).symm

theorem Lightens.anyOf {ps : List Pattern} (h : ∀ p ∈ ps, Lightens w p) :
    Lightens w (Pattern.anyOf ps) := by
  induction ps with
  | nil =>
    intro bound place m hm
    exact absurd hm List.not_mem_nil
  | cons p ps ih =>
    rw [List.forall_mem_cons] at h
    cases ps with
    | nil => exact h.1
    | cons q ps =>
      intro bound place m hm
      rcases List.mem_append.1 hm with hm | hm
      · exact h.1 bound place m hm
      · exact ih h.2 bound place m hm

end SchemaAudit.Pattern
