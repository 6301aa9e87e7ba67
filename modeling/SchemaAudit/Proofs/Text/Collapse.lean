import Mathlib.Data.List.DropRight
import SchemaAudit.Proofs.Text.Lines

/-!
# Texts on one line

Joining the lines of a text leaves single spaces inside it and no blanks at its ends, and a text of
that kind is left as it is.

* `isSingle_squeezeFrom`, `squeezeFrom_of_isSingle`: squeezed texts have single spaces only, and
  texts with single spaces are squeezed already.
* `collapse_collapse`: collapsing twice is collapsing once.
* `collapse_append`: a piece that squeezing leaves alone stays at the start of a text.
* `collapse_eq_shorten`, `shorten_append`, `shorten_blank`: a text on one line, from the left to the
  right; `exists_shorten_append_cons`: what stands in front of ink is shortened as it is alone.
-/

namespace SchemaAudit.Text

/-- The blanks of the text are spaces, and no two stand in a row; the flag says that a blank stands
before the text. -/
def isSingle : (afterBlank : Bool) → List Char → Bool
  | _, [] => true
  | afterBlank, c :: s =>
    if isBlank c then !afterBlank && c = ' ' && isSingle true s else isSingle false s

theorem isSingle_squeezeFrom (inBlanks : Bool) (s : List Char) :
    isSingle inBlanks (squeezeFrom inBlanks s) = true := by
  induction s generalizing inBlanks with
  | nil => rfl
  | cons c s ih =>
    by_cases hc : isBlank c = true
    · rw [squeezeFrom, if_pos hc]
      cases inBlanks with
      | true => exact ih true
      | false =>
        rw [if_neg (by decide), isSingle, if_pos (by decide), ih true]
        rfl
    · rw [squeezeFrom, if_neg hc, isSingle, if_neg hc]
      exact ih false

theorem squeezeFrom_of_isSingle {inBlanks : Bool} {s : List Char}
    (h : isSingle inBlanks s = true) : squeezeFrom inBlanks s = s := by
  induction s generalizing inBlanks with
  | nil => rfl
  | cons c s ih =>
    by_cases hc : isBlank c = true
    · rw [isSingle, if_pos hc, Bool.and_eq_true, Bool.and_eq_true] at h
      obtain ⟨⟨hfirst, hspace⟩, hs⟩ := h
      rw [Bool.not_eq_true'] at hfirst
      obtain rfl : c = ' ' := of_decide_eq_true hspace
      rw [squeezeFrom, if_pos hc, hfirst, if_neg (by decide), ih hs]
    · rw [isSingle, if_neg hc] at h
      rw [squeezeFrom, if_neg hc, ih h]

theorem isSingle_of_cons {afterBlank : Bool} {c : Char} {s : List Char}
    (h : isSingle afterBlank (c :: s) = true) : isSingle false s = true := by
  have hweak : ∀ {t : List Char}, isSingle true t = true → isSingle false t = true := by
    intro t ht
    cases t with
    | nil => rfl
    | cons d t =>
      by_cases hd : isBlank d = true
      · rw [isSingle, if_pos hd] at ht
        exact absurd ht (by simp)
      · rwa [isSingle, if_neg hd] at ht ⊢
  by_cases hc : isBlank c = true
  · rw [isSingle, if_pos hc, Bool.and_eq_true] at h
    exact hweak h.2
  · rwa [isSingle, if_neg hc] at h

theorem isSingle_of_isSuffix {s t : List Char} (hst : s <:+ t) (h : isSingle false t = true) :
    isSingle false s = true := by
  induction t with
  | nil => rwa [List.suffix_nil.1 hst]
  | cons c t ih =>
    rcases List.suffix_cons_iff.1 hst with rfl | hst
    · exact h
    · exact ih hst (isSingle_of_cons h)

theorem isSingle_of_isPrefix {afterBlank : Bool} {s t : List Char} (hst : s <+: t)
    (h : isSingle afterBlank t = true) : isSingle afterBlank s = true := by
  induction s generalizing afterBlank t with
  | nil => rfl
  | cons c s ih =>
    obtain ⟨rest, rfl⟩ := hst
    have hs : s <+: s ++ rest := List.prefix_append s rest
    by_cases hc : isBlank c = true
    · rw [List.cons_append, isSingle, if_pos hc, Bool.and_eq_true] at h
      rw [isSingle, if_pos hc, h.1, ih hs h.2]
      rfl
    · rw [List.cons_append, isSingle, if_neg hc] at h
      rw [isSingle, if_neg hc]
      exact ih hs h

theorem trimStart_trimEnd (s : List Char) :
    trimStart (trimEnd (trimStart s)) = trimEnd (trimStart s) := by
  have hprefix : trimEnd (trimStart s) <+: trimStart s := List.rdropWhile_prefix _ _
  cases h : trimEnd (trimStart s) with
  | nil => rfl
  | cons c t =>
    rw [h] at hprefix
    obtain ⟨rest, hrest⟩ := hprefix
    have hc : isBlank c ≠ true := by
      intro hc
      have htwice : trimStart (trimStart s) = trimStart s := List.dropWhile_idempotent _ _
      rw [← hrest] at htwice
      have hlength := congrArg List.length htwice
      have hle : (trimStart (t ++ rest)).length ≤ (t ++ rest).length :=
        (List.dropWhile_sublist isBlank).length_le
      rw [trimStart, List.cons_append, List.dropWhile_cons_of_pos hc] at hlength
      rw [trimStart] at hle
      simp only [List.length_cons] at hlength
      omega
    exact List.dropWhile_cons_of_neg hc

theorem trim_trim (s : List Char) : trim (trim s) = trim s := by
  show trimEnd (trimStart (trimEnd (trimStart s))) = trimEnd (trimStart s)
  rw [trimStart_trimEnd]
  exact List.rdropWhile_idempotent _ _

/-- A trimmed text neither begins nor ends with a blank. -/
theorem ends_of_trim {s : List Char} (h : trim s = s) :
    (∀ c ∈ s.head?, isBlank c = false) ∧ ∀ c ∈ s.getLast?, isBlank c = false := by
  constructor
  · have hstart : trimStart s = s := by
      have htwice := trimStart_trimEnd s
      rwa [show trimEnd (trimStart s) = s from h] at htwice
    rw [← hstart]
    exact head?_dropWhile_eq_false isBlank s
  · obtain ⟨-, -, -, hend⟩ := exists_trimEnd_append (trimStart s)
    rw [show trimEnd (trimStart s) = s from h] at hend
    rcases hend with rfl | ⟨front, last, rfl, hlast⟩
    · simp
    · simpa using hlast

/-- **Collapsing twice is collapsing once.** -/
theorem collapse_collapse (s : List Char) : collapse (collapse s) = collapse s := by
  have hsingle : isSingle false (collapse s) = true :=
    isSingle_of_isPrefix (List.rdropWhile_prefix isBlank _)
      (isSingle_of_isSuffix (List.dropWhile_suffix isBlank) (isSingle_squeezeFrom false s))
  have hsqueezed : squeezeFrom false (collapse s) = collapse s := squeezeFrom_of_isSingle hsingle
  show trim (squeezeFrom false (collapse s)) = collapse s
  rw [hsqueezed]
  exact trim_trim _

/-! ### Pieces of a text -/

/-- Squeezing leaves the piece as it is; the flags say whether a blank stands before the piece and
whether one stands at its end. -/
def Squeezed (before after : Bool) (s : List Char) : Prop :=
  ∀ t, squeezeFrom before (s ++ t) = s ++ squeezeFrom after t

namespace Squeezed

variable {s t : List Char}

theorem append {before middle after : Bool} (h : Squeezed before middle s)
    (h' : Squeezed middle after t) : Squeezed before after (s ++ t) := by
  intro rest
  rw [List.append_assoc, h, h', List.append_assoc]

theorem of_forall (h : ∀ c ∈ s, isBlank c = false) (hne : s ≠ []) (before : Bool) :
    Squeezed before false s := by
  intro rest
  induction s generalizing before with
  | nil => exact absurd rfl hne
  | cons c s ih =>
    obtain ⟨hc, hs⟩ := List.forall_mem_cons.1 h
    rw [List.cons_append, squeezeFrom, if_neg (by simp [hc])]
    cases s with
    | nil => rfl
    | cons d s =>
      rw [ih hs (List.cons_ne_nil d s)]
      rfl

/-- Pieces that end in ink, with a separator between them that begins with ink. -/
theorem join {separator : List Char} {middle : Bool} (hseparator : Squeezed false middle separator)
    {parts : List (List Char)} (h : ∀ part ∈ parts, ∀ before, Squeezed before false part) :
    Squeezed false false (separator.intercalate parts) := by
  have hall : ∀ before, parts ≠ [] → Squeezed before false (separator.intercalate parts) := by
    induction parts with
    | nil => exact fun _ hne => absurd rfl hne
    | cons part parts ih =>
      intro before _
      obtain ⟨hpart, hparts⟩ := List.forall_mem_cons.1 h
      cases parts with
      | nil => simpa using hpart before
      | cons q parts =>
        rw [List.intercalate_cons_cons]
        have hrest := ih hparts middle (List.cons_ne_nil q parts)
        exact ((hpart before).append hseparator).append hrest
  cases parts with
  | nil => exact fun _ => rfl
  | cons part parts => exact hall false (List.cons_ne_nil part parts)

end Squeezed

theorem mem_squeezeFrom {inBlanks : Bool} {s : List Char} {c : Char}
    (h : c ∈ squeezeFrom inBlanks s) : c ∈ s ∨ c = ' ' := by
  fun_induction squeezeFrom inBlanks s with
  | case1 => exact Or.inl h
  | case2 d s hd ih => exact (ih h).imp_left (List.mem_cons_of_mem d)
  | case3 inBlanks d s hd hfirst ih =>
    rcases List.mem_cons.1 h with hc | hs
    · exact Or.inr hc
    · exact (ih hs).imp_left (List.mem_cons_of_mem d)
  | case4 inBlanks d s hd ih =>
    rcases List.mem_cons.1 h with rfl | hs
    · exact Or.inl List.mem_cons_self
    · exact (ih hs).imp_left (List.mem_cons_of_mem d)

/-- **A piece between ink stays at the start of a text.** Behind it stand characters of the text. -/
theorem collapse_append {s : List Char} {c : Char} (hc : isBlank c = false) {after : Bool}
    (hsqueezed : Squeezed false after (c :: s)) (hend : EndsInk (c :: s)) (t : List Char) :
    ∃ left, (∀ d ∈ left, d ∈ t ∨ d = ' ') ∧ collapse (c :: s ++ t) = c :: s ++ left := by
  obtain ⟨front, last, hs, hlast⟩ := hend
  refine ⟨trimEnd (squeezeFrom after t), fun d hd => ?_, ?_⟩
  · exact mem_squeezeFrom ((List.rdropWhile_prefix isBlank _).subset hd)
  · rw [collapse, hsqueezed, trim, List.cons_append, trimStart_cons hc, ← List.cons_append, hs,
      List.append_assoc, List.singleton_append, trimEnd_append_cons hlast, List.append_assoc,
      List.singleton_append]

/-- A text that squeezing leaves alone stays if it is no blank at its ends. -/
theorem collapse_of_squeezed {s : List Char} {c : Char} (hc : isBlank c = false) {after : Bool}
    (hsqueezed : Squeezed false after (c :: s)) (hend : EndsInk (c :: s)) :
    collapse (c :: s) = c :: s := by
  have hall := hsqueezed []
  rw [List.append_nil, squeezeFrom, List.append_nil] at hall
  have hnone : ∀ b ∈ ([] : List Char), isBlank b = true := fun b hb => absurd hb List.not_mem_nil
  rw [collapse, hall]
  exact trim_of_ends hnone hc hend

/-! ### From the left to the right -/

/-- The text with one space for each gap and none at its end. The flag says that the character before
was blank, so that no space is put for a gap at the start. -/
def shorten (afterBlank : Bool) (s : List Char) : List Char := trimEnd (squeezeFrom afterBlank s)

theorem trimStart_squeezeFrom_true (s : List Char) :
    trimStart (squeezeFrom true s) = squeezeFrom true s := by
  induction s with
  | nil => rfl
  | cons c s ih =>
    by_cases hc : isBlank c = true
    · rw [squeezeFrom, if_pos hc, if_pos rfl]
      exact ih
    · rw [squeezeFrom, if_neg hc]
      exact trimStart_cons (by simpa using hc) _

theorem trimStart_squeezeFrom_false (s : List Char) :
    trimStart (squeezeFrom false s) = squeezeFrom true s := by
  cases s with
  | nil => rfl
  | cons c s =>
    by_cases hc : isBlank c = true
    · rw [squeezeFrom, if_pos hc, if_neg (by decide), squeezeFrom, if_pos hc, if_pos rfl,
        trimStart, List.dropWhile_cons_of_pos (by decide)]
      exact trimStart_squeezeFrom_true s
    · rw [squeezeFrom, if_neg hc, squeezeFrom, if_neg hc]
      exact trimStart_cons (by simpa using hc) _

/-- A text is joined as if a blank stood before it. -/
theorem collapse_eq_shorten (s : List Char) : collapse s = shorten true s := by
  rw [collapse, trim, trimStart_squeezeFrom_false]
  rfl

/-- Characters that are no blanks stay. -/
theorem shorten_append {p : List Char} (hne : p ≠ []) (hp : ∀ c ∈ p, isBlank c = false)
    (afterBlank : Bool) (t : List Char) : shorten afterBlank (p ++ t) = p ++ shorten false t := by
  obtain ⟨front, last, hends, hlast⟩ := endsInk_of_forall hne hp
  rw [shorten, Squeezed.of_forall hp hne afterBlank t, hends, List.append_assoc,
    List.singleton_append, trimEnd_append_cons hlast, shorten, List.append_assoc,
    List.singleton_append]

theorem squeezeFrom_append_cons {c : Char} (hc : isBlank c = false) (inBlanks : Bool)
    (s t : List Char) :
    squeezeFrom inBlanks (s ++ c :: t) = squeezeFrom inBlanks s ++ c :: squeezeFrom false t := by
  fun_induction squeezeFrom inBlanks s with
  | case1 => rw [List.nil_append, squeezeFrom, if_neg (by simp [hc]), List.nil_append]
  | case2 d s hd ih => rw [List.cons_append, squeezeFrom, if_pos hd, if_pos rfl, ih]
  | case3 inBlanks d s hd hfirst ih =>
    rw [List.cons_append, squeezeFrom, if_pos hd, if_neg hfirst, ih, List.cons_append]
  | case4 inBlanks d s hd ih =>
    rw [List.cons_append, squeezeFrom, if_neg hd, ih, List.cons_append]

/-- In front of ink the text is shortened as it is alone, and a gap may stay. -/
theorem exists_shorten_append_cons {c : Char} (hc : isBlank c = false) (afterBlank : Bool)
    (s t : List Char) : ∃ gap, (∀ b ∈ gap, isBlank b = true) ∧
      shorten afterBlank (s ++ c :: t) = shorten afterBlank s ++ (gap ++ c :: shorten false t) := by
  obtain ⟨gap, hgap, hblanks, -⟩ := exists_trimEnd_append (squeezeFrom afterBlank s)
  refine ⟨gap, hblanks, ?_⟩
  calc shorten afterBlank (s ++ c :: t)
      = squeezeFrom afterBlank s ++ c :: shorten false t := by
        rw [shorten, squeezeFrom_append_cons hc, trimEnd_append_cons hc, shorten]
    _ = shorten afterBlank s ++ gap ++ c :: shorten false t := congrArg (· ++ _) hgap
    _ = shorten afterBlank s ++ (gap ++ c :: shorten false t) := List.append_assoc _ _ _

/-- The blanks of a shortened text are spaces. -/
theorem eq_space_of_mem_shorten {c : Char} (hc : isBlank c = true) {afterBlank : Bool}
    {s : List Char} (h : c ∈ shorten afterBlank s) : c = ' ' := by
  have hsqueezed := (List.rdropWhile_prefix isBlank _).subset h
  clear h
  fun_induction squeezeFrom afterBlank s with
  | case1 => exact absurd hsqueezed List.not_mem_nil
  | case2 d s hd ih => exact ih hsqueezed
  | case3 inBlanks d s hd hfirst ih => exact (List.mem_cons.1 hsqueezed).elim id ih
  | case4 inBlanks d s hd ih =>
    rcases List.mem_cons.1 hsqueezed with rfl | hs
    · exact absurd hc hd
    · exact ih hs

theorem shorten_true_blank {c : Char} (hc : isBlank c = true) (s : List Char) :
    shorten true (c :: s) = shorten true s := by
  rw [shorten, squeezeFrom, if_pos hc, if_pos rfl]
  rfl

/-- A gap leaves a space, unless nothing follows. -/
theorem shorten_blank {c : Char} (hc : isBlank c = true) (s : List Char) :
    (shorten false (c :: s) = [] ∧ shorten true s = [])
      ∨ shorten false (c :: s) = ' ' :: shorten true s := by
  have hcons : shorten false (c :: s) = trimEnd (' ' :: squeezeFrom true s) := by
    rw [shorten, squeezeFrom, if_pos hc, if_neg (by decide)]
  rw [hcons, shorten]
  generalize squeezeFrom true s = t
  obtain ⟨blanks, ht, hblanks, hend⟩ := exists_trimEnd_append t
  rcases hend with hnil | hink
  · refine .inl ⟨List.rdropWhile_eq_nil_iff.2 ?_, hnil⟩
    rw [hnil, List.nil_append] at ht
    rw [ht]
    exact List.forall_mem_cons.2 ⟨by decide, hblanks⟩
  · obtain ⟨front, last, hfront, hlast⟩ := hink
    have hgone : trimEnd blanks = [] := List.rdropWhile_eq_nil_iff.2 hblanks
    refine .inr ?_
    conv => lhs; rw [ht, hfront]
    rw [hfront, List.append_assoc, List.singleton_append, ← List.cons_append,
      trimEnd_append_cons hlast, hgone]
    rfl

end SchemaAudit.Text
