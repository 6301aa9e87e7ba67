import SchemaAudit.Text.Search

/-!
# Joining, cutting, replacing and reading numbers

What these operations do to texts in which a character does not occur.

* `takeWhile_dropWhile_append`: a run is read up to the first character of another kind.
* `stripEnd?_eq_some_iff`: an ending is taken off a text exactly if the text ends in it.
* `forall_mem_intercalate`: what holds of the separator and of all parts holds of the joined text.
* `cutAt?_append`: a text without the mark is what stands before the mark.
* `forall_mem_splitOnP`, `mem_of_mem_splitOnP`: the parts of a text that is cut hold characters of
  the text, and none at which it was cut.
* `replaceAll_append_of_not_mem`, `replaceAll_append`: a part without the first character of what is
  replaced stays, and an occurrence behind it is replaced.
* `countOfText?_toString`: a number that is written in decimal digits is read back, and so is a count,
  as long as it has no more than 32 bits.
-/

namespace SchemaAudit.Text

/-! ### Runs -/

/-- Behind a run another character stands, or nothing. -/
theorem head?_dropWhile_eq_false (p : Char → Bool) (s : List Char) :
    ∀ c ∈ (s.dropWhile p).head?, p c = false := by
  intro c hc
  have hstop := List.head?_dropWhile_not p s
  rwa [Option.mem_def.1 hc] at hstop

/-- A run of characters of one kind ends where the first other one stands. -/
theorem takeWhile_dropWhile_append {p : Char → Bool} {s t : List Char}
    (hs : ∀ c ∈ s, p c = true) (ht : ∀ c ∈ t.head?, p c = false) :
    (s ++ t).takeWhile p = s ∧ (s ++ t).dropWhile p = t := by
  rw [List.takeWhile_append_of_pos hs, List.dropWhile_append_of_pos hs]
  cases t with
  | nil => simp
  | cons c t => simp [ht c rfl]

/-! ### Endings -/

/-- The text before an ending, if there is one. -/
theorem stripEnd?_eq_some_iff {ending s r : List Char} :
    stripEnd? ending s = some r ↔ s = r ++ ending := by
  rw [stripEnd?, Option.map_eq_some_iff]
  constructor
  · rintro ⟨t, ht, rfl⟩
    rw [← List.reverse_inj, eq_append_of_strip? ht, List.reverse_append, List.reverse_reverse]
  · rintro rfl
    exact ⟨r.reverse, by rw [List.reverse_append, strip?_append], List.reverse_reverse r⟩

/-! ### Joining and cutting -/

/-- What holds of the separator and of all parts holds of the joined parts. -/
theorem forall_mem_intercalate {α : Type} {p : α → Prop} {separator : List α}
    {parts : List (List α)} (hs : ∀ a ∈ separator, p a) (hp : ∀ part ∈ parts, ∀ a ∈ part, p a) :
    ∀ a ∈ separator.intercalate parts, p a := by
  induction parts with
  | nil => simp
  | cons part parts ih =>
    have hfirst := hp part List.mem_cons_self
    have hrest := ih fun q hq => hp q (List.mem_cons_of_mem _ hq)
    cases parts with
    | nil => simpa using hfirst
    | cons q parts =>
      intro a ha
      rw [List.intercalate_cons_cons, List.mem_append, List.mem_append] at ha
      rcases ha with (ha | ha) | ha
      · exact hfirst a ha
      · exact hs a ha
      · exact hrest a ha

theorem not_mem_intercalate {x : Char} {separator : List Char} {parts : List (List Char)}
    (hs : x ∉ separator) (hp : ∀ p ∈ parts, x ∉ p) : x ∉ separator.intercalate parts := by
  intro hx
  have hne := forall_mem_intercalate (p := fun c => c ≠ x)
    (fun c hc e => hs (e ▸ hc)) (fun part hpart c hc e => hp part hpart (e ▸ hc))
  exact hne x hx rfl

theorem cutAt?_of_not_mem {mark : Char} {s : List Char} (h : mark ∉ s) : cutAt? mark s = none := by
  induction s with
  | nil => rfl
  | cons c s ih =>
    have hc : c ≠ mark := fun e => h (e ▸ List.mem_cons_self)
    have hs := ih fun hm => h (List.mem_cons_of_mem _ hm)
    rw [cutAt?, if_neg hc, hs]
    rfl

/-- A text without the mark is what stands before the mark. -/
theorem cutAt?_append {mark : Char} {s : List Char} (h : mark ∉ s) (rest : List Char) :
    cutAt? mark (s ++ mark :: rest) = some (s, rest) := by
  induction s with
  | nil => simp [cutAt?]
  | cons c s ih =>
    have hc : c ≠ mark := fun e => h (e ▸ List.mem_cons_self)
    have hs := ih fun hm => h (List.mem_cons_of_mem _ hm)
    simp [cutAt?, hc, hs]

/-- The mark is the first one. -/
theorem eq_append_of_cutAt? {mark : Char} {s before after : List Char}
    (h : cutAt? mark s = some (before, after)) : s = before ++ mark :: after ∧ mark ∉ before := by
  induction s generalizing before with
  | nil => cases h
  | cons c s ih =>
    rw [cutAt?] at h
    split at h
    · rename_i hc
      obtain ⟨rfl, rfl⟩ := Prod.mk.injEq .. ▸ Option.some.inj h
      exact ⟨by rw [hc]; rfl, List.not_mem_nil⟩
    · rename_i hc
      obtain ⟨⟨front, behind⟩, hcut, he⟩ := Option.map_eq_some_iff.1 h
      obtain ⟨rfl, rfl⟩ := Prod.mk.injEq .. ▸ he
      obtain ⟨rfl, hmark⟩ := ih hcut
      exact ⟨rfl, by simp [hmark, Ne.symm hc]⟩

/-- No part of a text that is cut at characters of a kind holds such a character. -/
theorem forall_mem_splitOnP (p : Char → Bool) (s : List Char) :
    ∀ part ∈ s.splitOnP p, ∀ c ∈ part, p c = false := by
  induction s with
  | nil => simp
  | cons d s ih =>
    rw [List.splitOnP_cons_eq_if_modifyHead]
    split
    · rintro part (_ | ⟨_, hpart⟩) c hc
      · exact absurd hc List.not_mem_nil
      · exact ih part hpart c hc
    · rename_i hd
      cases hs : s.splitOnP p with
      | nil => simp
      | cons first rest =>
        rw [hs] at ih
        rw [List.modifyHead_cons]
        rintro part (_ | ⟨_, hpart⟩) c hc
        · rcases List.mem_cons.1 hc with rfl | hc
          · simpa using hd
          · exact ih first List.mem_cons_self c hc
        · exact ih part (List.mem_cons_of_mem _ hpart) c hc

/-- The parts of a text that is cut hold characters of the text. -/
theorem mem_of_mem_splitOnP {p : Char → Bool} {s part : List Char} (h : part ∈ s.splitOnP p)
    {c : Char} (hc : c ∈ part) : c ∈ s := by
  induction s generalizing part with
  | nil =>
    rw [List.splitOnP_nil, List.mem_singleton] at h
    rwa [h] at hc
  | cons d s ih =>
    rw [List.splitOnP_cons_eq_if_modifyHead] at h
    split at h
    · rcases List.mem_cons.1 h with rfl | h
      · exact absurd hc List.not_mem_nil
      · exact List.mem_cons_of_mem d (ih h hc)
    · obtain ⟨first, rest, hs⟩ := List.exists_cons_of_ne_nil (List.splitOnP_ne_nil p s)
      rw [hs, List.modifyHead_cons] at h
      rw [hs] at ih
      rcases List.mem_cons.1 h with rfl | h
      · rcases List.mem_cons.1 hc with rfl | hc
        · exact List.mem_cons_self
        · exact List.mem_cons_of_mem d (ih List.mem_cons_self hc)
      · exact List.mem_cons_of_mem d (ih (List.mem_cons_of_mem _ h) hc)

/-! ### Replacing -/

theorem strip?_of_ne {c d : Char} (h : c ≠ d) (old s : List Char) :
    strip? (c :: old) (d :: s) = none := by
  rw [strip?, if_neg h]

/-- An occurrence at the start is replaced. -/
theorem replaceAll_self (c : Char) (old new rest : List Char) :
    replaceAll (c :: old) new (c :: old ++ rest) = new ++ replaceAll (c :: old) new rest := by
  have hstrip : strip? (c :: old) (c :: (old ++ rest)) = some rest := strip?_append (c :: old) rest
  have hlength : rest.length < (c :: (old ++ rest)).length := by
    simp only [List.length_cons, List.length_append]
    omega
  rw [List.cons_append, replaceAll, hstrip]
  simp only [if_pos hlength]

theorem replaceAll_cons_of_ne {c d : Char} (h : c ≠ d) (old new s : List Char) :
    replaceAll (c :: old) new (d :: s) = d :: replaceAll (c :: old) new s := by
  rw [replaceAll, strip?_of_ne h]

/-- A part without the first character of what is replaced stays. -/
theorem replaceAll_append_of_not_mem {c : Char} {s : List Char} (h : c ∉ s)
    (old new rest : List Char) :
    replaceAll (c :: old) new (s ++ rest) = s ++ replaceAll (c :: old) new rest := by
  induction s with
  | nil => rfl
  | cons d s ih =>
    have hc : c ≠ d := fun e => h (e ▸ List.mem_cons_self)
    have hs := ih fun hm => h (List.mem_cons_of_mem _ hm)
    rw [List.cons_append, replaceAll_cons_of_ne hc, hs, List.cons_append]

/-- The first occurrence is replaced. -/
theorem replaceAll_append {c : Char} {s : List Char} (h : c ∉ s) (old new rest : List Char) :
    replaceAll (c :: old) new (s ++ (c :: old ++ rest))
      = s ++ (new ++ replaceAll (c :: old) new rest) := by
  rw [replaceAll_append_of_not_mem h, replaceAll_self]

theorem replaceAll_of_not_mem {c : Char} {s : List Char} (h : c ∉ s) (old new : List Char) :
    replaceAll (c :: old) new s = s := by
  have happend := replaceAll_append_of_not_mem h old new []
  rwa [List.append_nil, replaceAll, List.append_nil] at happend

/-! ### Written numbers -/

theorem isDigit_of_mem_toString {n : Nat} {c : Char} (hc : c ∈ (toString n).toList) :
    isDigit c = true := by
  rw [Nat.toString_eq_repr, Nat.toList_repr] at hc
  have hd := Nat.isDigit_of_mem_toDigits (by decide) (by decide) hc
  simpa [Char.isDigit, isDigit, Char.le_def, UInt32.le_iff_toNat_le] using hd

theorem toList_toString_ne_nil (n : Nat) : (toString n).toList ≠ [] := by
  rw [Nat.toString_eq_repr, Nat.toList_repr]
  exact Nat.toDigits_ne_nil

/-- A number is what its digits stand for. -/
theorem natOfDigits_toString (n : Nat) : natOfDigits (toString n).toList = n := by
  rw [Nat.toString_eq_repr, Nat.toList_repr]
  exact Nat.ofDigitChars_toDigits (by decide) (by decide)

/-- **A count is read back exactly if it has no more than 32 bits.** -/
theorem countOfText?_toString (n : Nat) :
    countOfText? (toString n).toList = if n ≤ maxCount then some n else none := by
  have hdigits : (toString n).toList.all isDigit = true :=
    List.all_eq_true.2 fun _ hc => isDigit_of_mem_toString hc
  have hnumber := natOfDigits_toString n
  unfold countOfText?
  cases htext : (toString n).toList with
  | nil => exact absurd htext (toList_toString_ne_nil n)
  | cons c digits =>
    rw [htext] at hdigits hnumber
    have hsign : c ≠ '+' := by
      intro hc
      rw [hc] at hdigits
      exact absurd hdigits (by simp [isDigit])
    split
    · rename_i rest hrest
      exact absurd (List.cons.inj hrest).1 hsign
    · simp only [hdigits, hnumber]
      rfl

end SchemaAudit.Text
