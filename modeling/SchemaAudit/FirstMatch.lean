/-!
# The first member of a kind

Lists of named things are searched for the first member of a kind, and changed in place: this member
is replaced, and the others stay as they are.
-/

namespace SchemaAudit

/-- The list with its first member of a kind changed. -/
def updateFirst {α : Type} (p : α → Bool) (f : α → α) : List α → List α
  | [] => []
  | a :: rest => if p a then f a :: rest else a :: updateFirst p f rest

/-- A change that keeps a property of every member keeps its values in order. -/
theorem map_updateFirst {α β : Type} (g : α → β) (p : α → Bool) (f : α → α)
    (h : ∀ a, p a = true → g (f a) = g a) (as : List α) :
    (updateFirst p f as).map g = as.map g := by
  induction as with
  | nil => rfl
  | cons a as ih =>
    simp only [updateFirst]
    split
    · rename_i ha
      simp [h a ha]
    · simp [ih]

/-- Where only the last member is of the kind, it is the one that is changed. -/
theorem updateFirst_append_singleton {α : Type} {p : α → Bool} (f : α → α) {as : List α} {a : α}
    (h : ∀ b ∈ as, p b = false) (ha : p a = true) :
    updateFirst p f (as ++ [a]) = as ++ [f a] := by
  induction as with
  | nil => simp [updateFirst, ha]
  | cons b as ih =>
    have hb := h b List.mem_cons_self
    have hrest := ih fun b' hb' => h b' (List.mem_cons_of_mem _ hb')
    simp [updateFirst, hb, hrest]

/-- What holds of the members and of a changed member holds after the change. -/
theorem forall_mem_updateFirst {α : Type} {P : α → Prop} {p : α → Bool} {f : α → α} {as : List α}
    (h : ∀ a ∈ as, P a) (hf : ∀ a ∈ as, P (f a)) : ∀ a ∈ updateFirst p f as, P a := by
  induction as with
  | nil => exact h
  | cons b as ih =>
    obtain ⟨hb, has⟩ := List.forall_mem_cons.1 h
    obtain ⟨hfb, hfas⟩ := List.forall_mem_cons.1 hf
    rw [updateFirst]
    split
    · exact List.forall_mem_cons.2 ⟨hfb, has⟩
    · exact List.forall_mem_cons.2 ⟨hb, ih has hfas⟩

/-- Where no name stands twice, the first member of a name is the only one. -/
theorem updateFirst_eq_map {α : Type} {nameOf : α → String} {as : List α}
    (h : (as.map nameOf).Nodup) (name : String) (f : α → α) :
    updateFirst (fun a => nameOf a == name) f as
      = as.map fun a => if nameOf a = name then f a else a := by
  induction as with
  | nil => rfl
  | cons a as ih =>
    rw [List.map_cons, List.nodup_cons] at h
    by_cases ha : nameOf a = name
    · have hrest : ∀ b ∈ as, (if nameOf b = name then f b else b) = b := by
        intro b hb
        apply if_neg
        intro hname
        exact h.1 (ha.trans hname.symm ▸ List.mem_map_of_mem hb)
      simp [updateFirst, ha, List.map_congr_left hrest]
    · simp [updateFirst, ha, ih h.2]

/-- A member of a list in which no name stands twice is the first one of its name. -/
theorem find?_name {α β : Type} [BEq β] [LawfulBEq β] {nameOf : α → β} {as : List α}
    (h : (as.map nameOf).Nodup) {a : α} (ha : a ∈ as) :
    (as.find? fun b => nameOf b == nameOf a) = some a := by
  induction as with
  | nil => exact absurd ha List.not_mem_nil
  | cons b as ih =>
    rw [List.map_cons, List.nodup_cons] at h
    rcases List.mem_cons.1 ha with rfl | ha
    · exact List.find?_cons_of_pos (by simp)
    · have hne : nameOf b ≠ nameOf a := fun heq => h.1 (heq ▸ List.mem_map_of_mem ha)
      rw [List.find?_cons_of_neg (by simpa using hne), ih h.2 ha]

/-- Where no name stands twice, the order of the list does not matter for what is found. -/
theorem find?_perm {α β : Type} [BEq β] [LawfulBEq β] {nameOf : α → β} {as bs : List α}
    (hperm : as.Perm bs) (h : (as.map nameOf).Nodup) (name : β) :
    (as.find? fun a => nameOf a == name) = bs.find? fun a => nameOf a == name := by
  by_cases hname : ∃ a ∈ as, nameOf a = name
  · obtain ⟨a, ha, rfl⟩ := hname
    have hbs : (bs.map nameOf).Nodup := (hperm.map nameOf).nodup_iff.1 h
    rw [find?_name h ha, find?_name hbs (hperm.mem_iff.1 ha)]
  · have hnone : ∀ cs : List α, (∀ c ∈ cs, c ∈ as) → (cs.find? fun a => nameOf a == name) = none := by
      intro cs hcs
      rw [List.find?_eq_none]
      intro c hc hmatch
      exact hname ⟨c, hcs c hc, eq_of_beq hmatch⟩
    rw [hnone as fun _ ha => ha, hnone bs fun _ hb => hperm.mem_iff.2 hb]

theorem name_of_find? {α : Type} {nameOf : α → String} {as : List α} {name : String} {a : α}
    (h : (as.find? fun b => nameOf b == name) = some a) : nameOf a = name := by
  simpa using List.find?_some h

/-- The member is the first of its list that is of the kind. -/
def IsFirst {α : Type} (p : α → Prop) (as : List α) (a : α) : Prop :=
  ∃ before after, as = before ++ a :: after ∧ p a ∧ ∀ b ∈ before, ¬p b

theorem IsFirst.mem {α : Type} {p : α → Prop} {as : List α} {a : α} (h : IsFirst p as a) :
    a ∈ as := by
  obtain ⟨before, after, rfl, -, -⟩ := h
  exact List.mem_append_right before List.mem_cons_self

/-- What is found is the first member of the kind. -/
theorem find?_eq_some_iff_isFirst {α : Type} {p : α → Bool} {as : List α} {a : α} :
    as.find? p = some a ↔ IsFirst (fun b => p b = true) as a := by
  simp only [List.find?_eq_some_iff_append, IsFirst, Bool.not_eq_true', Bool.not_eq_true]
  constructor
  · rintro ⟨ha, before, after, has, hbefore⟩
    exact ⟨before, after, has, ha, hbefore⟩
  · rintro ⟨before, after, has, ha, hbefore⟩
    exact ⟨ha, before, after, has, hbefore⟩

/-- What is found is the value of the first member that has one. -/
theorem findSome?_eq_some_iff_isFirst {α β : Type} {f : α → Option β} {as : List α} {b : β} :
    as.findSome? f = some b ↔ ∃ a, IsFirst (fun a => (f a).isSome = true) as a ∧ f a = some b := by
  rw [List.findSome?_eq_some_iff]
  constructor
  · rintro ⟨before, a, after, has, ha, hbefore⟩
    exact ⟨a, ⟨before, after, has, by simp [ha], by simpa using hbefore⟩, ha⟩
  · rintro ⟨a, ⟨before, after, has, -, hbefore⟩, ha⟩
    exact ⟨before, a, after, has, ha, by simpa using hbefore⟩

end SchemaAudit
