import SchemaAudit.Proofs.Token.Spelling

/-!
# Where delimited texts end

The scanner reads a delimited text up to the delimiter that closes it, or to the end of all text if
there is none. What it reads depends on nothing behind this delimiter but whether it stands twice
there.

* `IsBody`: what may stand between two delimiters.
* `closed?`: where the closing delimiter stands, if there is one; in front of it stands a body
  (`isBody_of_closed?`).
* `IsBody.exists_delimited`: a body is read as the same text in front of anything.
* `StartsLike`: as much of what follows a token as the scanner looks at.
-/

namespace SchemaAudit.Token

/-- Characters between delimiters: a doubled delimiter, a backslash with the character that it
escapes, or any other character. -/
inductive IsBody (close : Char) (escapes : Bool) : List Char → Prop
  | nil : IsBody close escapes []
  | double {s : List Char} : IsBody close escapes s → IsBody close escapes (close :: close :: s)
  | escaped {c : Char} {s : List Char} : escapes = true → '\\' ≠ close →
      IsBody close escapes s → IsBody close escapes ('\\' :: c :: s)
  | plain {c : Char} {s : List Char} : c ≠ close → (escapes && c = '\\') = false →
      IsBody close escapes s → IsBody close escapes (c :: s)

/-- The characters up to the delimiter that closes a text, and what stands behind it. -/
def closed? (close : Char) (escapes : Bool) : List Char → Option (List Char × List Char)
  | [] => none
  | c :: rest =>
    if c = close then
      match rest with
      | [] => some ([], [])
      | d :: after =>
        if d = close then (closed? close escapes after).map fun (p, t) => (c :: d :: p, t)
        else some ([], d :: after)
    else if escapes && c = '\\' then
      match rest with
      | [] => none
      | e :: after => (closed? close escapes after).map fun (p, t) => (c :: e :: p, t)
    else (closed? close escapes rest).map fun (p, t) => (c :: p, t)

variable {close : Char} {escapes : Bool}

/-- **What is closed is a body**, and the delimiter does not stand twice behind it. -/
theorem isBody_of_closed? {s p t : List Char} (h : closed? close escapes s = some (p, t)) :
    IsBody close escapes p ∧ s = p ++ close :: t ∧ ∀ c ∈ t.head?, c ≠ close := by
  fun_induction closed? close escapes s generalizing p with
  | case1 => cases h
  | case2 =>
    obtain ⟨rfl, rfl⟩ := Prod.mk.inj (Option.some.inj h)
    exact ⟨.nil, rfl, by simp⟩
  | case3 after ih =>
    obtain ⟨⟨q, t⟩, hq, heq⟩ := Option.map_eq_some_iff.1 h
    obtain ⟨rfl, rfl⟩ := Prod.mk.inj heq
    obtain ⟨hbody, rfl, ht⟩ := ih hq
    exact ⟨hbody.double, rfl, ht⟩
  | case4 d after hd =>
    obtain ⟨rfl, rfl⟩ := Prod.mk.inj (Option.some.inj h)
    exact ⟨.nil, rfl, by simpa using hd⟩
  | case5 => cases h
  | case6 c hc hescape e after ih =>
    obtain ⟨⟨q, t⟩, hq, heq⟩ := Option.map_eq_some_iff.1 h
    obtain ⟨rfl, rfl⟩ := Prod.mk.inj heq
    obtain ⟨hbody, rfl, ht⟩ := ih hq
    simp only [Bool.and_eq_true, decide_eq_true_eq] at hescape
    obtain ⟨hescapes, rfl⟩ := hescape
    exact ⟨hbody.escaped hescapes hc, rfl, ht⟩
  | case7 c rest hc hescape ih =>
    obtain ⟨⟨q, t⟩, hq, heq⟩ := Option.map_eq_some_iff.1 h
    obtain ⟨rfl, rfl⟩ := Prod.mk.inj heq
    obtain ⟨hbody, rfl, ht⟩ := ih hq
    exact ⟨hbody.plain hc (Bool.eq_false_iff.2 hescape), rfl, ht⟩

theorem IsBody.append {p q : List Char} (hp : IsBody close escapes p)
    (hq : IsBody close escapes q) : IsBody close escapes (p ++ q) := by
  induction hp with
  | nil => exact hq
  | double _ ih => exact ih.double
  | escaped hescapes hclose _ ih => exact ih.escaped hescapes hclose
  | plain hc hescape _ ih => exact ih.plain hc hescape

/-- What a body begins with. -/
theorem IsBody.cons_cases {c : Char} {s : List Char} (h : IsBody close escapes (c :: s)) :
    (c = close ∧ ∃ t, s = close :: t ∧ IsBody close escapes t)
      ∨ (c = '\\' ∧ c ≠ close ∧ ∃ d t, s = d :: t ∧ IsBody close escapes t)
      ∨ (c ≠ close ∧ (escapes && c = '\\') = false ∧ IsBody close escapes s) := by
  cases h with
  | double hs => exact .inl ⟨rfl, _, rfl, hs⟩
  | escaped _ hclose hs => exact .inr (.inl ⟨rfl, hclose, _, _, rfl, hs⟩)
  | plain hc hescape hs => exact .inr (.inr ⟨hc, hescape, hs⟩)

/-- The end of a text is looked for behind a body. -/
theorem IsBody.closed?_append {p : List Char} (h : IsBody close escapes p) (t : List Char) :
    closed? close escapes (p ++ t) = (closed? close escapes t).map fun (q, r) => (p ++ q, r) := by
  induction h with
  | nil => simp
  | double _ ih =>
    rw [List.cons_append, List.cons_append, closed?.eq_def]
    simp only [if_pos, ih, Option.map_map]
    rfl
  | escaped hescapes hclose _ ih =>
    subst hescapes
    rw [List.cons_append, List.cons_append, closed?.eq_def]
    simp only [if_neg hclose, decide_true, Bool.and_self, if_pos, ih, Option.map_map]
    rfl
  | plain hc hescape _ ih =>
    rw [List.cons_append, closed?.eq_def]
    simp only [if_neg hc, hescape, Bool.false_eq_true, if_false, ih, Option.map_map]
    rfl

theorem IsBody.closed?_eq_none {p : List Char} (h : IsBody close escapes p) :
    closed? close escapes p = none := by
  have happend := h.closed?_append []
  rwa [List.append_nil] at happend

theorem closed?_close {t : List Char} (ht : ∀ c ∈ t.head?, c ≠ close) :
    closed? close escapes (close :: t) = some ([], t) := by
  cases t with
  | nil => simp [closed?]
  | cons d t =>
    rw [closed?.eq_def]
    simp only [if_pos, if_neg (ht d rfl)]

theorem delimited_double (s : List Char) : delimited close escapes (close :: close :: s)
    = (close :: (delimited close escapes s).1, (delimited close escapes s).2) := by
  rw [delimited.eq_def]
  simp only [if_pos]

theorem delimited_close {t : List Char} (ht : ∀ c ∈ t.head?, c ≠ close) :
    delimited close escapes (close :: t) = ([], t) := by
  cases t with
  | nil => simp [delimited]
  | cons d t =>
    rw [delimited.eq_def]
    simp only [if_pos, if_neg (ht d rfl)]

theorem delimited_escaped (hescapes : escapes = true) (hclose : '\\' ≠ close) (c : Char)
    (s : List Char) : delimited close escapes ('\\' :: c :: s)
      = (delimited.unescape c :: (delimited close escapes s).1, (delimited close escapes s).2) := by
  rw [delimited.eq_def]
  simp [hclose, hescapes]

/-- **A body is read as the same text in front of anything** that does not go on with the
delimiter. -/
theorem IsBody.exists_delimited {p : List Char} (h : IsBody close escapes p) :
    ∃ v, ∀ t : List Char, (∀ c ∈ t.head?, c ≠ close) →
      delimited close escapes (p ++ close :: t) = (v, t) := by
  induction h with
  | nil => exact ⟨[], fun t ht => delimited_close ht⟩
  | double _ ih =>
    obtain ⟨v, hv⟩ := ih
    refine ⟨close :: v, fun t ht => ?_⟩
    rw [List.cons_append, List.cons_append, delimited_double, hv t ht]
  | @escaped c s hescapes hclose _ ih =>
    obtain ⟨v, hv⟩ := ih
    refine ⟨delimited.unescape c :: v, fun t ht => ?_⟩
    rw [List.cons_append, List.cons_append, delimited_escaped hescapes hclose, hv t ht]
  | @plain c s hc hescape _ ih =>
    obtain ⟨v, hv⟩ := ih
    refine ⟨c :: v, fun t ht => ?_⟩
    rw [List.cons_append, delimited_cons_of_ne hc (by simp [hescape]), hv t ht]

/-- Without a closing delimiter everything is read. -/
theorem delimited_of_closed?_eq_none {s : List Char} (h : closed? close escapes s = none) :
    (delimited close escapes s).2 = [] := by
  fun_induction closed? close escapes s with
  | case1 => rfl
  | case2 => cases h
  | case3 after ih => rw [delimited_double, ih (Option.map_eq_none_iff.1 h)]
  | case4 => cases h
  | case5 c hc hescape => simp [delimited, hc, hescape]
  | case6 c hc hescape e after ih =>
    simp only [Bool.and_eq_true, decide_eq_true_eq] at hescape
    obtain ⟨hescapes, rfl⟩ := hescape
    rw [delimited_escaped hescapes hc, ih (Option.map_eq_none_iff.1 h)]
  | case7 c rest hc hescape ih =>
    rw [delimited_cons_of_ne hc hescape, ih (Option.map_eq_none_iff.1 h)]

/-! ### What follows a token -/

/-- What stands first is what stood first, or a blank, or nothing. Behind the end of a text nothing
stands. -/
def StartsLike (t t' : List Char) : Prop :=
  t'.head? = t.head? ∨ (t ≠ [] ∧ ∀ c ∈ t'.head?, c = ' ' ∨ c = '\n')

theorem StartsLike.eq_nil {t' : List Char} (h : StartsLike [] t') : t' = [] := by
  rcases h with h | ⟨hne, -⟩
  · exact List.head?_eq_none_iff.1 h
  · exact absurd rfl hne

/-- A class without blanks that stood not first does not stand first. -/
theorem StartsLike.not_class {t t' : List Char} (h : StartsLike t t') {p : Char → Bool}
    (hspace : p ' ' = false) (hbreak : p '\n' = false) (ht : ∀ c ∈ t.head?, p c = false) :
    ∀ c ∈ t'.head?, p c = false := by
  intro c hc
  rcases h with h | ⟨-, h⟩
  · exact ht c (h ▸ hc)
  · rcases h c hc with rfl | rfl
    · exact hspace
    · exact hbreak

theorem numberTail_append_self (seen : Bool) (s : List Char) :
    (numberTail seen s).1 ++ (numberTail seen s).2 = s := by
  fun_induction numberTail seen s <;> simp_all

theorem numberTail_of_head {seen : Bool} {t : List Char}
    (h : ∀ c ∈ t.head?, (c = '.' && !seen || Text.isDigit c) = false) :
    numberTail seen t = ([], t) := by
  cases t with
  | nil => rfl
  | cons c t =>
    have hc := h c rfl
    simp only [Bool.or_eq_false_iff] at hc
    rw [numberTail, if_neg (by simp [hc.1]), if_neg (by simp [hc.2])]

theorem numberTail_startsLike {seen : Bool} {s t' : List Char}
    (h : StartsLike (numberTail seen s).2 t') :
    numberTail seen ((numberTail seen s).1 ++ t') = ((numberTail seen s).1, t') := by
  fun_induction numberTail seen s with
  | case1 =>
    rw [h.eq_nil]
    rfl
  | case2 seen c rest hpoint digits left htail ih =>
    rw [htail] at ih
    simp only [List.cons_append]
    rw [numberTail, if_pos hpoint, ih h]
  | case3 seen c rest hpoint hdigit digits left htail ih =>
    rw [htail] at ih
    simp only [List.cons_append]
    rw [numberTail, if_neg hpoint, if_pos hdigit, ih h]
  | case4 seen c rest hpoint hdigit =>
    refine numberTail_of_head (h.not_class (p := fun c => c = '.' && !seen || Text.isDigit c)
      (by cases seen <;> decide) (by cases seen <;> decide) fun d hd => ?_)
    obtain rfl := Option.some.inj hd
    simp [hpoint, hdigit]

end SchemaAudit.Token
