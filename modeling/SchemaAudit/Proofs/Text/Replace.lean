import SchemaAudit.Proofs.Text.Search

/-!
# Replacing every occurrence

What replacing does to a text that is put together from parts.

* `replaceAll_append_of_not_isInfix`: a part without occurrences stays, whatever stands behind it.
* `replaceAll_eq_self_iff`: a text is left alone exactly if it puts in what was there, or there is
  no occurrence.
-/

namespace SchemaAudit.Text

/-- A text that does not begin with an occurrence keeps its first character. -/
theorem replaceAll_cons_of_not_isPrefix {c d : Char} {old s : List Char}
    (h : ¬(c :: old) <+: d :: s) (new : List Char) :
    replaceAll (c :: old) new (d :: s) = d :: replaceAll (c :: old) new s := by
  have hstrip : strip? (c :: old) (d :: s) = none := by
    cases hs : strip? (c :: old) (d :: s) with
    | none => rfl
    | some r => exact absurd ⟨r, (eq_append_of_strip? hs).symm⟩ h
  rw [replaceAll, hstrip]

/-- A stretch without occurrences stays, in front of another occurrence as well as at the end: where
the first character of what is replaced does not come again in it, no occurrence begins in the
stretch and ends behind it. -/
theorem replaceAll_append_of_not_isInfix {c : Char} {old s rest : List Char} (hc : c ∉ old)
    (hs : ¬(c :: old) <:+: s) (hrest : ∀ d ∈ rest.head?, d = c) (new : List Char) :
    replaceAll (c :: old) new (s ++ rest) = s ++ replaceAll (c :: old) new rest := by
  induction s with
  | nil => rfl
  | cons d s ih =>
    have hbehind : ¬(c :: old) <:+: s := fun hin => hs (List.infix_cons hin)
    have hfront : ¬(c :: old) <+: d :: (s ++ rest) := by
      rintro ⟨r, hr⟩
      rw [← List.cons_append] at hr
      rcases List.append_eq_append_iff.1 hr with ⟨as, hin, -⟩ | ⟨bs, hout, hmore⟩
      · exact hs ⟨[], as, by simpa using hin.symm⟩
      · cases bs with
        | nil => exact hs ⟨[], [], by simpa using hout⟩
        | cons b bs =>
          obtain rfl : b = c := hrest b (by rw [hmore]; rfl)
          rw [List.cons_append, List.cons.injEq] at hout
          exact hc (hout.2 ▸ List.mem_append_right s List.mem_cons_self)
    rw [List.cons_append, replaceAll_cons_of_not_isPrefix hfront, ih hbehind, List.cons_append]

/-- A text that is replaced by a longer one makes no text shorter, and the other way round. -/
theorem length_replaceAll (c : Char) (old new s : List Char) :
    (new.length ≤ (c :: old).length → (replaceAll (c :: old) new s).length ≤ s.length) ∧
      ((c :: old).length ≤ new.length → s.length ≤ (replaceAll (c :: old) new s).length) := by
  fun_induction replaceAll (c :: old) new s with
  | case1 => simp
  | case2 d rest h ih => simpa using ih
  | case3 d rest after h hlt ih =>
    have hd := congrArg List.length (eq_append_of_strip? h)
    simp only [List.length_append, List.length_cons] at hd ih ⊢
    omega
  | case4 d rest after h hlt ih => simpa using ih

theorem replaceAll_same (old s : List Char) : replaceAll old old s = s := by
  fun_induction replaceAll old old s with
  | case1 => rfl
  | case2 d rest h ih => rw [ih]
  | case3 d rest after h hlt ih => rw [ih, eq_append_of_strip? h]
  | case4 d rest after h hlt ih => rw [ih]

/-- Where replacing an occurrence leaves the text alone, what is put in is what was there. -/
theorem eq_of_replaceAll_eq_self {c : Char} {old new s : List Char} (hin : (c :: old) <:+: s)
    (h : replaceAll (c :: old) new s = s) : new = c :: old := by
  fun_induction replaceAll (c :: old) new s with
  | case1 => simp at hin
  | case2 d rest hnone ih =>
    rcases List.infix_cons_iff.1 hin with ⟨r, hr⟩ | hin
    · rw [← hr, strip?_append] at hnone
      cases hnone
    · exact ih hin (List.cons.inj h).2
  | case3 d rest after hsome hlt ih =>
    rw [eq_append_of_strip? hsome] at h
    have hlengths := congrArg List.length h
    have hbounds := length_replaceAll c old new after
    simp only [List.length_append] at hlengths
    exact (List.append_inj h (by omega)).1
  | case4 d rest after hsome hlt ih =>
    have hlength := congrArg List.length (eq_append_of_strip? hsome)
    simp only [List.length_append, List.length_cons] at hlength hlt
    omega

/-- Replacing leaves a text alone exactly if it puts in what was there, or there is no occurrence. -/
theorem replaceAll_eq_self_iff {c : Char} {old new s : List Char} (hc : c ∉ old) :
    replaceAll (c :: old) new s = s ↔ new = c :: old ∨ ¬(c :: old) <:+: s := by
  constructor
  · intro h
    by_cases hin : (c :: old) <:+: s
    · exact .inl (eq_of_replaceAll_eq_self hin h)
    · exact .inr hin
  · rintro (rfl | hs)
    · exact replaceAll_same (c :: old) s
    · have happend : replaceAll (c :: old) new (s ++ []) = s ++ replaceAll (c :: old) new [] :=
        replaceAll_append_of_not_isInfix hc hs (by simp) new
      rwa [List.append_nil, replaceAll, List.append_nil] at happend

end SchemaAudit.Text
