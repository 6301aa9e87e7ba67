import SchemaAudit.Proofs.Ddl.AlikeScript

/-!
# What statements do to a schema

A statement is read as a list of changes, and the schema is what the changes of all statements make
of the empty one. What holds of every schema that is read is shown here once as far as it concerns
reading, so that an invariant only has to look at single changes.

* `Element.IsRead`, `Change.IsRead`: what is read of some input. A declared entity is made up of
  elements that were read.
* `Element.IsRead.exists_column`: a column of such an element was read as a column.
* `statements_keep`: what every change that is read keeps, holds of the schema in the end.
-/

namespace SchemaAudit.Ddl

/-- The element of a table is read of some input. -/
def Element.IsRead (dialect : Dialect) (table : String) (el : Element) : Prop :=
  ∃ l s rest, element dialect table l s = .ok (el, rest)

/-- The change may be read of a statement: it adds to the schema, or declares what elements that
are read make up. -/
def Change.IsRead (dialect : Dialect) : Change → Prop
  | declare e references => ∃ es, e = Entity.ofElements e.name es
      ∧ references = es.flatMap Element.references ∧ ∀ el ∈ es, el.IsRead dialect e.name
  | refer _ => True
  | addKey _ _ => True

/-! ### Tables -/

/-- Only a column is an element with a column. -/
theorem Element.IsRead.exists_column {dialect : Dialect} {table : String} {el : Element}
    (h : el.IsRead dialect table) {c : Column} (hc : c ∈ el.column?) :
    ∃ name s references rest, Ddl.column dialect table name s = .ok ((c, references), rest) := by
  obtain ⟨l, s, rest, h⟩ := h
  have hother : ∀ {el' : Element} {x : Except ReadError Input}, el'.column? = none →
      x.map (fun left => (el', left)) ≠ .ok (el, rest) := by
    intro el' x hnone hx
    obtain ⟨left, -, he⟩ := eq_ok_of_map_eq_ok hx
    obtain ⟨rfl, -⟩ := Prod.mk.injEq .. ▸ he
    rw [hnone] at hc
    cases hc
  unfold element at h
  split at h
  · split at h
    · cases h
    · exact absurd h (hother rfl)
  · split at h
    · cases h
    · exact absurd h (hother rfl)
  · split at h
    · cases h
    · exact absurd h (hother rfl)
  · exact absurd h (hother rfl)
  · exact absurd h (hother rfl)
  · exact absurd h (hother rfl)
  · split at h
    · exact absurd h (hother rfl)
    · split at h
      · obtain ⟨⟨⟨c', references⟩, left⟩, hcolumn, he⟩ := eq_ok_of_map_eq_ok h
        obtain ⟨rfl, -⟩ := Prod.mk.injEq .. ▸ he
        obtain rfl : c' = c := Option.some.inj hc
        exact ⟨_, _, _, _, hcolumn⟩
      · cases h

theorem isRead_elements {dialect : Dialect} {table : String} {s rest : Input}
    {es : List Element} (h : elements dialect table s = .ok (es, rest)) :
    ∀ el ∈ es, el.IsRead dialect table := by
  fun_induction elements dialect table s generalizing es with
  | case7 s l after hs el l' left hel hcomma hsemicolon hfinish hclose ih =>
    obtain ⟨⟨es', left'⟩, hmore, he⟩ := eq_ok_of_map_eq_ok h
    obtain ⟨rfl, rfl⟩ := Prod.mk.injEq .. ▸ he
    exact List.forall_mem_cons.2 ⟨⟨l, after, _, hel⟩, ih hmore⟩
  | case8 s l after hs el l' left hel hend hsemicolon hfinish hclose =>
    simp only [Except.ok.injEq, Prod.mk.injEq] at h
    obtain ⟨rfl, -⟩ := h
    exact List.forall_mem_singleton.2 ⟨l, after, _, hel⟩
  | _ => simp_all

theorem isRead_tableBody {dialect : Dialect} {table : String} {s rest : Input}
    {es : List Element} (h : tableBody dialect table s = .ok (es, rest)) :
    ∀ el ∈ es, el.IsRead dialect table := by
  unfold tableBody at h
  split at h
  · exact isRead_elements h
  · split at h
    · simp only [Except.ok.injEq, Prod.mk.injEq] at h
      obtain ⟨rfl, -⟩ := h
      simp
    · exact isRead_elements h

/-! ### Statements -/

theorem isRead_createTable {dialect : Dialect} {s rest : Input} {changes : List Change}
    (h : createTable dialect s = .ok (changes, rest)) :
    ∀ change ∈ changes, change.IsRead dialect := by
  unfold createTable at h
  split at h
  · simp only [Except.ok.injEq, Prod.mk.injEq] at h
    obtain ⟨rfl, -⟩ := h
    simp
  · split at h
    · obtain ⟨⟨es, left⟩, hbody, he⟩ := eq_ok_of_map_eq_ok h
      obtain ⟨rfl, -⟩ := Prod.mk.injEq .. ▸ he
      exact List.forall_mem_singleton.2 ⟨es, rfl, rfl, isRead_tableBody hbody⟩
    · simp only [Except.ok.injEq, Prod.mk.injEq] at h
      obtain ⟨rfl, -⟩ := h
      simp

theorem isRead_createStatement {dialect : Dialect} {s rest : Input} {changes : List Change}
    (h : createStatement dialect s = .ok (changes, rest)) :
    ∀ change ∈ changes, change.IsRead dialect := by
  unfold createStatement at h
  simp only at h
  split at h
  · exact isRead_createTable h
  · simp only [Except.ok.injEq, Prod.mk.injEq] at h
    obtain ⟨rfl, -⟩ := h
    simp

/-- What is added to a table declares none. -/
theorem isRead_addition (dialect : Dialect) {table : String} {s rest : Input}
    {changes : List Change} (h : addition table s = .ok (changes, rest)) :
    ∀ change ∈ changes, change.IsRead dialect := by
  cases s with
  | nil => simp_all [addition]
  | cons l s =>
    simp only [addition] at h
    split at h
    · obtain ⟨⟨r, left⟩, -, he⟩ := eq_ok_of_map_eq_ok h
      obtain ⟨rfl, -⟩ := Prod.mk.injEq .. ▸ he
      exact List.forall_mem_singleton.2 trivial
    · obtain ⟨⟨columns, left⟩, -, he⟩ := eq_ok_of_map_eq_ok h
      obtain ⟨rfl, -⟩ := Prod.mk.injEq .. ▸ he
      exact List.forall_mem_singleton.2 trivial
    · obtain ⟨⟨columns, left⟩, -, he⟩ := eq_ok_of_map_eq_ok h
      obtain ⟨rfl, -⟩ := Prod.mk.injEq .. ▸ he
      exact List.forall_mem_singleton.2 trivial
    · simp_all

theorem isRead_additions (dialect : Dialect) {table : String} {s rest : Input}
    {changes : List Change} (h : additions table s = .ok (changes, rest)) :
    ∀ change ∈ changes, change.IsRead dialect := by
  fun_induction additions table s generalizing changes with
  | case4 l after hadd changes' left ha hc =>
    simp only [Except.ok.injEq, Prod.mk.injEq] at h
    obtain ⟨rfl, -⟩ := h
    exact isRead_addition dialect ha
  | case5 l after hadd changes' left ha l' left' hc hcomma ih =>
    obtain ⟨⟨more, left''⟩, hmore, he⟩ := eq_ok_of_map_eq_ok h
    obtain ⟨rfl, rfl⟩ := Prod.mk.injEq .. ▸ he
    exact List.forall_mem_append.2 ⟨isRead_addition dialect ha, ih hmore⟩
  | case6 l after hadd changes' left ha l' left' hc hcomma =>
    simp only [Except.ok.injEq, Prod.mk.injEq] at h
    obtain ⟨rfl, -⟩ := h
    exact isRead_addition dialect ha
  | _ => simp_all

theorem isRead_alterStatement (dialect : Dialect) {s rest : Input} {changes : List Change}
    (h : alterStatement s = .ok (changes, rest)) : ∀ change ∈ changes, change.IsRead dialect := by
  unfold alterStatement at h
  split at h
  · simp only at h
    split at h
    · simp only [Except.ok.injEq, Prod.mk.injEq] at h
      obtain ⟨rfl, -⟩ := h
      simp
    · obtain ⟨⟨changes', left⟩, hadditions, he⟩ := eq_ok_of_map_eq_ok h
      obtain ⟨rfl, -⟩ := Prod.mk.injEq .. ▸ he
      exact isRead_additions dialect hadditions
  · simp only [Except.ok.injEq, Prod.mk.injEq] at h
    obtain ⟨rfl, -⟩ := h
    simp

/-! ### Scripts -/

section Keep

variable {dialect : Dialect} {I : Schema → Prop}

theorem applyAll_keeps (hstep : ∀ s change, I s → Change.IsRead dialect change → I (s.apply change))
    {s : Schema} (hs : I s) {changes : List Change}
    (h : ∀ change ∈ changes, change.IsRead dialect) : I (s.applyAll changes) := by
  induction changes generalizing s with
  | nil => exact hs
  | cons change changes ih =>
    obtain ⟨hfirst, hrest⟩ := List.forall_mem_cons.1 h
    exact ih (hstep s change hs hfirst) hrest

/-- **What every change that is read keeps, statements keep.** -/
theorem statements_keep (hstep : ∀ s change, I s → Change.IsRead dialect change → I (s.apply change))
    {start schema : Schema} {s : Input} (hstart : I start)
    (h : statements dialect start s = .ok schema) : I schema := by
  fun_induction statements dialect start s with
  | case1 => exact Except.ok.inj h ▸ hstart
  | case2 => exact Except.ok.inj h ▸ hstart
  | case3 => cases h
  | case4 start l rest hl changes left hchanges ih =>
    exact ih (applyAll_keeps hstep hstart (isRead_createStatement hchanges)) h
  | case5 => cases h
  | case6 start l rest hl changes left hchanges ih =>
    exact ih (applyAll_keeps hstep hstart (isRead_alterStatement dialect hchanges)) h
  | case7 start l rest hfinish hcreate halter ih => exact ih hstart h

end Keep

end SchemaAudit.Ddl
