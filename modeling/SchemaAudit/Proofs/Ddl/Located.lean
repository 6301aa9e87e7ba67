import SchemaAudit.Ddl.Input

/-!
# Where errors point

An error names a token that was found instead of what was expected, and the byte at which it starts.
This is a token of the script: no reader reads beyond the end of input, behind which there is no token
and no byte to point at.

* `ReadError.PointsInto`: what an error names stands in the script.
* `Within`: what is left is an end of the script, and itself ends with the end of input. This is the
  invariant of all readers; `Within.tail` is the one step, and says which token may be taken.
* `Meets`: a reading ends in a value of the given kind, or in an error that points into the script.
* `Within.eat`, `Within.closeGroup` and their neighbours: the shared readers keep the invariant.

One reader takes a token without looking at it: `skipGroup` may take the end of input, and nothing is
left then. Who calls it has to look again.
-/

namespace SchemaAudit.Ddl

/-- What the error names stands in the script: the token that was found, at its place, or the closing
parenthesis behind a comma. -/
def ReadError.PointsInto (script : Input) : ReadError → Prop
  | expected _ found offset => ⟨found, offset⟩ ∈ script
  | trailingComma _ offset => ⟨.rightParen, offset⟩ ∈ script
  | unexpectedEnd _ => True

/-- What is left of a script that ends with the end of input. -/
structure Within (script s : Input) : Prop where
  isSuffix : s <:+ script
  isClosed : s.getLast?.map Lexeme.token = some .finish

/-- The reading ends in a value of the kind, or in an error that points into the script. -/
def Meets (script : Input) {α : Type} (P : α → Prop) : Except ReadError α → Prop
  | .ok a => P a
  | .error err => err.PointsInto script

/-- The reading leaves an end of the script. -/
def Keeps (script : Input) {α : Type} (x : Reading α) : Prop :=
  Meets script (fun a => Within script a.2) x

section Meets

variable {script : Input} {α β : Type} {P : α → Prop} {Q : β → Prop} {x : Except ReadError α}

theorem Meets.ok_of_eq (h : Meets script P x) {a : α} (hx : x = .ok a) : P a := by
  rw [hx] at h
  exact h

theorem Meets.error_of_eq (h : Meets script P x) {err : ReadError} (hx : x = .error err) :
    err.PointsInto script := by
  rw [hx] at h
  exact h

theorem Meets.mono (h : Meets script P x) {P' : α → Prop} (hP : ∀ a, P a → P' a) :
    Meets script P' x := by
  cases x with
  | error err => exact h
  | ok a => exact hP a h

theorem Meets.map (h : Meets script P x) {f : α → β} (hf : ∀ a, P a → Q (f a)) :
    Meets script Q (x.map f) := by
  cases x with
  | error err => exact h
  | ok a => exact hf a h

/-- The value is changed, and what is left is the same or less. -/
theorem Keeps.map {x : Reading α} (h : Keeps script x) {f : α × Input → β × Input}
    (hf : ∀ a left, Within script left → Within script (f (a, left)).2) :
    Keeps script (x.map f) :=
  Meets.map h fun a ha => hf a.1 a.2 ha

/-- What has been skipped stands for a value. -/
theorem Meets.keeps {x : Except ReadError Input} (h : Meets script (Within script) x) (a : α) :
    Keeps script (x.map fun left => (a, left)) :=
  h.map fun _ hleft => hleft

end Meets

theorem ne_finish_of_isWord {t : Token} {word : String} (h : t.isWord word = true) :
    t ≠ .finish := by
  rintro rfl
  cases h

theorem ne_finish_of_name? {t : Token} (h : t.name?.isSome = true) : t ≠ .finish := by
  rintro rfl
  cases h

theorem ne_finish_of_startsWith {s : Input} {t : Token} (h : s.startsWith t = true)
    (ht : t ≠ .finish) : s.current ≠ .finish := by
  have hcurrent : s.current = t := of_decide_eq_true h
  rwa [hcurrent]

theorem ne_finish_of_startsWithWord {s : Input} {word : String}
    (h : s.startsWithWord word = true) : s.current ≠ .finish :=
  ne_finish_of_isWord h

namespace Within

variable {script s rest : Input} {l : Lexeme}

theorem ne_nil (h : Within script s) : s ≠ [] := by
  rintro rfl
  cases h.isClosed

theorem head_mem (h : Within script (l :: rest)) : l ∈ script :=
  h.isSuffix.subset List.mem_cons_self

theorem nil_or_tail (h : Within script (l :: rest)) : rest = [] ∨ Within script rest := by
  cases rest with
  | nil => exact .inl rfl
  | cons l' rest =>
    have hclosed := h.isClosed
    rw [List.getLast?_cons_cons] at hclosed
    exact .inr ⟨(List.suffix_cons l (l' :: rest)).trans h.isSuffix, hclosed⟩

/-- **Behind any token but the end of input something is left.** -/
theorem tail (h : Within script (l :: rest)) (hl : l.token ≠ .finish) : Within script rest := by
  rcases h.nil_or_tail with rfl | htail
  · exact absurd (Option.some.inj h.isClosed) hl
  · exact htail

theorem pointsInto_expected (h : Within script s) (what : String) :
    (s.expected what).PointsInto script := by
  cases s with
  | nil => exact absurd rfl h.ne_nil
  | cons l rest => exact h.head_mem

/-! ### Single tokens -/

theorem eat (h : Within script s) {t : Token} (ht : t ≠ .finish) : Within script (s.eat t) := by
  cases s with
  | nil => exact h
  | cons l rest =>
    rw [Input.eat]
    split
    · rename_i hl
      exact h.tail (hl ▸ ht)
    · exact h

theorem eatWord (h : Within script s) (word : String) : Within script (s.eatWord word) := by
  cases s with
  | nil => exact h
  | cons l rest =>
    rw [Input.eatWord]
    split
    · rename_i hl
      exact h.tail (ne_finish_of_isWord hl)
    · exact h

theorem eatName (h : Within script s) : Within script s.eatName := by
  cases s with
  | nil => exact h
  | cons l rest =>
    rw [Input.eatName]
    split
    · rename_i hl
      exact h.tail (ne_finish_of_name? hl)
    · exact h

/-- A token that is seen in front may be taken. -/
theorem tail_of_current (h : Within script s) (hs : s.current ≠ .finish) :
    Within script s.tail := by
  cases s with
  | nil => exact absurd rfl h.ne_nil
  | cons l rest => exact h.tail hs

/-! ### Names -/

theorem qualifiedTail (h : Within script s) (name : String) :
    Within script (Ddl.qualifiedTail name s).2 := by
  fun_induction Ddl.qualifiedTail name s with
  | case1 name => exact h
  | case2 name l hl => exact h.tail (by simp [hl])
  | case3 name l hl l' rest part hpart ih =>
    exact ih ((h.tail (by simp [hl])).tail (ne_finish_of_name? (by simp [hpart])))
  | case4 name l hl l' rest hpart => exact h.tail (by simp [hl])
  | case5 name l rest hl => exact h

theorem qualifiedName? (h : Within script s) {a : String × Input}
    (ha : Ddl.qualifiedName? s = some a) : Within script a.2 := by
  cases s with
  | nil => cases ha
  | cons l rest =>
    obtain ⟨first, hfirst, rfl⟩ := Option.map_eq_some_iff.1 ha
    exact (h.tail (ne_finish_of_name? (by simp [hfirst]))).qualifiedTail first

/-! ### Groups in parentheses -/

theorem closeGroup (h : Within script s) (table : String) (depth : Nat) :
    Meets script (Within script) (Ddl.closeGroup table depth s) := by
  fun_induction Ddl.closeGroup table depth s with
  | case1 | case5 | case6 => trivial
  | case2 depth l rest hl ih | case4 l rest hl depth ih => exact ih (h.tail (by simp [hl]))
  | case3 l rest hl => exact h.tail (by simp [hl])
  | case7 depth l rest _ _ _ hfinish ih => exact ih (h.tail hfinish)

/-- One token may be taken unseen, and it may be the end of input. -/
theorem skipGroup (h : Within script s) (table : String) :
    Meets script (fun left => left = [] ∨ Within script left) (Ddl.skipGroup table s) := by
  cases s with
  | nil => exact .inl rfl
  | cons l rest =>
    rw [Ddl.skipGroup]
    split
    · rename_i hl
      exact ((h.tail (by simp [hl])).closeGroup table 0).mono fun _ => .inr
    · exact h.nil_or_tail

theorem skipOptionalGroup (h : Within script s) (table : String) :
    Meets script (Within script) (Ddl.skipOptionalGroup table s) := by
  rw [Ddl.skipOptionalGroup]
  split
  · rename_i hopen
    cases s with
    | nil => exact h
    | cons l rest =>
      have hl : l.token = .leftParen := of_decide_eq_true hopen
      rw [Ddl.skipGroup, if_pos hl]
      exact (h.tail (by simp [hl])).closeGroup table 0
  · exact h

theorem skipElement (h : Within script s) (table : String) (depth : Nat) :
    Meets script (Within script) (Ddl.skipElement table depth s) := by
  fun_induction Ddl.skipElement table depth s with
  | case1 | case3 | case4 => trivial
  | case2 depth l rest hl ih | case6 l rest hl depth ih | case8 l rest hl depth ih =>
    exact ih (h.tail (by simp [hl]))
  | case5 l rest hl | case7 l rest hl => exact h
  | case9 depth l rest _ _ hfinish _ _ ih => exact ih (h.tail hfinish)

/-! ### Statements -/

theorem skipStatement (h : Within script s) : Within script (Ddl.skipStatement s) := by
  fun_induction Ddl.skipStatement s with
  | case1 | case3 => exact h
  | case2 l rest hl => exact h.tail (by simp [hl])
  | case4 l rest _ hfinish ih => exact ih (h.tail hfinish)

/-! ### Lists of columns -/

theorem columnNames (h : Within script s) (table : String) (depth : Nat) (awaiting : Bool) :
    Keeps script (Ddl.columnNames table depth awaiting s) := by
  fun_induction Ddl.columnNames table depth awaiting s with
  | case1 | case3 | case4 => trivial
  | case5 awaiting l rest hl => exact h.tail (by simp [hl])
  | case2 depth awaiting l rest hl ih | case6 awaiting l rest hl depth ih
  | case7 depth awaiting l rest hl ih => exact ih (h.tail (by simp [hl]))
  | case8 l rest name _ _ hfinish _ _ _ ih =>
    exact (ih (h.tail hfinish)).map fun _ _ hleft => hleft
  | case9 depth awaiting l rest _ _ hfinish _ _ _ ih => exact ih (h.tail hfinish)

theorem skipListName (h : Within script s) : Within script (Ddl.skipListName s) := by
  fun_induction Ddl.skipListName s with
  | case1 | case6 => exact h
  | case2 l rest hl ih | case3 l rest hl ih | case4 l rest _ hl ih | case5 l rest _ hl ih =>
    exact ih (h.tail (by simp [hl]))

theorem columnList (h : Within script s) (table : String) :
    Keeps script (Ddl.columnList table s) := by
  have hskip := h.skipListName
  rw [Ddl.columnList]
  generalize Ddl.skipListName s = t at hskip
  cases t with
  | nil => exact absurd rfl hskip.ne_nil
  | cons l rest =>
    simp only
    split
    · rename_i hl
      exact (hskip.tail (by simp [hl])).columnNames table 0 true
    · exact hskip.pointsInto_expected "'('"

end Within

end SchemaAudit.Ddl
