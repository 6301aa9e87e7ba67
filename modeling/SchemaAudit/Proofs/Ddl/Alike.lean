import SchemaAudit.Proofs.Ddl.Input

/-!
# Inputs that part behind a semicolon

What is read of a statement does not depend on what stands behind it. Two inputs that have the same
tokens up to a semicolon are read alike: if a reading of the first succeeds, the second gives the
same value, and what is left of them is alike again. Offsets may differ, because they only show in
errors.

* `Alike`, `Echoes`: such inputs, and such readings.
* `Alike.eat`, `Alike.skipStatement` and their neighbours: skipping leaves inputs alike.
* `Alike.columnList` and its neighbours: the shared readers echo.

A reader that is about to read beyond the semicolon fails, because a statement does not end inside
of a group. Two readers take a token without looking at it: `skipGroup`, which may take the
semicolon and leave what stands behind it (`UpTo`), and `skipStatement`, which is meant to.
-/

namespace SchemaAudit.Ddl

/-- The inputs have the same tokens up to a semicolon, behind which `e` is left of the first and
`e'` of the second. All tokens before it are of the kind `p`. -/
inductive Alike (p : Token → Prop) (e e' : Input) : Input → Input → Prop
  | last {l l' : Lexeme} (h : l.token = .semicolon) (h' : l'.token = .semicolon) :
    Alike p e e' (l :: e) (l' :: e')
  | cons {l l' : Lexeme} {s s' : Input} (hp : p l.token) (h : l'.token = l.token)
    (hs : Alike p e e' s s') : Alike p e e' (l :: s) (l' :: s')

/-- The inputs are alike, or the semicolon has been read. -/
def UpTo (p : Token → Prop) (e e' s s' : Input) : Prop := Alike p e e' s s' ∨ s = e ∧ s' = e'

/-- If the first reading succeeds, so does the second, and `R` relates their results. -/
def Echoes {α : Type} (R : α → α → Prop) (x x' : Except ReadError α) : Prop :=
  ∀ a, x = .ok a → ∃ a', x' = .ok a' ∧ R a a'

/-- The same value is read, and `R` relates what is left. -/
def Leaves (R : Input → Input → Prop) {α : Type} (a a' : α × Input) : Prop :=
  a.1 = a'.1 ∧ R a.2 a'.2

namespace Echoes

variable {α β : Type} {R : α → α → Prop} {Q : β → β → Prop} {x x' : Except ReadError α}

theorem error (err : ReadError) : Echoes R (.error err) x' := fun _ h => by cases h

theorem ok {a a' : α} (h : R a a') : Echoes R (.ok a) (.ok a') := by
  intro b hb
  obtain rfl := Except.ok.inj hb
  exact ⟨a', rfl, h⟩

theorem mono (h : Echoes R x x') {Q : α → α → Prop} (hRQ : ∀ a a', R a a' → Q a a') :
    Echoes Q x x' := by
  intro a ha
  obtain ⟨a', ha', hR⟩ := h a ha
  exact ⟨a', ha', hRQ a a' hR⟩

theorem map (h : Echoes R x x') {f f' : α → β} (hf : ∀ a a', R a a' → Q (f a) (f' a')) :
    Echoes Q (x.map f) (x'.map f') := by
  intro b hb
  obtain ⟨a, ha, rfl⟩ := eq_ok_of_map_eq_ok hb
  obtain ⟨a', ha', hR⟩ := h a ha
  exact ⟨f' a', by rw [ha']; rfl, hf a a' hR⟩

/-- The value is changed, and what is left may be read further. -/
theorem mapRest {R Q : Input → Input → Prop} {x x' : Reading α} (h : Echoes (Leaves R) x x')
    {f : α × Input → β × Input} (hf : ∀ a s s', R s s' → Leaves Q (f (a, s)) (f (a, s'))) :
    Echoes (Leaves Q) (x.map f) (x'.map f) := by
  refine h.map ?_
  rintro ⟨a, s⟩ ⟨a', s'⟩ ⟨rfl, hs⟩
  exact hf a s s' hs

/-- A name is read where one is awaited and skipped elsewhere. -/
theorem readOrSkip {R : Input → Input → Prop} {names names' skipped skipped' : Reading (List String)}
    (hnames : Echoes (Leaves R) names names') (hskipped : Echoes (Leaves R) skipped skipped')
    (depth : Nat) (awaiting : Bool) (name? : Option String) :
    Echoes (Leaves R)
      (match depth, awaiting, name? with
        | 0, true, some name => names.map fun (more, left) => (name :: more, left)
        | _, _, _ => skipped)
      (match depth, awaiting, name? with
        | 0, true, some name => names'.map fun (more, left) => (name :: more, left)
        | _, _, _ => skipped') := by
  split
  · exact hnames.mapRest fun _ _ _ hs => ⟨rfl, hs⟩
  · exact hskipped

/-- What has been skipped stands for a value. -/
theorem leaves {R : Input → Input → Prop} {x x' : Except ReadError Input} (h : Echoes R x x')
    (a : α) : Echoes (Leaves R) (x.map fun left => (a, left)) (x'.map fun left => (a, left)) :=
  h.map fun _ _ hs => ⟨rfl, hs⟩

end Echoes

/-- Inputs that begin with the same tokens up to a semicolon. -/
theorem alike_of_begins {p : Token → Prop} {ts : List Token} {e e' s s' : Input}
    (hts : ∀ t ∈ ts, p t) (h : Input.Begins (ts ++ [.semicolon]) e s)
    (h' : Input.Begins (ts ++ [.semicolon]) e' s') : Alike p e e' s s' := by
  induction ts generalizing s s' with
  | nil =>
    obtain ⟨l, rfl, hl⟩ := Input.begins_singleton.1 h
    obtain ⟨l', rfl, hl'⟩ := Input.begins_singleton.1 h'
    exact .last hl hl'
  | cons t ts ih =>
    obtain ⟨l, after, rfl, hl, hafter⟩ := Input.begins_cons.1 h
    obtain ⟨l', after', rfl, hl', hafter'⟩ := Input.begins_cons.1 h'
    obtain ⟨ht, hmore⟩ := List.forall_mem_cons.1 hts
    exact .cons (hl ▸ ht) (hl'.trans hl.symm) (ih hmore hafter hafter')

/-! ### Qualified names -/

theorem qualifiedTail_dot {name part : String} {l l₁ : Lexeme} (hl : l.token = .dot)
    (h : l₁.token.name? = some part) (rest : Input) :
    qualifiedTail name (l :: l₁ :: rest) = qualifiedTail part rest := by
  rw [qualifiedTail.eq_def]
  simp only [hl, h, if_pos]

theorem qualifiedTail_end {name : String} {l l₁ : Lexeme} (hl : l.token = .dot)
    (h : l₁.token.name? = none) (rest : Input) :
    qualifiedTail name (l :: l₁ :: rest) = (name, l₁ :: rest) := by
  rw [qualifiedTail.eq_def]
  simp only [hl, h, if_pos]

namespace Alike

variable {p : Token → Prop} {e e' s s' : Input}

/-! ### The first token -/

theorem current_eq (h : Alike p e e' s s') : s'.current = s.current := by
  cases h with
  | last h h' => exact h'.trans h.symm
  | cons hp h hs => exact h

theorem startsWith_eq (h : Alike p e e' s s') (t : Token) : s'.startsWith t = s.startsWith t := by
  rw [Input.startsWith, Input.startsWith, h.current_eq]

theorem startsWithWord_eq (h : Alike p e e' s s') (word : String) :
    s'.startsWithWord word = s.startsWithWord word := by
  rw [Input.startsWithWord, Input.startsWithWord, h.current_eq]

/-- Behind any other token than the semicolon the inputs are alike again. -/
theorem tail (h : Alike p e e' s s') (hs : s.current ≠ .semicolon) :
    Alike p e e' s.tail s'.tail := by
  cases h with
  | last h h' => exact absurd h hs
  | cons hp h htail => exact htail

/-- An input like one that starts with another token than the semicolon. -/
theorem behind {l : Lexeme} (h : Alike p e e' (l :: s) s') (hl : l.token ≠ .semicolon) :
    ∃ l' rest', s' = l' :: rest' ∧ l'.token = l.token ∧ Alike p e e' s rest' := by
  cases h with
  | last h h' => exact absurd h hl
  | cons hp h hs => exact ⟨_, _, rfl, h, hs⟩

theorem eat (h : Alike p e e' s s') {t : Token} (ht : t ≠ .semicolon) :
    Alike p e e' (s.eat t) (s'.eat t) := by
  cases h with
  | last h h' =>
    rw [Input.eat, Input.eat, if_neg (h ▸ ht.symm), if_neg (h' ▸ ht.symm)]
    exact .last h h'
  | cons hp h hs =>
    rw [Input.eat, Input.eat, h]
    split
    · exact hs
    · exact .cons hp h hs

theorem eatWord (h : Alike p e e' s s') (word : String) :
    Alike p e e' (s.eatWord word) (s'.eatWord word) := by
  cases h with
  | last h h' =>
    rw [Input.eatWord, Input.eatWord, h, h']
    exact .last h h'
  | cons hp h hs =>
    rw [Input.eatWord, Input.eatWord, h]
    split
    · exact hs
    · exact .cons hp h hs

theorem eatName (h : Alike p e e' s s') : Alike p e e' s.eatName s'.eatName := by
  cases h with
  | last h h' =>
    rw [Input.eatName, Input.eatName, h, h']
    exact .last h h'
  | cons hp h hs =>
    rw [Input.eatName, Input.eatName, h]
    split
    · exact hs
    · exact .cons hp h hs

/-! ### Names -/

theorem qualifiedTail (h : Alike p e e' s s') (name : String) :
    Leaves (Alike p e e') (Ddl.qualifiedTail name s) (Ddl.qualifiedTail name s') := by
  fun_induction Ddl.qualifiedTail name s generalizing s' with
  | case1 => cases h
  | case2 name l hl =>
    obtain ⟨l', rest', rfl, -, hs⟩ := h.behind (by simp [hl])
    cases hs
  | case3 name l hl l₁ rest part hpart ih =>
    obtain ⟨l', rest', rfl, hl', hs⟩ := h.behind (by simp [hl])
    obtain ⟨l₁', rest', rfl, hl₁', hs⟩ := hs.behind fun h => by simp [h, Token.name?] at hpart
    rw [qualifiedTail_dot (hl'.trans hl) (hl₁' ▸ hpart)]
    exact ih hs
  | case4 name l hl l₁ rest hpart =>
    obtain ⟨l', rest', rfl, hl', hs⟩ := h.behind (by simp [hl])
    have hhead := hs.current_eq
    cases rest' with
    | nil => cases hs
    | cons l₁' rest' =>
      have hl₁' : l₁'.token = l₁.token := hhead
      rw [qualifiedTail_end (hl'.trans hl) (hl₁' ▸ hpart)]
      exact ⟨rfl, hs⟩
  | case5 name l rest hl =>
    have hne : s'.current ≠ .dot := by
      rw [h.current_eq]
      exact hl
    rw [qualifiedTail_of_current name hne]
    exact ⟨rfl, h⟩

theorem qualifiedName? (h : Alike p e e' s s') :
    Option.Rel (Leaves (Alike p e e')) (Ddl.qualifiedName? s) (Ddl.qualifiedName? s') := by
  cases h with
  | last h h' =>
    simp only [Ddl.qualifiedName?, h, h']
    exact .none
  | @cons l l' s s' hp h hs =>
    simp only [Ddl.qualifiedName?, h]
    cases l.token.name? with
    | none => exact .none
    | some first => exact .some (hs.qualifiedTail first)

/-! ### Groups in parentheses -/

theorem closeGroup (h : Alike p e e' s s') (table : String) (depth : Nat) :
    Echoes (Alike p e e') (Ddl.closeGroup table depth s) (Ddl.closeGroup table depth s') := by
  induction h generalizing depth with
  | last h h' =>
    rw [Ddl.closeGroup.eq_def]
    simp only [h]
    exact .error _
  | @cons l l' s s' hp h hs ih =>
    rw [Ddl.closeGroup.eq_def table depth (l :: s), Ddl.closeGroup.eq_def table depth (l' :: s')]
    simp only [h]
    cases l.token with
    | leftParen => exact ih (depth + 1)
    | rightParen =>
      cases depth with
      | zero => exact .ok hs
      | succ depth => exact ih depth
    | semicolon => exact .error _
    | finish => exact .error _
    | _ => exact ih depth

/-- One token may be taken unseen, and it may be the semicolon. -/
theorem skipGroup (h : Alike p e e' s s') (table : String) :
    Echoes (UpTo p e e') (Ddl.skipGroup table s) (Ddl.skipGroup table s') := by
  cases h with
  | last h h' =>
    simp only [Ddl.skipGroup, h, h']
    exact .ok (.inr ⟨rfl, rfl⟩)
  | cons hp h hs =>
    simp only [Ddl.skipGroup, h]
    split
    · exact (hs.closeGroup table 0).mono fun _ _ => .inl
    · exact .ok (.inl hs)

theorem skipOptionalGroup (h : Alike p e e' s s') (table : String) :
    Echoes (Alike p e e') (Ddl.skipOptionalGroup table s) (Ddl.skipOptionalGroup table s') := by
  rw [Ddl.skipOptionalGroup, Ddl.skipOptionalGroup, h.startsWith_eq]
  cases h with
  | @last l l' h h' =>
    have hne : ¬Input.startsWith .leftParen (l :: e) = true := by
      simp [Input.startsWith, Input.current, h]
    rw [if_neg hne, if_neg hne]
    exact .ok (Alike.last h h')
  | @cons l l' s s' hp h hs =>
    split
    · rename_i hopen
      have hl : l.token = .leftParen := of_decide_eq_true hopen
      rw [Ddl.skipGroup, Ddl.skipGroup, if_pos hl, if_pos (h.trans hl)]
      exact hs.closeGroup table 0
    · exact .ok (Alike.cons hp h hs)

theorem skipElement (h : Alike p e e' s s') (table : String) (depth : Nat) :
    Echoes (Alike p e e') (Ddl.skipElement table depth s) (Ddl.skipElement table depth s') := by
  induction h generalizing depth with
  | last h h' =>
    rw [Ddl.skipElement.eq_def]
    simp only [h]
    exact .error _
  | @cons l l' s s' hp h hs ih =>
    rw [Ddl.skipElement.eq_def table depth (l :: s), Ddl.skipElement.eq_def table depth (l' :: s')]
    simp only [h]
    have hstop : Alike p e e' (l :: s) (l' :: s') := .cons hp h hs
    cases l.token with
    | leftParen => exact ih (depth + 1)
    | rightParen =>
      cases depth with
      | zero => exact .ok hstop
      | succ depth => exact ih depth
    | comma =>
      cases depth with
      | zero => exact .ok hstop
      | succ depth => exact ih (depth + 1)
    | semicolon => exact .error _
    | finish => exact .error _
    | _ => exact ih depth

/-- The rest of a statement ends at its semicolon, if not at one before. -/
theorem skipStatement (h : Alike p e e' s s') :
    UpTo p e e' (Ddl.skipStatement s) (Ddl.skipStatement s') := by
  induction h with
  | last h h' => exact .inr ⟨skipStatement_of_semicolon h _, skipStatement_of_semicolon h' _⟩
  | @cons l l' s s' hp h hs ih =>
    rw [Ddl.skipStatement.eq_def (l :: s), Ddl.skipStatement.eq_def (l' :: s')]
    simp only [h]
    have hstop : UpTo p e e' (l :: s) (l' :: s') := .inl (.cons hp h hs)
    cases l.token with
    | semicolon => exact .inl hs
    | finish => exact hstop
    | _ => exact ih

/-- If no token ends a statement before, its rest is skipped up to the semicolon. -/
theorem skipStatement_eq (h : Alike p e e' s s') (hp : ∀ t, p t → t ≠ .semicolon ∧ t ≠ .finish) :
    Ddl.skipStatement s = e ∧ Ddl.skipStatement s' = e' := by
  induction h with
  | last h h' => exact ⟨skipStatement_of_semicolon h _, skipStatement_of_semicolon h' _⟩
  | @cons l l' s s' hpl h hs ih =>
    obtain ⟨hsemicolon, hfinish⟩ := hp _ hpl
    rw [Ddl.skipStatement.eq_def (l :: s), Ddl.skipStatement.eq_def (l' :: s')]
    simp only [h]
    exact ih

/-! ### Lists of columns -/

theorem columnNames (h : Alike p e e' s s') (table : String) (depth : Nat) (awaiting : Bool) :
    Echoes (Leaves (Alike p e e')) (Ddl.columnNames table depth awaiting s)
      (Ddl.columnNames table depth awaiting s') := by
  induction h generalizing depth awaiting with
  | last h h' =>
    rw [Ddl.columnNames.eq_def]
    simp only [h]
    exact .error _
  | @cons l l' s s' hp h hs ih =>
    rw [Ddl.columnNames.eq_def table depth awaiting (l :: s),
      Ddl.columnNames.eq_def table depth awaiting (l' :: s')]
    simp only [h]
    have hname := fun t : Token =>
      (ih 0 false).readOrSkip (ih depth awaiting) depth awaiting t.name?
    cases l.token with
    | leftParen => exact ih (depth + 1) awaiting
    | rightParen =>
      cases depth with
      | zero => exact .ok ⟨rfl, hs⟩
      | succ depth => exact ih depth awaiting
    | comma => exact ih depth _
    | semicolon => exact .error _
    | finish => exact .error _
    | keyword k => exact hname (.keyword k)
    | word w => exact hname (.word w)
    | quoted q => exact hname (.quoted q)
    | literal v => exact hname (.literal v)
    | number d => exact hname (.number d)
    | dot => exact hname .dot
    | symbol c => exact hname (.symbol c)

theorem skipListName (h : Alike p e e' s s') :
    Alike p e e' (Ddl.skipListName s) (Ddl.skipListName s') := by
  induction h with
  | last h h' =>
    rw [Ddl.skipListName, Ddl.skipListName]
    simp only [h, h']
    exact .last h h'
  | @cons l l' s s' hp h hs ih =>
    rw [Ddl.skipListName.eq_def (l :: s), Ddl.skipListName.eq_def (l' :: s')]
    simp only [h]
    split
    · exact ih
    · exact ih
    · exact ih
    · exact ih
    · exact .cons hp h hs

theorem columnList (h : Alike p e e' s s') (table : String) :
    Echoes (Leaves (Alike p e e')) (Ddl.columnList table s) (Ddl.columnList table s') := by
  have hskip := h.skipListName
  rw [Ddl.columnList, Ddl.columnList]
  generalize Ddl.skipListName s = t at hskip
  generalize Ddl.skipListName s' = t' at hskip
  cases hskip with
  | last h h' =>
    simp only [h]
    exact .error _
  | cons hp h hs =>
    simp only [h]
    split
    · exact hs.columnNames table 0 true
    · exact .error _

end Alike

end SchemaAudit.Ddl
