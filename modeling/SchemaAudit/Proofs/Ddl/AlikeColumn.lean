import SchemaAudit.Proofs.Ddl.Alike
import SchemaAudit.Proofs.Ddl.Column

/-!
# Columns that part behind a semicolon

The readers of a column echo on inputs that are alike.

* `Alike.typeText`, `Alike.reference`, `Alike.skipDefault` and their neighbours: parts of a column.
* `Alike.columnOption`: one option. Behind `CHECK` it may take the semicolon.
* `Alike.columnOptions`, `Alike.column`: options end with a separator, so that a semicolon taken by
  the last of them lets the reading fail, if nothing but the end of input stands behind it.
-/

namespace SchemaAudit.Ddl

/-! ### Single steps of the readers -/

theorem typeTail_part {name part : String} {l l₁ : Lexeme} (hl : l.token = .dot)
    (h : l₁.token.name? = some part) (rest : Input) :
    typeTail name (l :: l₁ :: rest) = typeTail part rest := by
  rw [typeTail.eq_def]
  simp only [hl, h, if_pos]

theorem typeTail_skip {name : String} {l l₁ : Lexeme} (hl : l.token = .dot)
    (h : l₁.token.name? = none) (rest : Input) :
    typeTail name (l :: l₁ :: rest) = typeTail name (l₁ :: rest) := by
  rw [typeTail.eq_def]
  simp only [hl, h, if_pos]

theorem skipActions_on {l : Lexeme} (hl : l.token = .keyword .on) (rest : Input) :
    skipActions (l :: rest) =
      if rest.startsWithWord "DELETE" || rest.startsWithWord "UPDATE" then
        ((skipAction? rest.tail).map skipActions).getD rest.tail
      else rest := by
  rw [skipActions.eq_def]
  simp only [hl, if_pos]
  split
  · split
    · rename_i left hleft
      simp [hleft]
    · rename_i hleft
      simp [hleft]
  · rfl

theorem skipCasts_colon {table : String} {l : Lexeme} (hl : l.token = .symbol ':') (rest : Input) :
    skipCasts table (l :: rest) =
      if rest.startsWith (.symbol ':') then
        (columnType? table rest.tail).bind fun found =>
          skipCasts table ((found.map Prod.snd).getD rest.tail)
      else skipCasts table rest := by
  rw [skipCasts.eq_def]
  simp only [hl, if_pos]
  split
  · split
    · rename_i err herr
      rw [herr]
      rfl
    · rename_i hnone
      rw [hnone]
      rfl
    · rename_i hsome
      rw [hsome]
      rfl
  · rfl

theorem columnOptions_finish (table : String) {s : Input} (h : s.current = .finish) :
    columnOptions table s = .error (.unexpectedEnd table) := by
  cases s with
  | nil => rw [columnOptions]
  | cons l rest =>
    have hl : l.token = .finish := h
    rw [columnOptions.eq_def]
    simp only [hl]

namespace Alike

variable {p : Token → Prop} {e e' s s' : Input}

/-! ### Types -/

theorem typeWords (h : Alike p e e' s s') :
    Leaves (Alike p e e') (Ddl.typeWords s) (Ddl.typeWords s') := by
  induction h with
  | last h h' =>
    rw [Ddl.typeWords.eq_def, Ddl.typeWords.eq_def]
    simp only [h, h']
    exact ⟨rfl, .last h h'⟩
  | @cons l l' s s' hp h hs ih =>
    have hstop : Alike p e e' (l :: s) (l' :: s') := .cons hp h hs
    rw [Ddl.typeWords.eq_def (l :: s), Ddl.typeWords.eq_def (l' :: s')]
    simp only [h]
    split
    · split
      · exact ⟨congrArg (_ :: ·) ih.1, ih.2⟩
      · exact ⟨rfl, hstop⟩
    · exact ⟨rfl, hstop⟩

theorem typeTail (h : Alike p e e' s s') (name : String) :
    Leaves (Alike p e e') (Ddl.typeTail name s) (Ddl.typeTail name s') := by
  fun_induction Ddl.typeTail name s generalizing s' with
  | case1 => cases h
  | case2 name l hl =>
    obtain ⟨l', rest', rfl, -, hs⟩ := h.behind (by simp [hl])
    cases hs
  | case3 name l hl l₁ rest part hpart ih =>
    obtain ⟨l', rest', rfl, hl', hs⟩ := h.behind (by simp [hl])
    obtain ⟨l₁', rest', rfl, hl₁', hs⟩ := hs.behind fun h => by simp [h, Token.name?] at hpart
    rw [typeTail_part (hl'.trans hl) (hl₁' ▸ hpart)]
    exact ih hs
  | case4 name l hl l₁ rest hpart ih =>
    obtain ⟨l', rest', rfl, hl', hs⟩ := h.behind (by simp [hl])
    have hhead := hs.current_eq
    cases rest' with
    | nil => cases hs
    | cons l₁' rest' =>
      have hl₁' : l₁'.token = l₁.token := hhead
      rw [typeTail_skip (hl'.trans hl) (hl₁' ▸ hpart)]
      exact ih hs
  | case5 name l rest hl =>
    have hne : s'.current ≠ .dot := by
      rw [h.current_eq]
      exact hl
    rw [typeTail_of_current name hne]
    exact ⟨rfl, h⟩

theorem groupTexts (h : Alike p e e' s s') (table : String) (depth : Nat) :
    Echoes (Leaves (Alike p e e')) (Ddl.groupTexts table depth s)
      (Ddl.groupTexts table depth s') := by
  induction h generalizing depth with
  | last h h' =>
    rw [Ddl.groupTexts.eq_def]
    simp only [h]
    exact .error _
  | @cons l l' s s' hp h hs ih =>
    rw [Ddl.groupTexts.eq_def table depth (l :: s), Ddl.groupTexts.eq_def table depth (l' :: s')]
    simp only [h]
    cases l.token with
    | semicolon => exact .error _
    | finish => exact .error _
    | leftParen => exact (ih (depth + 1)).mapRest fun _ _ _ hs => ⟨rfl, hs⟩
    | rightParen =>
      cases depth with
      | zero => exact .ok ⟨rfl, hs⟩
      | succ depth => exact (ih depth).mapRest fun _ _ _ hs => ⟨rfl, hs⟩
    | _ => exact (ih depth).mapRest fun _ _ _ hs => ⟨rfl, hs⟩

theorem typeArguments (h : Alike p e e' s s') (table : String) :
    Echoes (Leaves (Alike p e e')) (Ddl.typeArguments table s) (Ddl.typeArguments table s') := by
  cases h with
  | @last l l' h h' =>
    have hne : ∀ {l : Lexeme}, l.token = .semicolon → ¬l.token = .leftParen := by simp_all
    rw [Ddl.typeArguments, Ddl.typeArguments, if_neg (hne h), if_neg (hne h')]
    exact .ok ⟨rfl, .last h h'⟩
  | cons hp h hs =>
    simp only [Ddl.typeArguments, h]
    split
    · exact (hs.groupTexts table 0).mapRest fun _ _ _ hs => ⟨rfl, hs⟩
    · exact .ok ⟨rfl, .cons hp h hs⟩

theorem arraySuffix (h : Alike p e e' s s') :
    Leaves (Alike p e e') (Ddl.arraySuffix s) (Ddl.arraySuffix s') := by
  induction h with
  | last h h' =>
    rw [Ddl.arraySuffix.eq_def, Ddl.arraySuffix.eq_def]
    simp only [h, h']
    exact ⟨rfl, .last h h'⟩
  | @cons l l' s s' hp h hs ih =>
    have hstop : Alike p e e' (l :: s) (l' :: s') := .cons hp h hs
    rw [Ddl.arraySuffix.eq_def (l :: s), Ddl.arraySuffix.eq_def (l' :: s')]
    simp only [h]
    split
    · split
      · exact ⟨congrArg ('[' :: ']' :: ·) ih.1, ih.2⟩
      · exact ⟨rfl, hstop⟩
    · exact ⟨rfl, hstop⟩

theorem typeText (h : Alike p e e' s s') (table first : String) :
    Echoes (Leaves (Alike p e e')) (Ddl.typeText table first s) (Ddl.typeText table first s') := by
  have hname := h.typeTail first
  have hwords := hname.2.typeWords
  have harguments := hwords.2.typeArguments table
  unfold Ddl.typeText
  simp only
  rw [← hname.1, ← hwords.1]
  cases hfirst : Ddl.typeArguments table (Ddl.typeWords (Ddl.typeTail first s).2).2 with
  | error err => exact .error err
  | ok a =>
    obtain ⟨a', ha', hvalue, hrest⟩ := harguments a hfirst
    simp only [ha']
    have hmore : Leaves (Alike p e e')
        (if (Ddl.typeWords (Ddl.typeTail first s).2).2.startsWith .leftParen
          then Ddl.typeWords a.2 else ([], a.2))
        (if (Ddl.typeWords (Ddl.typeTail first s').2).2.startsWith .leftParen
          then Ddl.typeWords a'.2 else ([], a'.2)) := by
      rw [hwords.2.startsWith_eq]
      split
      · exact hrest.typeWords
      · exact ⟨rfl, hrest⟩
    have hsuffix := hmore.2.arraySuffix
    refine .ok ⟨?_, hsuffix.2⟩
    simp only [hvalue, hmore.1, hsuffix.1]

theorem columnType? (h : Alike p e e' s s') (table : String) :
    Echoes (Option.Rel (Leaves (Alike p e e'))) (Ddl.columnType? table s)
      (Ddl.columnType? table s') := by
  cases h with
  | last h h' =>
    simp only [Ddl.columnType?, h, h']
    exact .ok .none
  | @cons l l' s s' hp h hs =>
    simp only [Ddl.columnType?, h]
    cases l.token.name? with
    | none => exact .ok .none
    | some first => exact (hs.typeText table first).map fun _ _ => .some

/-! ### References -/

theorem reference (h : Alike p e e' s s') (table : String) :
    Echoes (Leaves (Alike p e e')) (Ddl.reference table s) (Ddl.reference table s') := by
  have hname := h.qualifiedName?
  unfold Ddl.reference
  generalize Ddl.qualifiedName? s = a at hname
  generalize Ddl.qualifiedName? s' = a' at hname
  cases hname with
  | none => exact .error _
  | some hname =>
    obtain ⟨hvalue, hrest⟩ := hname
    simp only [← hvalue, hrest.startsWith_eq]
    split
    · exact (hrest.columnList table).mapRest fun _ _ _ hs => ⟨rfl, hs⟩
    · exact .ok ⟨rfl, hrest⟩

theorem skipAction? (h : Alike p e e' s s') :
    Option.Rel (Alike p e e') (Ddl.skipAction? s) (Ddl.skipAction? s') := by
  have hset := h.eatWord "SET"
  unfold Ddl.skipAction?
  simp only [h.startsWithWord_eq, hset.startsWith_eq]
  split
  · split
    · exact .some (hset.eat (by decide))
    · exact .some (hset.eat (by decide))
  · split
    · exact .some ((h.eatWord "NO").eatWord "ACTION")
    · split
      · exact .some (h.eatWord "CASCADE")
      · split
        · exact .some (h.eatWord "RESTRICT")
        · exact .none

theorem skipActions (h : Alike p e e' s s') :
    Alike p e e' (Ddl.skipActions s) (Ddl.skipActions s') := by
  fun_induction Ddl.skipActions s generalizing s' with
  | case1 => cases h
  | case2 l rest hon hword left hleft ih =>
    obtain ⟨l', rest', rfl, hl', hs⟩ := h.behind (by simp [hon])
    have haction := (hs.tail fun hsemicolon => by
      simp [Input.startsWithWord, hsemicolon, Token.isWord] at hword).skipAction?
    rw [skipActions_on (hl'.trans hon), hs.startsWithWord_eq, hs.startsWithWord_eq, if_pos hword]
    rw [hleft] at haction
    generalize Ddl.skipAction? rest'.tail = left' at haction
    cases haction with
    | some haction => exact ih haction
  | case3 l rest hon hword hleft =>
    obtain ⟨l', rest', rfl, hl', hs⟩ := h.behind (by simp [hon])
    have hrest : Alike p e e' rest.tail rest'.tail := hs.tail fun hsemicolon => by
      simp [Input.startsWithWord, hsemicolon, Token.isWord] at hword
    have haction := hrest.skipAction?
    rw [skipActions_on (hl'.trans hon), hs.startsWithWord_eq, hs.startsWithWord_eq, if_pos hword]
    rw [hleft] at haction
    generalize Ddl.skipAction? rest'.tail = left' at haction
    cases haction with
    | none => exact hrest
  | case4 l rest hon hword =>
    obtain ⟨l', rest', rfl, hl', hs⟩ := h.behind (by simp [hon])
    rw [skipActions_on (hl'.trans hon), hs.startsWithWord_eq, hs.startsWithWord_eq, if_neg hword]
    exact hs
  | case5 l rest hon =>
    have hne : s'.current ≠ .keyword .on := by
      rw [h.current_eq]
      exact hon
    rw [skipActions_of_current hne]
    exact h

/-! ### Options -/

theorem skipCasts (h : Alike p e e' s s') (table : String) :
    Echoes (Alike p e e') (Ddl.skipCasts table s) (Ddl.skipCasts table s') := by
  fun_induction Ddl.skipCasts table s generalizing s' with
  | case1 => cases h
  | case2 l rest hl hcolon err herr => exact .error err
  | case3 l rest hl hcolon hnone ih =>
    obtain ⟨l', rest', rfl, hl', hs⟩ := h.behind (by simp [hl])
    have hrest : Alike p e e' rest.tail rest'.tail := hs.tail fun hsemicolon => by
      simp [Input.startsWith, hsemicolon] at hcolon
    obtain ⟨found', hfound', hfound⟩ := hrest.columnType? table none hnone
    cases hfound
    rw [skipCasts_colon (hl'.trans hl), hs.startsWith_eq, if_pos hcolon, hfound']
    exact ih hrest
  | case4 l rest hl hcolon text left hsome ih =>
    obtain ⟨l', rest', rfl, hl', hs⟩ := h.behind (by simp [hl])
    have hrest : Alike p e e' rest.tail rest'.tail := hs.tail fun hsemicolon => by
      simp [Input.startsWith, hsemicolon] at hcolon
    obtain ⟨found', hfound', hfound⟩ := hrest.columnType? table _ hsome
    obtain ⟨⟨text', left'⟩, rfl, hleft⟩ : ∃ a, found' = some a ∧ Alike p e e' left a.2 := by
      cases hfound with
      | some h => exact ⟨_, rfl, h.2⟩
    rw [skipCasts_colon (hl'.trans hl), hs.startsWith_eq, if_pos hcolon, hfound']
    exact ih hleft
  | case5 l rest hl hcolon ih =>
    obtain ⟨l', rest', rfl, hl', hs⟩ := h.behind (by simp [hl])
    rw [skipCasts_colon (hl'.trans hl), hs.startsWith_eq, if_neg hcolon]
    exact ih hs
  | case6 l rest hl =>
    have hne : s'.current ≠ .symbol ':' := by
      rw [h.current_eq]
      exact hl
    rw [skipCasts_of_current table hne]
    exact .ok h

theorem skipDefault (h : Alike p e e' s s') (table : String) :
    Echoes (Alike p e e') (Ddl.skipDefault table s) (Ddl.skipDefault table s') := by
  have hcasts := h.skipCasts table
  cases h with
  | last h h' =>
    simp only [Ddl.skipDefault, h, h']
    exact hcasts
  | @cons l l' s s' hp h hs =>
    simp only [Ddl.skipDefault, h]
    split
    · exact hs.skipCasts table
    · exact hs.skipCasts table
    · exact hs.skipCasts table
    · cases hgroup : Ddl.skipOptionalGroup table s with
      | error err => exact .error err
      | ok left =>
        obtain ⟨left', hleft', hleft⟩ := hs.skipOptionalGroup table left hgroup
        simp only [hleft']
        exact hleft.skipCasts table
    · cases hgroup : Ddl.closeGroup table 0 s with
      | error err => exact .error err
      | ok left =>
        obtain ⟨left', hleft', hleft⟩ := hs.closeGroup table 0 left hgroup
        simp only [hleft']
        exact hleft.skipCasts table
    · exact hcasts

theorem generated (h : Alike p e e' s s') (table : String) :
    Echoes (Leaves (Alike p e e')) (Ddl.generated table s) (Ddl.generated table s') := by
  have hwhen : Alike p e e'
      (if s.startsWithWord "ALWAYS" then s.eatWord "ALWAYS"
        else if s.startsWithWord "BY" then (s.eatWord "BY").eat (.keyword .default) else s)
      (if s'.startsWithWord "ALWAYS" then s'.eatWord "ALWAYS"
        else if s'.startsWithWord "BY" then (s'.eatWord "BY").eat (.keyword .default) else s') := by
    rw [h.startsWithWord_eq, h.startsWithWord_eq]
    split
    · exact h.eatWord "ALWAYS"
    · split
      · exact (h.eatWord "BY").eat (by decide)
      · exact h
  have has := hwhen.eatWord "AS"
  unfold Ddl.generated
  simp only
  generalize (ite (s.startsWithWord "ALWAYS" = true) _ _) = t at has
  generalize (ite (s'.startsWithWord "ALWAYS" = true) _ _) = t' at has
  rw [has.startsWithWord_eq]
  split
  · exact ((has.eatWord "IDENTITY").skipOptionalGroup table).leaves _
  · exact (has.skipOptionalGroup table).leaves _

theorem columnOption (h : Alike p e e' s s') (table : String) (t : Token) :
    Echoes (Leaves (UpTo p e e')) (Ddl.columnOption table t s) (Ddl.columnOption table t s') := by
  have hskip : ∀ (o : ColumnOption) {x x' : Except ReadError Input},
      Echoes (Alike p e e') x x' → Echoes (Leaves (UpTo p e e'))
        (x.map fun left => (o, left)) (x'.map fun left => (o, left)) :=
    fun o x x' hx => (hx.mono fun _ _ => .inl).leaves o
  have hstop : ∀ (o : ColumnOption) {s s' : Input}, Alike p e e' s s' →
      Echoes (Leaves (UpTo p e e')) (.ok (o, s)) (.ok (o, s')) :=
    fun o s s' hs => .ok ⟨rfl, .inl hs⟩
  unfold Ddl.columnOption
  split
  · exact hstop _ (h.eat (by decide))
  · rw [h.startsWith_eq]
    split
    · rename_i hnull
      exact hstop _ (h.tail (by rw [of_decide_eq_true hnull]; decide))
    · exact hstop _ h
  · exact hstop _ (h.eat (by decide))
  · exact hskip _ (h.skipDefault table)
  · exact (h.reference table).mapRest fun _ _ _ hs => ⟨rfl, .inl hs.skipActions⟩
  · exact hstop _ h.eatName
  · exact (h.skipGroup table).leaves _
  · exact hskip _ (h.closeGroup table 0)
  · split
    · exact (h.generated table).mono fun _ _ hs => ⟨hs.1, .inl hs.2⟩
    · split
      · exact hskip _ (h.skipOptionalGroup table)
      · split
        · exact hstop _ h
        · exact hstop _ h

theorem columnOptions (h : Alike p e e' s s') (he : e.current = .finish) (table : String) :
    Echoes (Leaves (Alike p e e')) (Ddl.columnOptions table s) (Ddl.columnOptions table s') := by
  fun_induction Ddl.columnOptions table s generalizing s' with
  | case1 => cases h
  | case2 l rest hcomma =>
    have hend : IsSeparator s'.current := by
      rw [h.current_eq]
      exact .inl hcomma
    rw [columnOptions_separator table hend]
    exact .ok ⟨rfl, h⟩
  | case3 l rest hclose =>
    have hend : IsSeparator s'.current := by
      rw [h.current_eq]
      exact .inr hclose
    rw [columnOptions_separator table hend]
    exact .ok ⟨rfl, h⟩
  | case4 => exact .error _
  | case5 => exact .error _
  | case6 => exact .error _
  | case7 l rest o after hcomma hclose hsemicolon hfinish ho ih =>
    obtain ⟨l', rest', rfl, hl', hs⟩ := h.behind hsemicolon
    obtain ⟨⟨o', after'⟩, ho', hvalue, hafter⟩ := hs.columnOption table l.token (o, after) ho
    obtain rfl : o = o' := hvalue
    have hend : ¬IsSeparator l'.token := by
      rw [hl']
      exact fun h => h.elim hcomma hclose
    rw [columnOptions_of_ok hend (hl' ▸ hsemicolon) (hl' ▸ hfinish) (hl' ▸ ho')]
    obtain hafter | ⟨hswallowed, -⟩ : Alike p e e' after after' ∨ after = e ∧ after' = e' := hafter
    · exact (ih hafter).mapRest fun _ _ _ hs => ⟨rfl, hs⟩
    · obtain ⟨err, herr⟩ : ∃ err, Ddl.columnOptions table after = .error err :=
        ⟨_, columnOptions_finish table (hswallowed ▸ he)⟩
      rw [herr]
      exact .error err

theorem column (h : Alike p e e' s s') (he : e.current = .finish) (dialect : Dialect)
    (table name : String) :
    Echoes (Leaves (Alike p e e')) (Ddl.column dialect table name s)
      (Ddl.column dialect table name s') := by
  unfold Ddl.column
  cases hs : Ddl.columnType? table s with
  | error err => exact .error err
  | ok found =>
    obtain ⟨found', hs', hfound⟩ := h.columnType? table found hs
    cases hfound with
    | none => exact .error _
    | @some a a' ha =>
      obtain ⟨written, rest⟩ := a
      obtain ⟨written', rest'⟩ := a'
      obtain ⟨rfl, hrest⟩ := ha
      simp only [hs']
      exact (hrest.columnOptions he table).mapRest fun _ _ _ hs => ⟨rfl, hs⟩

end Alike

end SchemaAudit.Ddl
