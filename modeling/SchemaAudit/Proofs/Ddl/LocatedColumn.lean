import SchemaAudit.Ddl.Column
import SchemaAudit.Proofs.Ddl.Located

/-!
# Where errors in columns point

Each reader of a part of a column keeps what is left within the script, and an error that it meets
points at a token there.

* `Within.typeText`, `Within.columnType?`: types.
* `Within.reference`, `Within.skipActions`: references with their actions.
* `Within.columnOption`: a single option. Behind `CHECK` the end of input may be taken, and then
  nothing is left.
* `Within.columnOptions`, `Within.column`: the options look again, so that a column that is read
  leaves something.
-/

namespace SchemaAudit.Ddl

namespace Within

variable {script s rest : Input} {l : Lexeme}

/-! ### Types -/

theorem typeWords (h : Within script s) : Within script (Ddl.typeWords s).2 := by
  fun_induction Ddl.typeWords s with
  | case1 | case3 | case4 => exact h
  | case2 l rest w hl _ words left hwords ih =>
    rw [hwords] at ih
    exact ih (h.tail (by simp [hl]))

theorem typeTail (h : Within script s) (name : String) :
    Within script (Ddl.typeTail name s).2 := by
  fun_induction Ddl.typeTail name s with
  | case1 | case5 => exact h
  | case2 name l hl => exact h.tail (by simp [hl])
  | case3 name l hl l' rest part hpart ih =>
    exact ih ((h.tail (by simp [hl])).tail (ne_finish_of_name? (by simp [hpart])))
  | case4 name l hl l' rest hpart ih => exact ih (h.tail (by simp [hl]))

theorem groupTexts (h : Within script s) (table : String) (depth : Nat) :
    Keeps script (Ddl.groupTexts table depth s) := by
  fun_induction Ddl.groupTexts table depth s with
  | case1 | case2 | case3 => trivial
  | case4 depth l rest hl ih | case6 l rest hl depth ih =>
    exact (ih (h.tail (by simp [hl]))).map fun _ _ hleft => hleft
  | case5 l rest hl => exact h.tail (by simp [hl])
  | case7 depth l rest _ hfinish _ _ ih =>
    exact (ih (h.tail hfinish)).map fun _ _ hleft => hleft

theorem typeArguments (h : Within script s) (table : String) :
    Keeps script (Ddl.typeArguments table s) := by
  cases s with
  | nil => exact h
  | cons l rest =>
    rw [Ddl.typeArguments]
    split
    · rename_i hl
      exact ((h.tail (by simp [hl])).groupTexts table 0).map fun _ _ hleft => hleft
    · exact h

theorem arraySuffix (h : Within script s) : Within script (Ddl.arraySuffix s).2 := by
  fun_induction Ddl.arraySuffix s with
  | case1 | case3 | case4 => exact h
  | case2 l rest _ hl _ brackets left hbrackets ih =>
    rw [hbrackets] at ih
    exact ih (h.tail (by simp [hl]))

theorem typeText (h : Within script s) (table first : String) :
    Keeps script (Ddl.typeText table first s) := by
  have hwords := (h.typeTail first).typeWords
  have harguments := hwords.typeArguments table
  unfold Ddl.typeText
  simp only
  cases ha : Ddl.typeArguments table (Ddl.typeWords (Ddl.typeTail first s).2).2 with
  | error err => exact harguments.error_of_eq ha
  | ok a =>
    have hrest : Within script a.2 := harguments.ok_of_eq ha
    show Within script (Ddl.arraySuffix _).2
    apply arraySuffix
    split
    · exact hrest.typeWords
    · exact hrest

theorem columnType? (h : Within script s) (table : String) :
    Meets script (fun found => ∀ a, found = some a → Within script a.2)
      (Ddl.columnType? table s) := by
  cases s with
  | nil => exact absurd rfl h.ne_nil
  | cons l rest =>
    rw [Ddl.columnType?.eq_def]
    simp only
    split
    · intro a ha
      cases ha
    · rename_i first hfirst
      have htail := h.tail (ne_finish_of_name? (by simp [hfirst]))
      apply Meets.map (htail.typeText table first)
      intro a ha b hb
      rwa [← Option.some.inj hb]

/-! ### References -/

theorem reference (h : Within script s) (table : String) :
    Keeps script (Ddl.reference table s) := by
  unfold Ddl.reference
  split
  · exact h.pointsInto_expected "referenced table"
  · rename_i target rest hname
    have hrest := h.qualifiedName? hname
    split
    · exact (hrest.columnList table).map fun _ _ hleft => hleft
    · exact hrest

theorem skipAction? (h : Within script s) {left : Input} (hleft : Ddl.skipAction? s = some left) :
    Within script left := by
  have hset := h.eatWord "SET"
  unfold Ddl.skipAction? at hleft
  repeat' split at hleft
  all_goals cases hleft
  · exact hset.eat (by decide)
  · exact hset.eat (by decide)
  · exact (h.eatWord "NO").eatWord "ACTION"
  · exact h.eatWord "CASCADE"
  · exact h.eatWord "RESTRICT"

theorem skipActions (h : Within script s) : Within script (Ddl.skipActions s) := by
  have hword : ∀ {rest : Input}, (Input.startsWithWord "DELETE" rest || Input.startsWithWord "UPDATE" rest)
      = true → rest.current ≠ .finish := by
    intro rest hword
    rcases Bool.or_eq_true_iff.1 hword with hword | hword
    · exact ne_finish_of_startsWithWord hword
    · exact ne_finish_of_startsWithWord hword
  fun_induction Ddl.skipActions s with
  | case1 | case5 => exact h
  | case2 l rest hl hdelete left hleft ih =>
    exact ih (((h.tail (by simp [hl])).tail_of_current (hword hdelete)).skipAction? hleft)
  | case3 l rest hl hdelete _ =>
    exact (h.tail (by simp [hl])).tail_of_current (hword hdelete)
  | case4 l rest hl _ => exact h.tail (by simp [hl])

/-! ### Options -/

theorem skipCasts (h : Within script s) (table : String) :
    Meets script (Within script) (Ddl.skipCasts table s) := by
  have hcolon : ∀ {rest : Input}, Input.startsWith (.symbol ':') rest = true →
      Input.current rest ≠ .finish := fun hnext => ne_finish_of_startsWith hnext (by decide)
  fun_induction Ddl.skipCasts table s with
  | case1 | case6 => exact h
  | case2 l rest hl hnext err herr =>
    have htail := (h.tail (by simp [hl])).tail_of_current (hcolon hnext)
    exact (htail.columnType? table).error_of_eq herr
  | case3 l rest hl hnext hnone ih =>
    exact ih ((h.tail (by simp [hl])).tail_of_current (hcolon hnext))
  | case4 l rest hl hnext text left hsome ih =>
    have htail := (h.tail (by simp [hl])).tail_of_current (hcolon hnext)
    exact ih ((htail.columnType? table).ok_of_eq hsome _ rfl)
  | case5 l rest hl hnext ih => exact ih (h.tail (by simp [hl]))

theorem skipDefault (h : Within script s) (table : String) :
    Meets script (Within script) (Ddl.skipDefault table s) := by
  cases s with
  | nil => exact h
  | cons l rest =>
    rw [Ddl.skipDefault.eq_def]
    simp only
    split
    · rename_i hl
      exact (h.tail (by simp [hl])).skipCasts table
    · rename_i hl
      exact (h.tail (by simp [hl])).skipCasts table
    · rename_i hl
      exact (h.tail (by simp [hl])).skipCasts table
    · rename_i hl
      have hgroup := (h.tail (by simp [hl])).skipOptionalGroup table
      split
      · rename_i herr
        exact hgroup.error_of_eq herr
      · rename_i hleft
        exact (hgroup.ok_of_eq hleft).skipCasts table
    · rename_i hl
      have hgroup := (h.tail (by simp [hl])).closeGroup table 0
      split
      · rename_i herr
        exact hgroup.error_of_eq herr
      · rename_i hleft
        exact (hgroup.ok_of_eq hleft).skipCasts table
    · exact h.skipCasts table

theorem generated (h : Within script s) (table : String) :
    Keeps script (Ddl.generated table s) := by
  have hwhen : Within script
      (if s.startsWithWord "ALWAYS" then s.eatWord "ALWAYS"
        else if s.startsWithWord "BY" then (s.eatWord "BY").eat (.keyword .default) else s) := by
    split
    · exact h.eatWord "ALWAYS"
    · split
      · exact (h.eatWord "BY").eat (by decide)
      · exact h
  have has := hwhen.eatWord "AS"
  unfold Ddl.generated
  simp only
  generalize ite (s.startsWithWord "ALWAYS" = true) _ _ = t at has
  split
  · exact ((has.eatWord "IDENTITY").skipOptionalGroup table).keeps _
  · exact (has.skipOptionalGroup table).keeps _

/-- Behind `CHECK` the end of input may be taken. -/
theorem columnOption (h : Within script s) (table : String) (t : Token) :
    Meets script (fun a => a.2 = [] ∨ Within script a.2) (Ddl.columnOption table t s) := by
  have hkeeps : ∀ {x : Reading ColumnOption}, Keeps script x →
      Meets script (fun a => a.2 = [] ∨ Within script a.2) x := by
    intro x hx
    exact hx.mono fun _ => .inr
  unfold Ddl.columnOption
  split
  · exact .inr (h.eat (by decide))
  · split
    · rename_i hnull
      exact .inr (h.tail_of_current (ne_finish_of_startsWith hnull (by decide)))
    · exact .inr h
  · exact .inr (h.eat (by decide))
  · exact hkeeps ((h.skipDefault table).keeps _)
  · exact hkeeps ((h.reference table).map fun _ _ hleft => hleft.skipActions)
  · exact .inr h.eatName
  · exact (h.skipGroup table).map fun _ hleft => hleft
  · exact hkeeps ((h.closeGroup table 0).keeps _)
  · split
    · exact hkeeps (h.generated table)
    · split
      · exact hkeeps ((h.skipOptionalGroup table).keeps _)
      · split
        · exact .inr h
        · exact .inr h

/-- Where nothing is left the declaration does not end, which is no error that points anywhere. -/
theorem columnOptions (h : s = [] ∨ Within script s) (table : String) :
    Keeps script (Ddl.columnOptions table s) := by
  fun_induction Ddl.columnOptions table s with
  | case1 | case4 | case5 => trivial
  | case2 l rest hl | case3 l rest hl => exact h.resolve_left (by simp)
  | case6 l rest err _ _ _ hfinish herr =>
    have htail := (h.resolve_left (by simp)).tail hfinish
    exact (htail.columnOption table l.token).error_of_eq herr
  | case7 l rest o after _ _ _ hfinish ho ih =>
    have htail := (h.resolve_left (by simp)).tail hfinish
    exact (ih ((htail.columnOption table l.token).ok_of_eq ho)).map fun _ _ hleft => hleft

/-! ### The column -/

theorem column (h : Within script s) (dialect : Dialect) (table name : String) :
    Keeps script (Ddl.column dialect table name s) := by
  have htype := h.columnType? table
  unfold Ddl.column
  split
  · rename_i herr
    exact htype.error_of_eq herr
  · exact h.pointsInto_expected "column type"
  · rename_i hsome
    have hrest := htype.ok_of_eq hsome _ rfl
    exact (columnOptions (.inr hrest) table).map fun _ _ hleft => hleft

end Within

end SchemaAudit.Ddl
