import SchemaAudit.Proofs.Ddl.AlikeScript
import SchemaAudit.Proofs.Ddl.LocatedColumn
import SchemaAudit.Proofs.Token.Readable

/-!
# Where errors in scripts point

An error that a script is refused with points at a token of that script, in every dialect.

* `Within.element`, `Within.elements`, `Within.tableBody`: the body of a table.
* `Within.createStatement`, `Within.alterStatement`: what a statement leaves is within the script, so
  that the next one is read from there.
* `Within.statements`: the run, by the statements that are left.
* `within_scan`: at first all of the script is left.
* `read_error_pointsInto`: the two together, for the text of a script.
-/

namespace SchemaAudit.Ddl

namespace Within

variable {script s rest : Input} {l : Lexeme}

/-! ### Elements of a table -/

theorem foreignKey (h : Within script s) (table : String) :
    Keeps script (Ddl.foreignKey table s) := by
  have hcolumns := (h.eat (t := .keyword .key) (by decide)).columnList table
  unfold Ddl.foreignKey
  split
  · split
    · rename_i herr
      exact hcolumns.error_of_eq herr
    · rename_i columns left hleft
      have hrest : Within script left := hcolumns.ok_of_eq hleft
      split
      · have htarget := (hrest.eat (t := .keyword .references) (by decide)).reference table
        exact htarget.map fun _ _ hleft => hleft.skipActions
      · exact hrest.pointsInto_expected "REFERENCES"
  · exact h.pointsInto_expected "KEY"

theorem skipConstraintNames (h : Within script s) : Within script (Ddl.skipConstraintNames s) := by
  fun_induction Ddl.skipConstraintNames s with
  | case1 | case3 => exact h
  | case2 l rest hl ih => exact ih (h.tail (by simp [hl])).eatName

theorem element (hl : l ∈ script) (h : Within script s) (dialect : Dialect) (table : String) :
    Keeps script (Ddl.element dialect table l s) := by
  have hother := (h.skipElement table 0).keeps Element.other
  unfold Ddl.element
  split
  · have hcolumns := (h.eat (t := .keyword .key) (by decide)).columnList table
    split
    · rename_i herr
      exact hcolumns.error_of_eq herr
    · rename_i hafter
      exact (skipElement (hcolumns.ok_of_eq hafter) table 0).keeps _
  · have hcolumns := h.columnList table
    split
    · rename_i herr
      exact hcolumns.error_of_eq herr
    · rename_i hafter
      exact (skipElement (hcolumns.ok_of_eq hafter) table 0).keeps _
  · have hforeign := h.foreignKey table
    split
    · rename_i herr
      exact hforeign.error_of_eq herr
    · rename_i hafter
      exact (skipElement (hforeign.ok_of_eq hafter) table 0).keeps _
  · exact hother
  · exact hother
  · exact hother
  · split
    · exact hother
    · split
      · exact (h.column dialect table _).map fun _ _ hleft => hleft
      · exact hl

/-- The first element of a list. -/
theorem firstElement (h : Within script s) (hs : Ddl.skipConstraintNames s = l :: rest)
    (hl : l.token ≠ .finish) (dialect : Dialect) (table : String) :
    Keeps script (Ddl.element dialect table l rest) := by
  have hskip := h.skipConstraintNames
  rw [hs] at hskip
  exact element hskip.head_mem (hskip.tail hl) dialect table

theorem behindElement (h : Within script s) (hs : Ddl.skipConstraintNames s = l :: rest)
    (hl : l.token ≠ .finish) {dialect : Dialect} {table : String} {el : Element} {left : Input}
    (hel : Ddl.element dialect table l rest = .ok (el, left)) : Within script left :=
  (h.firstElement hs hl dialect table).ok_of_eq hel

theorem elements (h : Within script s) (dialect : Dialect) (table : String) :
    Keeps script (Ddl.elements dialect table s) := by
  fun_induction Ddl.elements dialect table s with
  | case1 | case2 | case3 | case6 | case9 | case10 => trivial
  | case4 s l rest hs hl =>
    have hskip := h.skipConstraintNames
    rw [hs] at hskip
    show (⟨.rightParen, l.offset⟩ : Lexeme) ∈ script
    rw [← hl]
    exact hskip.head_mem
  | case5 s l rest hs err herr _ hfinish _ =>
    exact (h.firstElement hs hfinish dialect table).error_of_eq herr
  | case7 s l rest hs el l' after hel hcomma _ hfinish _ ih =>
    have hbehind := h.behindElement hs hfinish hel
    exact (ih (hbehind.tail (by simp [hcomma]))).map fun _ _ hleft => hleft
  | case8 s l rest hs el l' after hel hclose _ hfinish _ =>
    exact (h.behindElement hs hfinish hel).tail (by simp [hclose])
  | case11 s l rest hs el l' after hel _ hfinish _ _ _ _ _ =>
    exact (h.behindElement hs hfinish hel).head_mem

theorem tableBody (h : Within script s) (dialect : Dialect) (table : String) :
    Keeps script (Ddl.tableBody dialect table s) := by
  cases s with
  | nil => exact absurd rfl h.ne_nil
  | cons l rest =>
    rw [Ddl.tableBody]
    split
    · rename_i hl
      exact h.tail (by simp [hl])
    · exact h.elements dialect table

/-! ### Statements -/

theorem skipTableWords (h : Within script s) : Within script (Ddl.skipTableWords s) := by
  have hwords : ∀ (words : List String) {s : Input}, Within script s →
      Within script (words.foldl (fun left word => left.eatWord word) s) := by
    intro words
    induction words with
    | nil => exact fun h => h
    | cons word words ih => exact fun h => ih (h.eatWord word)
  exact hwords _ h

theorem skipIfNotExists (h : Within script s) : Within script (Ddl.skipIfNotExists s) := by
  rw [Ddl.skipIfNotExists]
  split
  · exact ((h.eat (by decide)).eat (by decide)).eat (by decide)
  · exact h

theorem createTable (h : Within script s) (dialect : Dialect) :
    Keeps script (Ddl.createTable dialect s) := by
  unfold Ddl.createTable
  split
  · exact h.skipStatement
  · rename_i name rest hname
    have hrest := h.qualifiedName? hname
    split
    · have hbody := (hrest.eat (t := .leftParen) (by decide)).tableBody dialect name
      exact hbody.map fun _ _ hleft => hleft.skipStatement
    · exact hrest.skipStatement

theorem createStatement (h : Within script s) (dialect : Dialect) :
    Keeps script (Ddl.createStatement dialect s) := by
  have hwords := h.skipTableWords
  unfold Ddl.createStatement
  simp only
  split
  · exact (hwords.eat (by decide)).skipIfNotExists.createTable dialect
  · exact hwords.skipStatement

theorem skipClause (h : Within script s) (table : String) :
    Meets script (Within script) (Ddl.skipClause table s) := by
  fun_induction Ddl.skipClause table s with
  | case1 | case2 | case3 | case4 => exact h
  | case5 l rest hopen err herr =>
    exact ((h.tail (by simp [hopen])).closeGroup table 0).error_of_eq herr
  | case6 l rest hopen left hleft ih =>
    exact ih (((h.tail (by simp [hopen])).closeGroup table 0).ok_of_eq hleft)
  | case7 l rest _ _ hfinish _ ih => exact ih (h.tail hfinish)

theorem addition (h : Within script s) (table : String) :
    Keeps script (Ddl.addition table s) := by
  cases s with
  | nil => exact h
  | cons l rest =>
    rw [Ddl.addition.eq_def]
    simp only
    split
    · rename_i hl
      exact ((h.tail (by simp [hl])).foreignKey table).map fun _ _ hleft => hleft
    · rename_i hl
      have hcolumns := ((h.tail (by simp [hl])).eat (t := .keyword .key) (by decide)).columnList table
      exact hcolumns.map fun _ _ hleft => hleft
    · rename_i hl
      exact ((h.tail (by simp [hl])).columnList table).map fun _ _ hleft => hleft
    · exact h

theorem skipConstraintName (h : Within script s) : Within script (Ddl.skipConstraintName s) := by
  rw [Ddl.skipConstraintName]
  split
  · exact (h.eat (by decide)).eatName
  · exact h

/-- The first clause that adds something, from behind `ADD`. -/
theorem firstAddition (h : Within script s) (table : String) :
    Keeps script (Ddl.addition table (Ddl.skipConstraintName s)) :=
  h.skipConstraintName.addition table

/-- What is left behind that clause is skipped. -/
theorem behindAddition (h : Within script s) {table : String} {changes : List Change}
    {after : Input}
    (hafter : Ddl.addition table (Ddl.skipConstraintName s) = .ok (changes, after)) :
    Meets script (Within script) (Ddl.skipClause table after) :=
  skipClause ((h.firstAddition table).ok_of_eq hafter) table

theorem additions (h : Within script s) (table : String) :
    Keeps script (Ddl.additions table s) := by
  fun_induction Ddl.additions table s with
  | case1 | case7 => exact h
  | case2 l rest hl err herr =>
    exact ((h.tail (by simp [hl])).firstAddition table).error_of_eq herr
  | case3 l rest hl changes after hafter err herr =>
    exact ((h.tail (by simp [hl])).behindAddition hafter).error_of_eq herr
  | case4 l rest hl changes after hafter hleft =>
    exact ((h.tail (by simp [hl])).behindAddition hafter).ok_of_eq hleft
  | case5 l rest hl changes after hafter l' left hleft hcomma ih =>
    have hbehind : Within script (l' :: left) :=
      ((h.tail (by simp [hl])).behindAddition hafter).ok_of_eq hleft
    exact (ih (hbehind.tail (by simp [hcomma]))).map fun _ _ hleft => hleft
  | case6 l rest hl changes after hafter l' left hleft hcomma =>
    exact ((h.tail (by simp [hl])).behindAddition hafter).ok_of_eq hleft

theorem skipAlterWords (h : Within script s) : Within script (Ddl.skipAlterWords s) := by
  have honly : Within script (s.eat (.keyword .only)) := h.eat (by decide)
  unfold Ddl.skipAlterWords
  apply eat _ (by decide)
  split
  · exact (honly.eat (by decide)).eat (by decide)
  · exact honly

theorem alterStatement (h : Within script s) : Keeps script (Ddl.alterStatement s) := by
  unfold Ddl.alterStatement
  split
  · have hrest := (h.eat (t := .keyword .table) (by decide)).skipAlterWords
    simp only
    split
    · exact hrest.skipStatement
    · rename_i table after hname
      have hafter := hrest.qualifiedName? hname
      exact (hafter.additions table).map fun _ _ hleft => hleft.skipStatement
  · exact h.skipStatement

/-- **No statement leads out of the script.** -/
theorem statements (h : Within script s) (dialect : Dialect) (schema : Schema) :
    Meets script (fun _ => True) (Ddl.statements dialect schema s) := by
  fun_induction Ddl.statements dialect schema s with
  | case1 | case2 => trivial
  | case3 schema l rest hl err herr =>
    exact ((h.tail (by simp [hl])).createStatement dialect).error_of_eq herr
  | case4 schema l rest hl changes after hafter ih =>
    exact ih (((h.tail (by simp [hl])).createStatement dialect).ok_of_eq hafter)
  | case5 schema l rest hl err herr =>
    exact (h.tail (by simp [hl])).alterStatement.error_of_eq herr
  | case6 schema l rest hl changes after hafter ih =>
    exact ih ((h.tail (by simp [hl])).alterStatement.ok_of_eq hafter)
  | case7 schema l rest hfinish _ _ ih => exact ih (h.tail hfinish)

end Within

/-! ### Texts -/

/-- All of a script is left at first, up to the end of input that closes it. -/
theorem within_scan (script : String) : Within (Token.scan script) (Token.scan script) := by
  refine ⟨List.suffix_rfl, ?_⟩
  obtain ⟨ts, hts, -⟩ := Token.exists_map_token_scanFrom _ script.toList
  rw [← List.getLast?_map]
  show (List.map Lexeme.token (Token.scanFrom _ script.toList)).getLast? = _
  rw [hts, List.getLast?_concat]

/-- **A script is refused with an error that points at one of its tokens.** A token that was found
instead of what is expected stands in the script at the offset of the error, and so does the closing
parenthesis behind a trailing comma. -/
theorem read_error_pointsInto (dialect : Dialect) (script : String) {err : ReadError}
    (h : Schema.read dialect script = .error err) : err.PointsInto (Token.scan script) :=
  ((within_scan script).statements dialect Schema.empty).error_of_eq h

/-- The type of a column is missing. -/
def untypedScript : String := "CREATE TABLE t (id int, name)"

theorem read_error_pointsInto_untyped :
    Schema.read .postgres untypedScript = .error (.expected "column type" .rightParen 28) ∧
      (⟨.rightParen, 28⟩ : Lexeme) ∈ Token.scan untypedScript := by
  have h : Schema.read .postgres untypedScript
      = .error (.expected "column type" .rightParen 28) := by decide +kernel
  exact ⟨h, read_error_pointsInto .postgres untypedScript h⟩

example : Schema.read .mySql "CREATE TABLE t (id int,);" = .error (.trailingComma "t" 23) := by
  decide +kernel

end SchemaAudit.Ddl
