import SchemaAudit.Proofs.Dialect.Batch
import SchemaAudit.Proofs.Dialect.QuotedName
import SchemaAudit.Proofs.Pattern.Weight

/-!
# Columns with quoted names

The declaration of a column with a quoted name under all rules of a dialect. The rules for some
words take a name for the word; all other names come through, and no rule fits anywhere else.

* `replacement`, `rewriteAll_quotedRules`: the names that do not come through, and what becomes of
  them.
* `rewrite_of_mem_replacements`: what stands in the place of a name is left alone by all rules.
* `portable_quotedColumn`: the portable text of a declaration.
-/

namespace SchemaAudit.Dialect

open Pattern

/-! ### All rules of a dialect -/

/-- The rules of a dialect behind those that change its quotes. -/
def quotedRules : Dialect → List Pattern
  | mySql => mySqlRules.drop 1
  | postgres => postgresRules
  | msSql => msSqlRules.drop 2

/-- What stands in the quotes instead of the name, for the names that do not come through. -/
def replacement (dialect : Dialect) (s : List Char) : Option String :=
  match dialect with
  | mySql =>
    if GoesOn "CHARSET" s then some ""
    else if GoesOn "COLLATE" s then some ""
    else if lower s = lower "AUTO_INCREMENT".toList then some ""
    else if lower s = lower "datetime".toList then some "TIMESTAMP"
    else none
  | postgres =>
    if lower s = lower "BIGSERIAL".toList ∨ lower s = lower "SERIAL8".toList then
      some "BIGINT GENERATED BY DEFAULT AS IDENTITY"
    else if lower s = lower "SMALLSERIAL".toList ∨ lower s = lower "SERIAL2".toList then
      some "SMALLINT GENERATED BY DEFAULT AS IDENTITY"
    else if lower s = lower "SERIAL".toList ∨ lower s = lower "SERIAL4".toList then
      some "INTEGER GENERATED BY DEFAULT AS IDENTITY"
    else none
  | msSql =>
    if lower s = lower "nvarchar".toList then some "varchar"
    else if lower s = lower "datetime2".toList then some "timestamp"
    else none

/-- All that can stand there. -/
def replacements : Dialect → List String
  | mySql => ["", "TIMESTAMP"]
  | postgres =>
    ["BIGINT GENERATED BY DEFAULT AS IDENTITY", "SMALLINT GENERATED BY DEFAULT AS IDENTITY",
      "INTEGER GENERATED BY DEFAULT AS IDENTITY"]
  | msSql => ["varchar", "timestamp"]

theorem mem_replacements {dialect : Dialect} {s : List Char} {w : String}
    (h : replacement dialect s = some w) : w ∈ replacements dialect := by
  cases dialect
  all_goals
    simp only [replacement] at h
    split_ifs at h
    all_goals
      obtain rfl := Option.some.inj h
      simp [replacements]

theorem fitsOnlyAtName_of_mem_quotedRules {dialect : Dialect} :
    ∀ p ∈ quotedRules dialect, fitsOnlyAtName p = true := by
  cases dialect
  · decide
  · decide
  · decide

theorem isLost_of_mem_replacements {dialect : Dialect} : ∀ p ∈ quotedRules dialect,
    ∀ w ∈ replacements dialect, p.isLost ⟨.nothing, Form.of (inQuotes w.toList)⟩ = true := by
  cases dialect
  · decide
  · decide
  · decide

/-- **What stands in the place of a name is left alone by all rules.** -/
theorem rewrite_of_mem_replacements {dialect : Dialect} {p : Pattern}
    (hp : p ∈ quotedRules dialect) {w : String} (hw : w ∈ replacements dialect) :
    p.rewrite (inQuotes w.toList) = inQuotes w.toList := by
  have hfits := fitsOnlyAtName_of_mem_quotedRules p hp
  simp only [fitsOnlyAtName, Bool.and_eq_true] at hfits
  obtain ⟨⟨⟨hsteady, -⟩, -⟩, -⟩ := hfits
  have hshows : Outlook.Shows ⟨.nothing, Form.of (inQuotes w.toList)⟩
      ⟨none, inQuotes w.toList⟩ := ⟨rfl, hasForm_of _⟩
  exact rewriteFrom_of_missesIn hsteady (Nat.le_refl _)
    (missesIn_of_isLost hshows (isLost_of_mem_replacements p hp w hw))

/-- The rule does not fit at the start of a name either. -/
def isLostAtName (p : Pattern) : Bool := (p.leads ⟨.other, nameForm '\x22'⟩).isEmpty

section

variable {dialect : Dialect} {s : List Char} (hs : IsIdentifier s)

include hs

theorem rewriteAll_append_of_lost (lost : List Pattern) {rules : List Pattern}
    (hrules : ∀ p ∈ lost ++ rules, p ∈ quotedRules dialect)
    (hlost : lost.all isLostAtName = true) :
    rewriteAll (lost ++ rules) (inQuotes s) = rewriteAll rules (inQuotes s) := by
  induction lost with
  | nil => rfl
  | cons p lost ih =>
    rw [List.all_cons, Bool.and_eq_true] at hlost
    obtain ⟨hp, hmore⟩ := List.forall_mem_cons.1 hrules
    have hstay := rewrite_inQuotes (fitsOnlyAtName_of_mem_quotedRules p hp) hs
      (turns_none_of_leads hlost.1 hs)
    rw [List.cons_append, rewriteAll_cons, hstay]
    exact ih hmore hlost.2

theorem rewriteAll_cons_of_turns {p : Pattern} {rules : List Pattern}
    (hrules : ∀ q ∈ p :: rules, q ∈ quotedRules dialect) {c : Prop} [Decidable c] {w : String}
    (hw : w ∈ replacements dialect) (h : Turns p s (if c then some w else none)) :
    rewriteAll (p :: rules) (inQuotes s)
      = if c then inQuotes w.toList else rewriteAll rules (inQuotes s) := by
  obtain ⟨hp, hmore⟩ := List.forall_mem_cons.1 hrules
  rw [rewriteAll_cons, rewrite_inQuotes (fitsOnlyAtName_of_mem_quotedRules p hp) hs h]
  by_cases hc : c
  · rw [if_pos hc, if_pos hc]
    exact rewriteAll_eq_self fun q hq => rewrite_of_mem_replacements (hmore q hq) hw
  · rw [if_neg hc, if_neg hc]
    rfl

theorem rewriteAll_postgresRules :
    rewriteAll postgresRules (inQuotes s) = inQuotes (leftOf s (replacement postgres s)) := by
  have hrules : ∀ p ∈ postgresRules, p ∈ quotedRules postgres := fun _ => id
  have hmore := (List.forall_mem_cons.1 hrules).2
  have hbig := rewriteAll_cons_of_turns hs hrules (by decide)
    (turns_serial hs (by decide) (by decide) (by decide) "BIGINT")
  have hsmall := rewriteAll_cons_of_turns hs hmore (by decide)
    (turns_serial hs (by decide) (by decide) (by decide) "SMALLINT")
  have hplain := rewriteAll_cons_of_turns hs (List.forall_mem_cons.1 hmore).2 (by decide)
    ((takes_plainSerial hs).turns_becomes "INTEGER GENERATED BY DEFAULT AS IDENTITY")
  rw [postgresRules, hbig, hsmall, hplain, replacement]
  split_ifs <;> rfl

theorem rewriteAll_mySqlRules :
    rewriteAll (mySqlRules.drop 1) (inQuotes s) = inQuotes (leftOf s (replacement mySql s)) := by
  have hrules : ∀ n, ∀ p ∈ mySqlRules.drop (1 + n), p ∈ quotedRules mySql := by
    intro n p hp
    rw [← List.drop_drop] at hp
    exact List.mem_of_mem_drop hp
  have hempty : "" ∈ replacements mySql := by decide
  have hstart : rewriteAll (mySqlRules.drop 1) (inQuotes s)
      = rewriteAll (mySqlRules.drop 3) (inQuotes s) :=
    rewriteAll_append_of_lost hs ((mySqlRules.drop 1).take 2) (hrules 0) (by decide)
  have hcharset : rewriteAll (mySqlRules.drop 3) (inQuotes s) = if GoesOn "CHARSET" s then
      inQuotes "".toList else rewriteAll (mySqlRules.drop 4) (inQuotes s) :=
    rewriteAll_cons_of_turns hs (hrules 2) hempty (takes_characterSet hs).turns
  have hcollate : rewriteAll (mySqlRules.drop 4) (inQuotes s) = if GoesOn "COLLATE" s then
      inQuotes "".toList else rewriteAll (mySqlRules.drop 5) (inQuotes s) :=
    rewriteAll_cons_of_turns hs (hrules 3) hempty (takes_collation hs).turns
  have hcounter : rewriteAll (mySqlRules.drop 5) (inQuotes s)
      = rewriteAll (mySqlRules.drop 6) (inQuotes s) :=
    rewriteAll_append_of_lost hs ((mySqlRules.drop 5).take 1) (hrules 4) (by decide)
  have hflag : rewriteAll (mySqlRules.drop 6) (inQuotes s)
      = if lower s = lower "AUTO_INCREMENT".toList then inQuotes "".toList
        else rewriteAll (mySqlRules.drop 7) (inQuotes s) :=
    rewriteAll_cons_of_turns hs (hrules 5) hempty (takes_autoIncrementFlag hs).turns
  have htypes : rewriteAll (mySqlRules.drop 7) (inQuotes s)
      = rewriteAll (mySqlRules.drop 13) (inQuotes s) :=
    rewriteAll_append_of_lost hs ((mySqlRules.drop 7).take 6) (hrules 6) (by decide)
  have htime : rewriteAll (mySqlRules.drop 13) (inQuotes s)
      = if lower s = lower "datetime".toList then inQuotes "TIMESTAMP".toList
        else rewriteAll (mySqlRules.drop 14) (inQuotes s) :=
    rewriteAll_cons_of_turns hs (hrules 12) (by decide)
      (turns_timeRule hs "datetime" (by decide) (by decide) "TIMESTAMP")
  have hend : rewriteAll (mySqlRules.drop 14) (inQuotes s) = rewriteAll [] (inQuotes s) :=
    rewriteAll_append_of_lost hs (mySqlRules.drop 14) (hrules 13) (by decide)
  rw [hstart, hcharset, hcollate, hcounter, hflag, htypes, htime, hend, replacement]
  split_ifs <;> rfl

theorem rewriteAll_msSqlRules :
    rewriteAll (msSqlRules.drop 2) (inQuotes s) = inQuotes (leftOf s (replacement msSql s)) := by
  have hrules : ∀ p ∈ msSqlRules.drop 2, p ∈ quotedRules msSql := fun _ => id
  have hmore := (List.forall_mem_cons.1 hrules).2
  have hidentity : rewriteAll (msSqlRules.drop 2) (inQuotes s)
      = rewriteAll (msSqlRules.drop 3) (inQuotes s) :=
    rewriteAll_append_of_lost hs [identityRule] hrules (by decide)
  have hword : Takes (each [wordEdge, letters "nvarchar", wordEdge]) s
      (lower s = lower "nvarchar".toList) := takes_word hs (by decide) (by decide) [] fun _ => rfl
  have hnarrow := rewriteAll_cons_of_turns hs hmore (by decide) (hword.turns_becomes "varchar")
  have htime := rewriteAll_cons_of_turns hs (List.forall_mem_cons.1 hmore).2 (by decide)
    (turns_timeRule hs "datetime2" (by decide) (by decide) "timestamp")
  rw [hidentity, replacement]
  refine (hnarrow.trans (congrArg _ htime)).trans ?_
  split_ifs <;> rfl

/-- **All rules of a dialect together change the name as the replacement says**, and nothing
else. -/
theorem rewriteAll_quotedRules (dialect : Dialect) :
    rewriteAll (quotedRules dialect) (inQuotes s)
      = inQuotes (leftOf s (replacement dialect s)) := by
  cases dialect with
  | mySql => exact rewriteAll_mySqlRules hs
  | postgres => exact rewriteAll_postgresRules hs
  | msSql => exact rewriteAll_msSqlRules hs

end

/-! ### Portable text -/

/-- What opens a comment outside of quotes. -/
def openComment : Pattern :=
  anyOf [becomes (each [exactly "/*", few (one fun _ => true), exactly "*/"]) " ",
    each [exactly "--", many (noneOf "\n")],
    each [lineStart, many (anyOf [char ' ', char '\t']), char '#', many (noneOf "\n")]]

/-- A text in which no comment can open stays as it is, whatever stands in quotes. -/
theorem rewrite_comment_of_hasForm {form : Form} {s : List Char} (hs : HasForm form s)
    (hlost : (onward form).all (fun o => (openComment.leads o).isEmpty) = true) :
    comment.rewrite s = s := by
  refine rewrite_of_copies fun bound place hsuffix m hm => ?_
  have hshows : Outlook.Shows ⟨.nothing, form⟩ ⟨none, s⟩ := ⟨rfl, hs⟩
  obtain ⟨o, ho, hplace⟩ := hshows.exists_onward hsuffix
  have hnone : openComment.ways bound false place = [] :=
    ways_eq_nil_of_leads hplace (List.all_eq_true.1 hlost o ho) _ _
  -- the first three alternatives copy what stands in quotes
  have hcopies : ∀ {p : Pattern}, p.isSilent = true → m ∈ p.ways bound true place →
      Copies true place m := fun hp h => copies_of_isSilent hp h
  rcases List.mem_append.1 hm with hm | hm
  · exact hcopies rfl hm
  rcases List.mem_append.1 hm with hm | hm
  · exact hcopies rfl hm
  rcases List.mem_append.1 hm with hm | hm
  · exact hcopies rfl hm
  · exact absurd (hnone ▸ hm) List.not_mem_nil

/-- The form of a declaration. -/
def columnForm (opening closing : Char) : Form := Form.of (columnStart opening) ++ nameForm closing

theorem hasForm_columnText {s : List Char} (hs : IsIdentifier s) (opening closing : Char) :
    HasForm (columnForm opening closing) (columnText opening closing s) :=
  (hs.hasForm closing).append_text (columnStart opening)

theorem rewrite_comment_columnText (dialect : Dialect) {s : List Char} (hs : IsIdentifier s) :
    comment.rewrite (columnText dialect.quotes.1 dialect.quotes.2 s)
      = columnText dialect.quotes.1 dialect.quotes.2 s := by
  refine rewrite_comment_of_hasForm (hasForm_columnText hs _ _) ?_
  cases dialect
  · decide
  · decide
  · decide

theorem rewrite_backtick {s : List Char} (hs : IsIdentifier s) :
    (becomes (char '\x60') "\x22").rewrite (columnText '\x60' '\x60' s) = inQuotes s := by
  have hname : s.flatMap (fun c => if c = '\x60' then "\x22".toList else [c]) = s := by
    have hstay : ∀ c ∈ s, (if c = '\x60' then "\x22".toList else [c]) = [c] := by
      intro c hc
      refine if_neg ?_
      rintro rfl
      exact hs.not_mem (by decide) hc
    rw [List.flatMap_congr hstay, List.flatMap_singleton']
  rw [becomes, rewrite_char_put, columnText, List.flatMap_append, List.flatMap_append, hname]
  rfl

theorem columnText_eq (opening closing : Char) (s : List Char) :
    columnText opening closing s
      = "CREATE TABLE t (".toList ++ enclosed opening closing s ++ " integer);".toList := by
  have hparts : ∀ front back : List Char, front ++ [opening] ++ (s ++ closing :: back)
      = front ++ enclosed opening closing s ++ back := by simp [enclosed]
  exact hparts _ _

theorem rewrite_bracketName_columnText {s : List Char} (hs : IsIdentifier s) :
    bracketName.rewrite (columnText '[' ']' s) = inQuotes s := by
  have hstart : Rewrites bracketName "CREATE TABLE t (".toList "CREATE TABLE t (".toList :=
    rewrites_bracketName_of_not_mem (by decide)
  have hname := rewrites_bracketName_enclosed hs.ne_nil (hs.not_mem (c := ']') (by decide))
  have hend : Rewrites bracketName " integer);".toList " integer);".toList :=
    rewrites_bracketName_of_not_mem (by decide)
  have hall := ((hstart.append hname).append hend) none []
  have hnil : bracketName.rewriteBehind (behind none ("CREATE TABLE t (".toList
      ++ enclosed '[' ']' s ++ " integer);".toList)) [] = [] := by
    rw [rewriteBehind, rewriteFrom]
  rw [hnil, List.append_nil, List.append_nil, ← columnText_eq, ← columnText_eq] at hall
  exact hall

theorem rewrite_batchEnd_columnText {s : List Char} (hs : IsIdentifier s) :
    batchEnd.rewrite (columnText '[' ']' s) = columnText '[' ']' s := by
  have hshows : Outlook.Shows ⟨.nothing, columnForm '[' ']'⟩ ⟨none, columnText '[' ']' s⟩ :=
    ⟨rfl, hasForm_columnText hs _ _⟩
  exact rewriteFrom_of_missesIn (p := batchEnd) (by decide) (Nat.le_refl _)
    (missesIn_of_isLost hshows (by decide))

theorem rewriteAll_rules (dialect : Dialect) {s : List Char} (hs : IsIdentifier s) :
    rewriteAll dialect.rules (columnText dialect.quotes.1 dialect.quotes.2 s)
      = rewriteAll (quotedRules dialect) (inQuotes s) := by
  cases dialect with
  | postgres => rfl
  | mySql =>
    have hrules : mySqlRules = becomes (char '\x60') "\x22" :: mySqlRules.drop 1 := rfl
    rw [rules, hrules, rewriteAll_cons, quotes, rewrite_backtick hs]
    rfl
  | msSql =>
    have hrules : msSqlRules = batchEnd :: bracketName :: msSqlRules.drop 2 := rfl
    rw [rules, hrules, rewriteAll_cons, rewriteAll_cons, quotes, rewrite_batchEnd_columnText hs,
      rewrite_bracketName_columnText hs]
    rfl

/-- **Squeezing blanks leaves a declaration as it is** if it has none to squeeze in the quotes. -/
theorem collapse_inQuotes {s : List Char}
    (hs : Text.Squeezed false false (enclosed '\x22' '\x22' s)) :
    Text.collapse (inQuotes s) = inQuotes s := by
  have hstart : Text.Squeezed false false "CREATE TABLE t (".toList := fun _ => rfl
  have hend : Text.Squeezed false false " integer);".toList := fun _ => rfl
  have hall := (hstart.append hs).append hend
  have hink : Text.EndsInk (columnEnd '\x22') := ⟨"\x22 integer)".toList, ';', by decide, by decide⟩
  rw [← columnText_eq] at hall
  exact Text.collapse_of_squeezed (by decide) hall ((hink.append s).append (columnStart '\x22'))

theorem squeezed_of_mem_replacements {dialect : Dialect} : ∀ w ∈ replacements dialect,
    Text.Squeezed false false (enclosed '\x22' '\x22' w.toList) := by
  cases dialect
  · exact List.forall_mem_cons.2 ⟨fun _ => rfl, List.forall_mem_singleton.2 fun _ => rfl⟩
  · exact List.forall_mem_cons.2 ⟨fun _ => rfl,
      List.forall_mem_cons.2 ⟨fun _ => rfl, List.forall_mem_singleton.2 fun _ => rfl⟩⟩
  · exact List.forall_mem_cons.2 ⟨fun _ => rfl, List.forall_mem_singleton.2 fun _ => rfl⟩

/-- **The portable text of a declaration has the name, or what replaces it, in double quotes.** -/
theorem portable_quotedColumn (dialect : Dialect) {name : String} (hs : IsIdentifier name.toList) :
    dialect.portable (quotedColumn dialect name)
      = String.ofList (inQuotes (leftOf name.toList (replacement dialect name.toList))) := by
  rw [portable, quotedColumn, String.toList_ofList, rewrite_comment_columnText dialect hs,
    rewriteAll_rules dialect hs, rewriteAll_quotedRules hs dialect]
  cases hw : replacement dialect name.toList with
  | none => exact congrArg String.ofList (collapse_inQuotes (hs.squeezed false))
  | some w =>
    have hsqueezed := squeezed_of_mem_replacements w (mem_replacements hw)
    exact congrArg String.ofList (collapse_inQuotes hsqueezed)

end SchemaAudit.Dialect
