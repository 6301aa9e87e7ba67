import SchemaAudit.Ddl.Input
import SchemaAudit.Ddl.Schema
import SchemaAudit.Text.Classes
import SchemaAudit.TypeName

/-!
# Columns

A column is a name, a type and options. A type may have several words and arguments; of an option
that the schema does not hold only the extent matters, so that the comma after the column is
found.
-/

namespace SchemaAudit.Ddl

/-! ## Types -/

/-- Words that go on with the type before them. -/
def typeContinuations : List String := ["varying", "precision", "with", "without", "time", "zone"]

/-- The words that go on with a type. -/
def typeWords : Input → List String × Input
  | [] => ([], [])
  | l :: rest =>
    match l.token with
    | .word w =>
      if typeContinuations.contains (lower w) then
        let (more, left) := typeWords rest
        (w :: more, left)
      else ([], l :: rest)
    | _ => ([], l :: rest)

/-- The last part of a qualified type name of which the first part has been read. -/
def typeTail (name : String) : Input → String × Input
  | [] => (name, [])
  | l :: rest =>
    if l.token = .dot then
      match rest with
      | [] => (name, [])
      | l' :: rest' =>
        match l'.token.name? with
        | some part => typeTail part rest'
        | none => typeTail name (l' :: rest')
    else (name, l :: rest)

/-- A token as it is written among the arguments of a type. -/
def argumentText : Token → String
  | .keyword k => k.spelling
  | .word s | .number s => s
  | .quoted s => "\"" ++ s ++ "\""
  | .literal s => "'" ++ s ++ "'"
  | .leftParen => "("
  | .rightParen => ")"
  | .comma => ","
  | .dot => "."
  | .symbol c => String.singleton c
  | .semicolon => ";"
  | .finish => ""

/-- The tokens of a group, inside which `depth` groups are open, and what is left behind it. -/
def groupTexts (table : String) : (depth : Nat) → Input → Reading (List String)
  | _, [] => .error (.unexpectedEnd table)
  | depth, l :: rest =>
    match l.token with
    | .semicolon | .finish => .error (.unexpectedEnd table)
    | .leftParen =>
      (groupTexts table (depth + 1) rest).map fun (texts, left) => ("(" :: texts, left)
    | .rightParen =>
      match depth with
      | 0 => .ok ([], rest)
      | depth + 1 => (groupTexts table depth rest).map fun (texts, left) => (")" :: texts, left)
    | t => (groupTexts table depth rest).map fun (texts, left) => (argumentText t :: texts, left)

/-- Arguments in parentheses, with spaces between the tokens but none beside a comma. -/
def argumentsText (texts : List String) : List Char :=
  let inner := Text.join [' '] (texts.map String.toList)
  '(' :: Text.replaceAll " , ".toList [','] inner ++ [')']

/-- Arguments, if a group comes first. -/
def typeArguments (table : String) (s : Input) : Reading (List Char) :=
  match s with
  | [] => .ok ([], [])
  | l :: rest =>
    if l.token = .leftParen then
      (groupTexts table 0 rest).map fun (texts, left) => (argumentsText texts, left)
    else .ok ([], l :: rest)

/-- The text with another inserted before the first occurrence of a third one, or at the end. -/
def insertBefore (mark inserted : List Char) : List Char → List Char
  | [] => inserted
  | c :: rest =>
    if mark.isPrefixOf (c :: rest) then inserted ++ c :: rest
    else c :: insertBefore mark inserted rest

/-- The brackets behind the type of an array, which may hold a size. -/
def arraySuffix : Input → List Char × Input
  | [] => ([], [])
  | l :: rest =>
    match l.token with
    | .quoted s =>
      if s.toList.all Text.isDigit then
        let (brackets, left) := arraySuffix rest
        ('[' :: ']' :: brackets, left)
      else ([], l :: rest)
    | _ => ([], l :: rest)

/-- A type as it is written: its words, its arguments behind the first of them, and the brackets
of an array. -/
def typeText (table first : String) (s : Input) : Reading String :=
  let (name, s1) := typeTail first s
  let (words, s2) := typeWords s1
  match typeArguments table s2 with
  | .error e => .error e
  | .ok (arguments, s3) =>
    let (moreWords, s4) := if s2.startsWith .leftParen then typeWords s3 else ([], s3)
    let all := Text.join [' '] ((name :: words ++ moreWords).map String.toList)
    let (brackets, left) := arraySuffix s4
    .ok (String.ofList (insertBefore " with".toList arguments all ++ brackets), left)

/-- A type, if a name comes first. -/
def columnType? (table : String) : Input → Except ReadError (Option (String × Input))
  | [] => .ok none
  | l :: rest =>
    match l.token.name? with
    | none => .ok none
    | some first => (typeText table first rest).map some

theorem typeWords_length_le (s : Input) : (typeWords s).2.length ≤ s.length := by
  fun_induction typeWords s <;> simp_all
  omega

theorem typeTail_length_le (name : String) (s : Input) :
    (typeTail name s).2.length ≤ s.length := by
  fun_induction typeTail name s <;> simp_all <;> omega

theorem groupTexts_length_lt {table : String} {depth : Nat} {s rest : Input}
    {texts : List String} (h : groupTexts table depth s = .ok (texts, rest)) :
    rest.length < s.length := by
  have step : ∀ {d : Nat} {r : Input} {text : String} {texts : List String},
      (∀ {t : List String}, groupTexts table d r = .ok (t, rest) → rest.length < r.length) →
      (groupTexts table d r).map (fun (texts, left) => (text :: texts, left))
        = .ok (texts, rest) → rest.length < r.length + 1 := by
    intro d r text texts ih h
    obtain ⟨⟨texts', left⟩, hr, he⟩ := eq_ok_of_map_eq_ok h
    obtain ⟨-, rfl⟩ := Prod.mk.injEq .. ▸ he
    exact Nat.lt_succ_of_lt (ih hr)
  fun_induction groupTexts table depth s generalizing texts with
  | case4 => rename_i ih; exact step ih h
  | case6 => rename_i ih; exact step ih h
  | case7 => rename_i ih; exact step ih h
  | _ => simp_all

theorem typeArguments_length_le {table : String} {s rest : Input} {arguments : List Char}
    (h : typeArguments table s = .ok (arguments, rest)) : rest.length ≤ s.length := by
  cases s with
  | nil => simp_all [typeArguments]
  | cons l s =>
    simp only [typeArguments] at h
    split at h
    · obtain ⟨⟨texts, left⟩, hr, he⟩ := eq_ok_of_map_eq_ok h
      obtain ⟨-, rfl⟩ := Prod.mk.injEq .. ▸ he
      exact Nat.le_succ_of_le (Nat.le_of_lt (groupTexts_length_lt hr))
    · simp_all

theorem arraySuffix_length_le (s : Input) : (arraySuffix s).2.length ≤ s.length := by
  fun_induction arraySuffix s <;> simp_all
  omega

theorem typeText_length_le {table first : String} {s rest : Input} {text : String}
    (h : typeText table first s = .ok (text, rest)) : rest.length ≤ s.length := by
  have h1 := typeTail_length_le first s
  have h2 := typeWords_length_le (typeTail first s).2
  unfold typeText at h
  simp only at h
  split at h
  · simp at h
  · rename_i arguments s3 ha
    have h3 := typeArguments_length_le ha
    have h4 := typeWords_length_le s3
    simp only [Except.ok.injEq, Prod.mk.injEq] at h
    obtain ⟨-, rfl⟩ := h
    refine Nat.le_trans (arraySuffix_length_le _) ?_
    split
    · omega
    · simp only
      omega

theorem columnType?_length_lt {table : String} {s rest : Input} {text : String}
    (h : columnType? table s = .ok (some (text, rest))) : rest.length < s.length := by
  cases s with
  | nil => simp [columnType?] at h
  | cons l s =>
    simp only [columnType?] at h
    split at h
    · simp at h
    · obtain ⟨r, hr, he⟩ := eq_ok_of_map_eq_ok h
      obtain rfl := Option.some.inj he
      exact Nat.lt_succ_of_le (typeText_length_le hr)

/-! ## What a reference points at -/

/-- The table that a reference names, and the columns if there are any. -/
def reference (table : String) (s : Input) : Reading (String × List String) :=
  match qualifiedName? s with
  | none => .error (s.expected "referenced table")
  | some (target, rest) =>
    if rest.startsWith .leftParen then
      (columnList table rest).map fun (columns, left) => ((target, columns), left)
    else .ok ((target, []), rest)

theorem reference_length_lt {table : String} {s rest : Input} {r : String × List String}
    (h : reference table s = .ok (r, rest)) : rest.length < s.length := by
  unfold reference at h
  split at h
  · simp at h
  · rename_i target left hq
    have hl := qualifiedName?_length_lt hq
    split at h
    · obtain ⟨⟨columns, left'⟩, hr, he⟩ := eq_ok_of_map_eq_ok h
      obtain ⟨-, rfl⟩ := Prod.mk.injEq .. ▸ he
      exact Nat.lt_trans (columnList_length_lt hr) hl
    · simp_all

/-- What is left behind one action, from behind `ON DELETE` or `ON UPDATE`; none if it is none that
is known. -/
def skipAction? (s : Input) : Option Input :=
  if s.startsWithWord "SET" then
    if (s.eatWord "SET").startsWith (.keyword .null) then
      some ((s.eatWord "SET").eat (.keyword .null))
    else some ((s.eatWord "SET").eat (.keyword .default))
  else if s.startsWithWord "NO" then some ((s.eatWord "NO").eatWord "ACTION")
  else if s.startsWithWord "CASCADE" then some (s.eatWord "CASCADE")
  else if s.startsWithWord "RESTRICT" then some (s.eatWord "RESTRICT")
  else none

theorem skipAction?_length_le {s rest : Input} (h : skipAction? s = some rest) :
    rest.length ≤ s.length := by
  have hw := fun word => Input.eatWord_length_le word s
  unfold skipAction? at h
  repeat' split at h
  all_goals simp only [Option.some.injEq, reduceCtorEq] at h
  all_goals subst h
  · exact Nat.le_trans (Input.eat_length_le _ _) (hw _)
  · exact Nat.le_trans (Input.eat_length_le _ _) (hw _)
  · exact Nat.le_trans (Input.eatWord_length_le _ _) (hw _)
  · exact hw _
  · exact hw _

/-- What is left behind the actions of a reference. -/
def skipActions (s : Input) : Input :=
  match s with
  | [] => []
  | l :: rest =>
    if l.token = .keyword .on then
      if Input.startsWithWord "DELETE" rest || Input.startsWithWord "UPDATE" rest then
        match _h : skipAction? rest.tail with
        | some left => skipActions left
        | none => rest.tail
      else rest
    else l :: rest
termination_by s.length
decreasing_by
  have := skipAction?_length_le _h
  simp only [List.length_tail, List.length_cons] at this ⊢
  omega

theorem skipActions_length_le (s : Input) : (skipActions s).length ≤ s.length := by
  fun_induction skipActions s with
  | case2 =>
    rename_i h ih
    have := skipAction?_length_le h
    simp only [List.length_tail, List.length_cons] at this ⊢
    omega
  | _ => simp <;> omega

/-! ## Options -/

/-- What one option says about its column. -/
inductive ColumnOption where
  | primaryKey
  | notNull
  | unique
  | increment
  | reference (target : String) (columns : List String)
  /-- An option that says nothing the schema holds. -/
  | other
  deriving DecidableEq, Repr

/-- What is left behind casts. -/
def skipCasts (table : String) (s : Input) : Except ReadError Input :=
  match s with
  | [] => .ok []
  | l :: rest =>
    if l.token = .symbol ':' then
      if Input.startsWith (.symbol ':') rest then
        match _h : columnType? table rest.tail with
        | .error e => .error e
        | .ok none => skipCasts table rest.tail
        | .ok (some (_, left)) => skipCasts table left
      else skipCasts table rest
    else .ok (l :: rest)
termination_by s.length
decreasing_by
  · simp only [List.length_tail, List.length_cons]
    omega
  · have := columnType?_length_lt _h
    simp only [List.length_tail, List.length_cons] at this ⊢
    omega
  · simp

/-- What is left behind a default value: a literal, a word with a group or without, or a group,
with casts. -/
def skipDefault (table : String) (s : Input) : Except ReadError Input :=
  match s with
  | [] => .ok []
  | l :: rest =>
    match l.token with
    | .literal _ | .number _ | .keyword .null => skipCasts table rest
    | .word _ =>
      match skipOptionalGroup table rest with
      | .error e => .error e
      | .ok left => skipCasts table left
    | .leftParen =>
      match closeGroup table 0 rest with
      | .error e => .error e
      | .ok left => skipCasts table left
    | _ => skipCasts table (l :: rest)

/-- A generated value, from behind `GENERATED`: it counts up, or is computed. -/
def generated (table : String) (s : Input) : Reading ColumnOption :=
  let s1 :=
    if s.startsWithWord "ALWAYS" then s.eatWord "ALWAYS"
    else if s.startsWithWord "BY" then (s.eatWord "BY").eat (.keyword .default)
    else s
  let s2 := s1.eatWord "AS"
  if s2.startsWithWord "IDENTITY" then
    (skipOptionalGroup table (s2.eatWord "IDENTITY")).map fun left => (.increment, left)
  else (skipOptionalGroup table s2).map fun left => (.other, left)

/-- The option that begins with the token `t`, behind which `rest` is left. -/
def columnOption (table : String) (t : Token) (rest : Input) : Reading ColumnOption :=
  match t with
  | .keyword .primary => .ok (.primaryKey, Input.eat (.keyword .key) rest)
  | .keyword .not =>
    if Input.startsWith (.keyword .null) rest then .ok (.notNull, rest.tail) else .ok (.other, rest)
  | .keyword .unique => .ok (.unique, Input.eat (.keyword .key) rest)
  | .keyword .default => (skipDefault table rest).map fun left => (.other, left)
  | .keyword .references =>
    (reference table rest).map fun ((target, columns), left) =>
      (.reference target columns, skipActions left)
  | .keyword .constraint => .ok (.other, rest.eatName)
  | .keyword .check => (skipGroup table rest).map fun left => (.other, left)
  | .leftParen => (closeGroup table 0 rest).map fun left => (.other, left)
  | t =>
    if t.isWord "GENERATED" then generated table rest
    else if t.isWord "IDENTITY" then
      (skipOptionalGroup table rest).map fun left => (.increment, left)
    else if t.isWord "AUTO_INCREMENT" || t.isWord "AUTOINCREMENT" then .ok (.increment, rest)
    else .ok (.other, rest)

theorem skipCasts_length_le {table : String} {s rest : Input}
    (h : skipCasts table s = .ok rest) : rest.length ≤ s.length := by
  fun_induction skipCasts table s with
  | case1 => simp_all
  | case2 => simp_all
  | case3 =>
    rename_i ih
    have := ih h
    simp only [List.length_tail, List.length_cons] at this ⊢
    omega
  | case4 =>
    rename_i hc ih
    have := columnType?_length_lt hc
    have := ih h
    simp only [List.length_tail, List.length_cons] at *
    omega
  | case5 =>
    rename_i ih
    exact Nat.le_succ_of_le (ih h)
  | case6 => simp_all

theorem skipDefault_length_le {table : String} {s rest : Input}
    (h : skipDefault table s = .ok rest) : rest.length ≤ s.length := by
  cases s with
  | nil => simp_all [skipDefault]
  | cons l s =>
    simp only [skipDefault] at h
    split at h
    · exact Nat.le_succ_of_le (skipCasts_length_le h)
    · exact Nat.le_succ_of_le (skipCasts_length_le h)
    · exact Nat.le_succ_of_le (skipCasts_length_le h)
    · split at h
      · simp at h
      · rename_i left hg
        exact Nat.le_succ_of_le
          (Nat.le_trans (skipCasts_length_le h) (skipOptionalGroup_length_le hg))
    · split at h
      · simp at h
      · rename_i left hg
        exact Nat.le_succ_of_le
          (Nat.le_trans (skipCasts_length_le h) (Nat.le_of_lt (closeGroup_length_lt hg)))
    · exact skipCasts_length_le h

theorem generated_length_le {table : String} {s rest : Input} {o : ColumnOption}
    (h : generated table s = .ok (o, rest)) : rest.length ≤ s.length := by
  have h1 : ∀ word, (s.eatWord word).length ≤ s.length :=
    fun word => Input.eatWord_length_le word s
  unfold generated at h
  generalize hs1 : (if s.startsWithWord "ALWAYS" then s.eatWord "ALWAYS"
    else if s.startsWithWord "BY" then (s.eatWord "BY").eat (.keyword .default) else s) = s1 at h
  have hl : s1.length ≤ s.length := by
    subst hs1
    split
    · exact h1 _
    · split
      · exact Nat.le_trans (Input.eat_length_le _ _) (h1 _)
      · exact Nat.le_refl _
  have h2 : (s1.eatWord "AS").length ≤ s1.length := Input.eatWord_length_le _ _
  simp only at h
  split at h
  all_goals
    obtain ⟨left, hr, he⟩ := eq_ok_of_map_eq_ok h
    obtain ⟨-, rfl⟩ := Prod.mk.injEq .. ▸ he
    have := skipOptionalGroup_length_le hr
  · have := Input.eatWord_length_le "IDENTITY" (s1.eatWord "AS")
    omega
  · omega

theorem columnOption_length_le {table : String} {t : Token} {s rest : Input} {o : ColumnOption}
    (h : columnOption table t s = .ok (o, rest)) : rest.length ≤ s.length := by
  unfold columnOption at h
  split at h
  · simp only [Except.ok.injEq, Prod.mk.injEq] at h
    obtain ⟨-, rfl⟩ := h
    exact Input.eat_length_le _ _
  · split at h <;> simp only [Except.ok.injEq, Prod.mk.injEq] at h <;> obtain ⟨-, rfl⟩ := h
    · simp
    · exact Nat.le_refl _
  · simp only [Except.ok.injEq, Prod.mk.injEq] at h
    obtain ⟨-, rfl⟩ := h
    exact Input.eat_length_le _ _
  · obtain ⟨left, hr, he⟩ := eq_ok_of_map_eq_ok h
    obtain ⟨-, rfl⟩ := Prod.mk.injEq .. ▸ he
    exact skipDefault_length_le hr
  · obtain ⟨⟨⟨target, columns⟩, left⟩, hr, he⟩ := eq_ok_of_map_eq_ok h
    obtain ⟨-, rfl⟩ := Prod.mk.injEq .. ▸ he
    exact Nat.le_trans (skipActions_length_le _) (Nat.le_of_lt (reference_length_lt hr))
  · simp only [Except.ok.injEq, Prod.mk.injEq] at h
    obtain ⟨-, rfl⟩ := h
    exact Input.eatName_length_le _
  · obtain ⟨left, hr, he⟩ := eq_ok_of_map_eq_ok h
    obtain ⟨-, rfl⟩ := Prod.mk.injEq .. ▸ he
    exact skipGroup_length_le hr
  · obtain ⟨left, hr, he⟩ := eq_ok_of_map_eq_ok h
    obtain ⟨-, rfl⟩ := Prod.mk.injEq .. ▸ he
    exact Nat.le_of_lt (closeGroup_length_lt hr)
  · split at h
    · exact generated_length_le h
    · split at h
      · obtain ⟨left, hr, he⟩ := eq_ok_of_map_eq_ok h
        obtain ⟨-, rfl⟩ := Prod.mk.injEq .. ▸ he
        exact skipOptionalGroup_length_le hr
      · split at h <;> simp_all

/-- The options of a column, up to the comma or parenthesis behind it. -/
def columnOptions (table : String) (s : Input) : Reading (List ColumnOption) :=
  match s with
  | [] => .error (.unexpectedEnd table)
  | l :: rest =>
    match l.token with
    | .comma | .rightParen => .ok ([], l :: rest)
    | .semicolon | .finish => .error (.unexpectedEnd table)
    | t =>
      match _h : columnOption table t rest with
      | .error e => .error e
      | .ok (option, after) =>
        (columnOptions table after).map fun (options, left) => (option :: options, left)
termination_by s.length
decreasing_by exact Nat.lt_succ_of_le (columnOption_length_le _h)

theorem columnOptions_length_le {table : String} {s rest : Input} {options : List ColumnOption}
    (h : columnOptions table s = .ok (options, rest)) : rest.length ≤ s.length := by
  fun_induction columnOptions table s generalizing options with
  | case7 =>
    rename_i ho ih
    obtain ⟨⟨options', left⟩, hr, he⟩ := eq_ok_of_map_eq_ok h
    obtain ⟨-, rfl⟩ := Prod.mk.injEq .. ▸ he
    exact Nat.le_succ_of_le (Nat.le_trans (ih hr) (columnOption_length_le ho))
  | _ => simp_all

/-! ## The column -/

/-- The modifier that an option adds in its place. A primary key is not added in its place. -/
def ColumnOption.modifier? : ColumnOption → Option Modifier
  | notNull => some .notNull
  | unique => some .unique
  | increment => some .increment
  | _ => none

/-- The modifiers that options give, a primary key first. -/
def modifiersOf (options : List ColumnOption) : List Modifier :=
  let others := options.filterMap ColumnOption.modifier?
  if options.contains .primaryKey then .primaryKey :: others else others

/-- The foreign keys that options declare for one column. -/
def referencesOf (table column : String) (options : List ColumnOption) : List ForeignKey :=
  options.filterMap fun
    | .reference target columns => some ⟨table, [column], target, columns⟩
    | _ => none

/-- A column with the foreign keys that it declares, from behind its name. -/
def column (dialect : Dialect) (table name : String) (s : Input) :
    Reading (Column × List ForeignKey) :=
  match columnType? table s with
  | .error e => .error e
  | .ok none => .error (s.expected "column type")
  | .ok (some (written, rest)) =>
    (columnOptions table rest).map fun (options, left) =>
      ((⟨name, TypeName.canonical dialect written, modifiersOf options⟩,
        referencesOf table name options), left)

theorem column_length_lt {dialect : Dialect} {table name : String} {s rest : Input}
    {c : Column × List ForeignKey} (h : column dialect table name s = .ok (c, rest)) :
    rest.length < s.length := by
  unfold column at h
  split at h
  · simp at h
  · simp at h
  · rename_i written after ht
    obtain ⟨⟨options, left⟩, hr, he⟩ := eq_ok_of_map_eq_ok h
    obtain ⟨-, rfl⟩ := Prod.mk.injEq .. ▸ he
    exact Nat.lt_of_le_of_lt (columnOptions_length_le hr) (columnType?_length_lt ht)

end SchemaAudit.Ddl
