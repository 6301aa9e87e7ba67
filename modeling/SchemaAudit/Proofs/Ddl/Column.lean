import SchemaAudit.Proofs.Ddl.Written
import SchemaAudit.Proofs.TypeName

/-!
# Written columns are read back

The readers of a column stop where its written parts end.

* `IsFollower`: a token that goes on with neither a type nor an option in front of it. The first
  token of every written option is one, and so is a separator.
* `columnType?_begins`: a written type is read as its canonical name.
* `columnOption_begins`: a written option is read as what it says.
* `ReadsOption`: what it takes for tokens to be read as an option; `columnOptions_readings` reads such
  options one after another, and `column_readings` a column with them.
* `column_begins`: a written column is read as declared.
-/

namespace SchemaAudit.Ddl

open Input

/-- A token that goes on with neither a type nor an option. -/
structure IsFollower (t : Token) : Prop where
  ne_dot : t ≠ .dot
  ne_leftParen : t ≠ .leftParen
  ne_quoted : ∀ name, t ≠ .quoted name
  ne_continuation : ∀ w, t = .word w → typeContinuations.contains (lower w) = false
  ne_colon : t ≠ .symbol ':'
  ne_on : t ≠ .keyword .on
  ne_key : t ≠ .keyword .key

theorem isFollower_autoIncrement : IsFollower (.word "AUTO_INCREMENT") := by
  refine ⟨by simp, by simp, by simp, ?_, by simp, by simp, by simp⟩
  rintro w ⟨⟩
  decide

theorem IsSeparator.isFollower {t : Token} (h : IsSeparator t) : IsFollower t := by
  rcases h with rfl | rfl <;> constructor <;> simp

/-! ### Where readers stop -/

theorem typeTail_of_current (name : String) {s : Input} (h : s.current ≠ .dot) :
    typeTail name s = (name, s) := by
  cases s with
  | nil => rfl
  | cons l rest =>
    have hl : l.token ≠ .dot := h
    rw [typeTail.eq_def]
    simp only [if_neg hl]

theorem typeWords_of_current {s : Input}
    (h : ∀ w, s.current = .word w → typeContinuations.contains (lower w) = false) :
    typeWords s = ([], s) := by
  cases s with
  | nil => rfl
  | cons l rest =>
    rw [typeWords.eq_def]
    simp only
    split
    · rename_i w hw
      rw [h w hw]
      rfl
    · rfl

theorem arraySuffix_of_current {s : Input} (h : ∀ name, s.current ≠ .quoted name) :
    arraySuffix s = ([], s) := by
  cases s with
  | nil => rfl
  | cons l rest =>
    rw [arraySuffix.eq_def]
    simp only
    split
    · rename_i name hq
      exact absurd hq (h name)
    · rfl

theorem typeArguments_of_current (table : String) {s : Input} (h : s.current ≠ .leftParen) :
    typeArguments table s = .ok ([], s) := by
  cases s with
  | nil => rfl
  | cons l rest =>
    have hl : l.token ≠ .leftParen := h
    rw [typeArguments]
    simp only [if_neg hl]

theorem skipCasts_of_current (table : String) {s : Input} (h : s.current ≠ .symbol ':') :
    skipCasts table s = .ok s := by
  cases s with
  | nil => rw [skipCasts]
  | cons l rest =>
    have hl : l.token ≠ .symbol ':' := h
    rw [skipCasts.eq_def]
    simp only [if_neg hl]

theorem skipActions_of_current {s : Input} (h : s.current ≠ .keyword .on) : skipActions s = s := by
  cases s with
  | nil => rw [skipActions]
  | cons l rest =>
    have hl : l.token ≠ .keyword .on := h
    rw [skipActions.eq_def]
    simp only [if_neg hl]

/-! ### Types -/

/-- A token that neither opens nor closes a group nor ends a statement. -/
def IsArgument (t : Token) : Prop := t ∉ [Token.leftParen, .rightParen, .semicolon, .finish]

theorem groupTexts_argument {table : String} {l : Lexeme} (hl : IsArgument l.token) (rest : Input) :
    groupTexts table 0 (l :: rest)
      = (groupTexts table 0 rest).map
          fun (texts, left) => (argumentText l.token :: texts, left) := by
  rw [groupTexts.eq_def]
  simp only [IsArgument, List.mem_cons, not_or] at hl
  obtain ⟨hopen, hclose, hsemicolon, hfinish, -⟩ := hl
  split <;> simp_all

theorem groupTexts_begins (table : String) {ts : List Token} (hts : ∀ t ∈ ts, IsArgument t)
    {rest s : Input} (h : Begins (ts ++ [.rightParen]) rest s) :
    groupTexts table 0 s = .ok (ts.map argumentText, rest) := by
  induction ts generalizing s with
  | nil =>
    obtain ⟨l, rfl, hl⟩ := begins_singleton.1 h
    rw [groupTexts.eq_def]
    simp [hl]
  | cons t ts ih =>
    obtain ⟨l, after, rfl, rfl, htail⟩ := begins_cons.1 h
    have hrest := ih (fun u hu => hts u (List.mem_cons_of_mem _ hu)) htail
    rw [groupTexts_argument (hts _ List.mem_cons_self), hrest]
    rfl

theorem insertBefore_of_not_mem {c : Char} {s : List Char} (h : c ∉ s) (mark inserted : List Char) :
    insertBefore (c :: mark) inserted s = s ++ inserted := by
  induction s with
  | nil => rfl
  | cons d s ih =>
    have hc : c ≠ d := fun e => h (e ▸ List.mem_cons_self)
    have hs := ih fun hm => h (List.mem_cons_of_mem _ hm)
    rw [insertBefore, if_neg (by simp [hc]), hs]
    rfl

/-- A type of one word, with arguments or without. -/
theorem typeText_word {table first : String} (hfirst : ' ' ∉ first.toList) {s rest : Input}
    {arguments : List Char} (hdot : s.current ≠ .dot) (hwords : typeWords s = ([], s))
    (harguments : typeArguments table s = .ok (arguments, rest)) (hrest : IsFollower rest.current) :
    typeText table first s = .ok (String.ofList (first.toList ++ arguments), rest) := by
  have hmore : (if s.startsWith .leftParen then typeWords rest else ([], rest)) = ([], rest) := by
    rw [typeWords_of_current hrest.ne_continuation, ite_self]
  have hall : Text.join [' '] ([first].map String.toList) = first.toList := by simp [Text.join]
  have hmark : " with".toList = ' ' :: "with".toList := rfl
  unfold typeText
  simp only [typeTail_of_current first hdot, hwords, harguments, hmore,
    arraySuffix_of_current hrest.ne_quoted, List.append_nil, hall, hmark,
    insertBefore_of_not_mem hfirst]

/-! ### Arguments -/

theorem space_not_mem_toString (n : Nat) : ' ' ∉ (toString n).toList := by
  intro h
  exact absurd (Text.isDigit_of_mem_toString h) (by decide)

theorem argumentsText_one (n : Nat) :
    argumentsText [toString n] = '(' :: ((toString n).toList ++ [')']) := by
  have hjoin : Text.join [' '] ([toString n].map String.toList) = (toString n).toList := by
    simp [Text.join]
  have hmark : " , ".toList = ' ' :: ", ".toList := rfl
  simp only [argumentsText, hjoin, hmark, Text.replaceAll_of_not_mem (space_not_mem_toString n)]
  rfl

/-- The spaces beside a comma between two numbers go. -/
theorem argumentsText_two (n m : Nat) :
    argumentsText [toString n, ",", toString m]
      = '(' :: ((toString n).toList ++ ',' :: (toString m).toList ++ [')']) := by
  have hjoin : Text.join [' '] ([toString n, ",", toString m].map String.toList)
      = (toString n).toList ++ (' ' :: ", ".toList ++ (toString m).toList) := by
    simp [Text.join, List.intercalate_cons_cons]
  have hmark : " , ".toList = ' ' :: ", ".toList := rfl
  simp only [argumentsText, hjoin, hmark, Text.replaceAll_append (space_not_mem_toString n),
    Text.replaceAll_of_not_mem (space_not_mem_toString m)]
  simp

theorem columnType?_word (table : String) {w : String} (hw : ' ' ∉ w.toList) {rest s : Input}
    (h : Begins [.word w] rest s) (hrest : IsFollower rest.current) :
    columnType? table s = .ok (some (w, rest)) := by
  obtain ⟨l, rfl, hl⟩ := begins_singleton.1 h
  have htext := typeText_word hw hrest.ne_dot (typeWords_of_current hrest.ne_continuation)
    (typeArguments_of_current table hrest.ne_leftParen) hrest
  simp only [columnType?, hl, Token.name?, htext]
  simp [Except.map]

theorem columnType?_sized (table : String) {w : String} (hw : ' ' ∉ w.toList) {ts : List Token}
    (hts : ∀ t ∈ ts, IsArgument t) {rest s : Input}
    (h : Begins (.word w :: .leftParen :: (ts ++ [.rightParen])) rest s)
    (hrest : IsFollower rest.current) :
    columnType? table s
      = .ok (some (String.ofList (w.toList ++ argumentsText (ts.map argumentText)), rest)) := by
  obtain ⟨l, after, rfl, hl, hopen⟩ := begins_cons.1 h
  obtain ⟨l', inside, rfl, hl', hinside⟩ := begins_cons.1 hopen
  have harguments : typeArguments table (l' :: inside)
      = .ok (argumentsText (ts.map argumentText), rest) := by
    rw [typeArguments]
    simp only [if_pos hl', groupTexts_begins table hts hinside]
    rfl
  have hcurrent : Input.current (l' :: inside) = .leftParen := hl'
  have hwords : typeWords (l' :: inside) = ([], l' :: inside) :=
    typeWords_of_current (by simp [hcurrent])
  have htext := typeText_word hw (by simp [hcurrent]) hwords harguments hrest
  simp only [columnType?, hl, Token.name?, htext]
  rfl

theorem name_varchar (size : Nat) : (WrittenType.varchar size).name
    = String.ofList (TypeName.sized "varchar".toList (toString size).toList) := by
  apply String.toList_inj.1
  simp [WrittenType.name, TypeName.sized]

theorem name_decimal (precision scale : Nat) : (WrittenType.decimal precision scale).name
    = String.ofList (TypeName.sized "decimal".toList
        ((toString precision).toList ++ ',' :: (toString scale).toList)) := by
  apply String.toList_inj.1
  simp [WrittenType.name, TypeName.sized]

/-- **A written type is read as its canonical name.** -/
theorem columnType?_begins (table : String) (t : WrittenType) {rest s : Input}
    (h : Begins t.tokens rest s) (hrest : IsFollower rest.current) :
    columnType? table s = .ok (some (t.name, rest)) := by
  cases t with
  | integer => exact columnType?_word table (by decide) h hrest
  | text => exact columnType?_word table (by decide) h hrest
  | varchar size =>
    have harguments : ∀ t ∈ [Token.number (toString size)], IsArgument t := by simp [IsArgument]
    have hread := columnType?_sized table (by decide) harguments h hrest
    have htext : [Token.number (toString size)].map argumentText = [toString size] := rfl
    rw [hread, htext, argumentsText_one, name_varchar]
    rfl
  | decimal precision scale =>
    have harguments : ∀ t ∈ [Token.number (toString precision), .comma, .number (toString scale)],
        IsArgument t := by simp [IsArgument]
    have hread := columnType?_sized table (by decide) harguments h hrest
    have htexts : [Token.number (toString precision), .comma, .number (toString scale)].map
        argumentText = [toString precision, ",", toString scale] := rfl
    rw [hread, htexts, argumentsText_two, name_decimal]
    rfl

/-- The name that is read is canonical already, in every dialect. -/
theorem canonical_name (dialect : Dialect) (t : WrittenType) :
    TypeName.canonical dialect t.name = t.name := by
  cases t with
  | integer => exact TypeName.canonical_word (by decide) dialect
  | text => exact TypeName.canonical_word (by decide) dialect
  | varchar size =>
    rw [name_varchar]
    exact TypeName.canonical_sized (by decide) (by decide) (TypeName.isPart_toString size) dialect
  | decimal precision scale =>
    have harguments : ((toString precision).toList ++ ',' :: (toString scale).toList).all
        TypeName.isPart = true := by
      rw [List.all_append, List.all_cons, TypeName.isPart_toString, TypeName.isPart_toString]
      decide
    rw [name_decimal]
    exact TypeName.canonical_sized (by decide) (by decide) harguments dialect

/-! ### Options -/

/-- What an option is read as. -/
def WrittenOption.reading : WrittenOption → ColumnOption
  | primaryKey => .primaryKey
  | notNull => .notNull
  | unique => .unique
  | autoIncrement => .increment
  | default _ => .other
  | references target column => .reference target [column]

/-- A reference to listed columns, from behind `REFERENCES`. -/
theorem reference_begins (table : String) {target : String} {columns : List String} {rest s : Input}
    (h : Begins (.quoted target :: listTokens columns) rest s) :
    reference table s = .ok ((target, columns), rest) := by
  obtain ⟨l, after, rfl, hl, hlist⟩ := begins_cons.1 h
  have hopen : Input.current after = .leftParen := hlist.current
  have hname : qualifiedName? (l :: after) = some (target, after) :=
    qualifiedName?_quoted hl (by simp [hopen])
  rw [reference, hname]
  simp only [startsWith_of_current hopen, if_pos, columnList_begins table hlist]
  rfl

theorem skipDefault_literal (table : String) {value : String} {l : Lexeme}
    (hl : l.token = .literal value) {rest : Input} (hrest : rest.current ≠ .symbol ':') :
    skipDefault table (l :: rest) = .ok rest := by
  rw [skipDefault]
  simp only [hl]
  exact skipCasts_of_current table hrest

namespace WrittenOption

/-- The token that an option begins with. -/
def first : WrittenOption → Token
  | primaryKey => .keyword .primary
  | notNull => .keyword .not
  | unique => .keyword .unique
  | autoIncrement => .word "AUTO_INCREMENT"
  | default _ => .keyword .default
  | references _ _ => .keyword .references

/-- The tokens behind the first. -/
def more : WrittenOption → List Token
  | primaryKey => [.keyword .key]
  | notNull => [.keyword .null]
  | unique => []
  | autoIncrement => []
  | default value => [.literal value]
  | references target column => .quoted target :: listTokens [column]

theorem tokens_eq (o : WrittenOption) : o.tokens = o.first :: o.more := by
  cases o <;> rfl

theorem isFollower_first (o : WrittenOption) : IsFollower o.first := by
  cases o with
  | autoIncrement => exact isFollower_autoIncrement
  | _ => constructor <;> simp [first]

theorem isArgument_first (o : WrittenOption) : IsArgument o.first := by
  cases o <;> simp [first, IsArgument]

theorem first_ne_comma (o : WrittenOption) : o.first ≠ .comma := by
  cases o <;> simp [first]

end WrittenOption

/-- **A written option is read as what it says**, up to the token behind it. -/
theorem columnOption_begins (table : String) (o : WrittenOption) {rest s : Input}
    (h : Begins o.more rest s) (hrest : IsFollower rest.current) :
    columnOption table o.first s = .ok (o.reading, rest) := by
  cases o with
  | primaryKey =>
    obtain ⟨l, rfl, hl⟩ := begins_singleton.1 h
    rw [WrittenOption.first, columnOption, eat_cons hl]
    rfl
  | notNull =>
    obtain ⟨l, rfl, hl⟩ := begins_singleton.1 h
    have hnull : Input.startsWith (.keyword .null) (l :: rest) = true := startsWith_of_current hl
    rw [WrittenOption.first, columnOption, if_pos hnull]
    rfl
  | unique =>
    obtain rfl := begins_nil.1 h
    rw [WrittenOption.first, columnOption, eat_of_current hrest.ne_key]
    rfl
  | autoIncrement =>
    obtain rfl := begins_nil.1 h
    rfl
  | default value =>
    obtain ⟨l, rfl, hl⟩ := begins_singleton.1 h
    rw [WrittenOption.first, columnOption, skipDefault_literal table hl hrest.ne_colon]
    rfl
  | references target column =>
    rw [WrittenOption.first, columnOption, reference_begins table h]
    simp only [Except.map, skipActions_of_current hrest.ne_on]
    rfl

theorem columnOptions_separator (table : String) {s : Input} (h : IsSeparator s.current) :
    columnOptions table s = .ok ([], s) := by
  cases s with
  | nil => rcases h with h | h <;> simp [Input.current] at h
  | cons l rest => rcases h with h | h <;> rw [columnOptions.eq_def] <;> simp_all [Input.current]

theorem columnOptions_of_ok {table : String} {l : Lexeme} {after rest : Input} {o : ColumnOption}
    (hend : ¬IsSeparator l.token) (hsemicolon : l.token ≠ .semicolon) (hfinish : l.token ≠ .finish)
    (ho : columnOption table l.token after = .ok (o, rest)) :
    columnOptions table (l :: after)
      = (columnOptions table rest).map fun (options, left) => (o :: options, left) := by
  rw [columnOptions.eq_def]
  simp only
  split
  · exact absurd (.inl ‹_›) hend
  · exact absurd (.inr ‹_›) hend
  · contradiction
  · contradiction
  · split
    · rename_i herror
      rw [ho] at herror
      contradiction
    · rename_i hok
      obtain ⟨rfl, rfl⟩ : _ = o ∧ _ = rest := by simpa [ho] using hok.symm
      rfl

theorem columnOptions_option {table : String} {l : Lexeme} {after rest : Input} {o : ColumnOption}
    (hargument : IsArgument l.token) (hcomma : l.token ≠ .comma)
    (ho : columnOption table l.token after = .ok (o, rest)) :
    columnOptions table (l :: after)
      = (columnOptions table rest).map fun (options, left) => (o :: options, left) := by
  simp only [IsArgument, List.mem_cons, not_or] at hargument
  obtain ⟨hopen, hclose, hsemicolon, hfinish, -⟩ := hargument
  exact columnOptions_of_ok (fun h => h.elim hcomma hclose) hsemicolon hfinish ho

/-- Lexemes of these tokens are read as this option, if what stands behind them does not go on with
it. -/
def ReadsOption (table : String) (ts : List Token) (o : ColumnOption) : Prop :=
  ∀ rest s, Begins ts rest s → IsFollower rest.current →
    ∃ l after, s = l :: after ∧ IsFollower l.token ∧ IsArgument l.token ∧ l.token ≠ .comma ∧
      columnOption table l.token after = .ok (o, rest)

/-- An option begins with its first token. -/
theorem readsOption_cons {table : String} {t : Token} (hfollower : IsFollower t)
    (hargument : IsArgument t) (hcomma : t ≠ .comma) {ts : List Token} {o : ColumnOption}
    (h : ∀ rest s, Begins ts rest s → IsFollower rest.current →
      columnOption table t s = .ok (o, rest)) : ReadsOption table (t :: ts) o := by
  intro rest s hs hrest
  obtain ⟨l, after, rfl, rfl, hmore⟩ := begins_cons.1 hs
  exact ⟨l, after, rfl, hfollower, hargument, hcomma, h rest after hmore hrest⟩

theorem readsOption_written (table : String) (o : WrittenOption) :
    ReadsOption table o.tokens o.reading := by
  rw [o.tokens_eq]
  exact readsOption_cons o.isFollower_first o.isArgument_first o.first_ne_comma
    fun _ _ => columnOption_begins table o

section Readings

variable {α : Type} {tokens : α → List Token} {reading : α → ColumnOption}

/-- **Options are read one after another**, up to the separator behind them. -/
theorem columnOptions_readings (table : String) {os : List α}
    (h : ∀ o ∈ os, ReadsOption table (tokens o) (reading o)) {rest s : Input}
    (hs : Begins (os.flatMap tokens) rest s) (hrest : IsSeparator rest.current) :
    IsFollower s.current ∧ columnOptions table s = .ok (os.map reading, rest) := by
  induction os generalizing s with
  | nil =>
    obtain rfl := begins_nil.1 hs
    exact ⟨hrest.isFollower, columnOptions_separator table hrest⟩
  | cons o os ih =>
    rw [List.flatMap_cons] at hs
    obtain ⟨middle, ho, hos⟩ := begins_append.1 hs
    obtain ⟨hfollower, hread⟩ := ih (fun q hq => h q (List.mem_cons_of_mem _ hq)) hos
    obtain ⟨l, after, rfl, hl, hargument, hcomma, hoption⟩ :=
      h o List.mem_cons_self _ _ ho hfollower
    refine ⟨hl, ?_⟩
    rw [columnOptions_option hargument hcomma hoption, hread]
    rfl

/-! ### The column -/

/-- **A column is read as its type and its options say.** -/
theorem column_readings (dialect : Dialect) (table name : String) (t : WrittenType) {os : List α}
    (h : ∀ o ∈ os, ReadsOption table (tokens o) (reading o)) {rest s : Input}
    (hs : Begins (t.tokens ++ os.flatMap tokens) rest s) (hrest : IsSeparator rest.current) :
    column dialect table name s
      = .ok ((⟨name, t.name, modifiersOf (os.map reading)⟩,
          referencesOf table name (os.map reading)), rest) := by
  obtain ⟨middle, ht, hos⟩ := begins_append.1 hs
  obtain ⟨hfollower, hoptions⟩ := columnOptions_readings table h hos hrest
  rw [column, columnType?_begins table t ht hfollower]
  simp only [hoptions, Except.map, canonical_name]

end Readings

/-- **A written column is read as declared.** -/
theorem column_begins (dialect : Dialect) (table name : String) (t : WrittenType)
    {os : List WrittenOption} {rest s : Input}
    (h : Begins (t.tokens ++ os.flatMap WrittenOption.tokens) rest s)
    (hrest : IsSeparator rest.current) :
    column dialect table name s
      = .ok ((⟨name, t.name, modifiersOf (os.map WrittenOption.reading)⟩,
          referencesOf table name (os.map WrittenOption.reading)), rest) :=
  column_readings dialect table name t (fun o _ => readsOption_written table o) h hrest

end SchemaAudit.Ddl
