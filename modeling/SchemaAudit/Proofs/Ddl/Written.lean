import SchemaAudit.Proofs.Ddl.Input
import SchemaAudit.Proofs.Text.Search
import SchemaAudit.Proofs.Token.Spelling
import SchemaAudit.Ddl.Script

/-!
# Written declarations

Tables as a canonical script declares them, the tokens of that script, and the schema that it
says. Names are any texts: they stand in double quotes.

* `WrittenTable.tokens`, `scriptTokens`: a table, and a list of tables, as tokens.
* `WrittenTable.entity`, `WrittenTable.foreignKeys`, `schemaOf`: what they declare.
* `writable_scriptTokens`: every token of a script has a spelling that is read back.
-/

namespace SchemaAudit.Ddl

/-! ### Types -/

inductive WrittenType where
  | integer
  | text
  | varchar (size : Nat)
  | decimal (precision scale : Nat)
  deriving DecidableEq, Repr

namespace WrittenType

def tokens : WrittenType → List Token
  | integer => [.word "integer"]
  | text => [.word "text"]
  | varchar size => [.word "varchar", .leftParen, .number (toString size), .rightParen]
  | decimal precision scale =>
    [.word "decimal", .leftParen, .number (toString precision), .comma,
     .number (toString scale), .rightParen]

/-- The canonical name of the type. -/
def name : WrittenType → String
  | integer => "integer"
  | text => "text"
  | varchar size => "varchar(" ++ toString size ++ ")"
  | decimal precision scale => "decimal(" ++ toString precision ++ "," ++ toString scale ++ ")"

end WrittenType

/-! ### Columns -/

inductive WrittenOption where
  | primaryKey
  | notNull
  | unique
  | autoIncrement
  /-- A default that is a string literal. -/
  | default (value : String)
  | references (target column : String)
  deriving DecidableEq, Repr

namespace WrittenOption

def tokens : WrittenOption → List Token
  | primaryKey => [.keyword .primary, .keyword .key]
  | notNull => [.keyword .not, .keyword .null]
  | unique => [.keyword .unique]
  | autoIncrement => [.word "AUTO_INCREMENT"]
  | default value => [.keyword .default, .literal value]
  | references target column => .keyword .references :: .quoted target :: listTokens [column]

/-- The modifier that the option gives in its place. -/
def modifier? : WrittenOption → Option Modifier
  | notNull => some .notNull
  | unique => some .unique
  | autoIncrement => some .increment
  | _ => none

/-- The foreign key of one column that the option declares. -/
def foreignKey? (table column : String) : WrittenOption → Option ForeignKey
  | references target targetColumn => some ⟨table, [column], target, [targetColumn]⟩
  | _ => none

end WrittenOption

structure WrittenColumn where
  name : String
  type : WrittenType
  options : List WrittenOption
  deriving DecidableEq, Repr

def WrittenColumn.tokens (c : WrittenColumn) : List Token :=
  .quoted c.name :: (c.type.tokens ++ c.options.flatMap WrittenOption.tokens)

/-! ### Keys beside the columns -/

inductive WrittenKey where
  | primary (columns : List String)
  | unique (columns : List String)
  | foreign (columns : List String) (target : String) (targetColumns : List String)
  deriving DecidableEq, Repr

namespace WrittenKey

def tokens : WrittenKey → List Token
  | primary columns => .keyword .primary :: .keyword .key :: listTokens columns
  | unique columns => .keyword .unique :: listTokens columns
  | foreign columns target targetColumns =>
    .keyword .foreign :: .keyword .key :: (listTokens columns
      ++ .keyword .references :: .quoted target :: listTokens targetColumns)

/-- The columns of a primary key, and none for another key. -/
def primaryColumns : WrittenKey → List String
  | primary columns => columns
  | _ => []

def key? : WrittenKey → Option Key
  | primary columns => some (.primary columns)
  | unique columns => some (.unique columns)
  | foreign _ _ _ => none

def foreignKey? (table : String) : WrittenKey → Option ForeignKey
  | foreign columns target targetColumns => some ⟨table, columns, target, targetColumns⟩
  | _ => none

end WrittenKey

/-! ### Tables -/

structure WrittenTable where
  name : String
  columns : List WrittenColumn
  keys : List WrittenKey
  deriving DecidableEq, Repr

namespace WrittenTable

/-- The tokens of each element of the table. -/
def elementTokens (t : WrittenTable) : List (List Token) :=
  t.columns.map WrittenColumn.tokens ++ t.keys.map WrittenKey.tokens

def tokens (t : WrittenTable) : List Token :=
  .keyword .create :: .keyword .table :: .quoted t.name :: .leftParen ::
    ([Token.comma].intercalate t.elementTokens ++ [.rightParen, .semicolon])

/-- Whether the column is a primary key by its own options or by a key beside the columns. -/
def isPrimary (t : WrittenTable) (c : WrittenColumn) : Bool :=
  c.options.contains .primaryKey || (t.keys.flatMap WrittenKey.primaryColumns).contains c.name

/-- The primary key first, and once, and then what the options give in their order. -/
def modifiers (t : WrittenTable) (c : WrittenColumn) : List Modifier :=
  (if t.isPrimary c then [.primaryKey] else []) ++ c.options.filterMap WrittenOption.modifier?

def column (t : WrittenTable) (c : WrittenColumn) : Column := ⟨c.name, c.type.name, t.modifiers c⟩

def entity (t : WrittenTable) : Entity :=
  ⟨t.name, t.columns.map t.column, t.keys.filterMap WrittenKey.key?⟩

/-- The foreign keys of the columns, and then those beside the columns. -/
def foreignKeys (t : WrittenTable) : List ForeignKey :=
  t.columns.flatMap (fun c => c.options.filterMap (WrittenOption.foreignKey? t.name c.name))
    ++ t.keys.filterMap (WrittenKey.foreignKey? t.name)

end WrittenTable

/-- The tokens of a script that declares the tables one after another. -/
def scriptTokens (ts : List WrittenTable) : List Token := ts.flatMap WrittenTable.tokens

/-- The text of that script. -/
def scriptOf (ts : List WrittenTable) : String := Token.write (scriptTokens ts)

/-- The schema that the tables declare. -/
def schemaOf (ts : List WrittenTable) : Schema :=
  ⟨ts.map WrittenTable.entity, ts.flatMap WrittenTable.foreignKeys⟩

/-! ### Every token can be written -/

theorem isNumberText_toString (n : Nat) : Token.isNumberText (toString n).toList = true :=
  Token.isNumberText_of_digits (Text.toList_toString_ne_nil n) fun _ hc =>
    Text.isDigit_of_mem_toString hc

theorem writable_listTokens (names : List String) : ∀ t ∈ listTokens names, t.Writable := by
  have hnames : ∀ t ∈ namesTokens names, t.Writable := by
    refine Text.forall_mem_intercalate (by simp) fun part hpart => ?_
    obtain ⟨name, -, rfl⟩ := List.mem_map.1 hpart
    simp
  intro t ht
  rcases List.mem_cons.1 ht with rfl | ht
  · simp
  · rcases List.mem_append.1 ht with ht | ht
    · exact hnames t ht
    · rw [List.mem_singleton.1 ht]
      simp

theorem writable_word {w : String}
    (h : Token.isWordText w.toList = true ∧ Keyword.ofWord? w.toList = none) :
    (Token.word w).Writable := h

theorem writable_type (t : WrittenType) : ∀ u ∈ t.tokens, u.Writable := by
  have hnumber : ∀ n : Nat, (Token.number (toString n)).Writable := isNumberText_toString
  cases t with
  | integer =>
    have hword : (Token.word "integer").Writable := writable_word (by decide)
    simpa [WrittenType.tokens] using hword
  | text =>
    have hword : (Token.word "text").Writable := writable_word (by decide)
    simpa [WrittenType.tokens] using hword
  | varchar size =>
    have hword : (Token.word "varchar").Writable := writable_word (by decide)
    simpa [WrittenType.tokens] using And.intro hword (hnumber size)
  | decimal precision scale =>
    have hword : (Token.word "decimal").Writable := writable_word (by decide)
    simpa [WrittenType.tokens] using And.intro hword ⟨hnumber precision, hnumber scale⟩

theorem writable_option (o : WrittenOption) : ∀ t ∈ o.tokens, t.Writable := by
  cases o with
  | autoIncrement =>
    have hword : (Token.word "AUTO_INCREMENT").Writable := writable_word (by decide)
    simpa [WrittenOption.tokens] using hword
  | references target column =>
    simpa [WrittenOption.tokens] using writable_listTokens [column]
  | _ => simp [WrittenOption.tokens]

theorem writable_column (c : WrittenColumn) : ∀ t ∈ c.tokens, t.Writable := by
  intro t ht
  rcases List.mem_cons.1 ht with rfl | ht
  · simp
  · rcases List.mem_append.1 ht with ht | ht
    · exact writable_type c.type t ht
    · obtain ⟨o, -, ht⟩ := List.mem_flatMap.1 ht
      exact writable_option o t ht

theorem writable_key (k : WrittenKey) : ∀ t ∈ k.tokens, t.Writable := by
  cases k with
  | primary columns => simpa [WrittenKey.tokens] using writable_listTokens columns
  | unique columns => simpa [WrittenKey.tokens] using writable_listTokens columns
  | foreign columns target targetColumns =>
    have hsource := writable_listTokens columns
    have htarget := writable_listTokens targetColumns
    simp only [WrittenKey.tokens, List.mem_cons, List.mem_append]
    rintro t (rfl | rfl | ht | rfl | rfl | ht)
    · simp
    · simp
    · exact hsource t ht
    · simp
    · simp
    · exact htarget t ht

theorem writable_table (t : WrittenTable) : ∀ u ∈ t.tokens, u.Writable := by
  have helements : ∀ u ∈ [Token.comma].intercalate t.elementTokens, u.Writable := by
    refine Text.forall_mem_intercalate (by simp) fun part hpart => ?_
    rcases List.mem_append.1 hpart with hpart | hpart
    · obtain ⟨c, -, rfl⟩ := List.mem_map.1 hpart
      exact writable_column c
    · obtain ⟨k, -, rfl⟩ := List.mem_map.1 hpart
      exact writable_key k
  intro u hu
  simp only [WrittenTable.tokens, List.mem_cons, List.mem_append, List.not_mem_nil, or_false] at hu
  rcases hu with rfl | rfl | rfl | rfl | hu | rfl | rfl
  · simp
  · simp
  · simp
  · simp
  · exact helements u hu
  · simp
  · simp

theorem writable_scriptTokens (ts : List WrittenTable) : ∀ t ∈ scriptTokens ts, t.Writable := by
  intro u hu
  obtain ⟨t, -, hu⟩ := List.mem_flatMap.1 hu
  exact writable_table t u hu

/-- **The tokens of a script are read back from its text.** -/
theorem map_token_scan_scriptOf (ts : List WrittenTable) :
    (Token.scan (scriptOf ts)).map Lexeme.token = scriptTokens ts ++ [.finish] :=
  Token.map_token_scan_write (writable_scriptTokens ts)

end SchemaAudit.Ddl
