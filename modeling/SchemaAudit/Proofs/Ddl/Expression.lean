import SchemaAudit.Proofs.Ddl.Script

/-!
# Expressions in parentheses are passed over

An expression in parentheses says nothing that the schema holds, whatever tokens stand in it: commas,
groups and the keywords that mean something between the options of a column.

* `IsExpression`: balanced parentheses, and no end of a statement.
* `closeGroup_balanced`: balanced tokens leave the depth at which groups are closed as it is. This is
  the only induction on tokens; what is skipped between elements is reduced to it by
  `skipElement_succ`.
* `readsOption_plain`, `readsOption_enclosure`: the options that may stand in a column, and the three
  that hold an expression, are read up to the token behind them.
* `expression_passed_over`: a column is the same without the expression, and a check beside the
  columns declares nothing.
-/

namespace SchemaAudit.Ddl

open Input

/-! ### Expressions -/

/-- Each closing parenthesis closes one that is open, and in the end none is open. -/
structure IsBalanced (ts : List Token) : Prop where
  count_le : ∀ n ≤ ts.length, (ts.take n).count .rightParen ≤ (ts.take n).count .leftParen
  count_eq : ts.count .rightParen = ts.count .leftParen

/-- Balanced tokens in which no statement ends. -/
structure IsExpression (ts : List Token) : Prop where
  balanced : IsBalanced ts
  no_semicolon : Token.semicolon ∉ ts
  no_finish : Token.finish ∉ ts

instance (ts : List Token) : Decidable (IsBalanced ts) :=
  decidable_of_iff ((∀ n ≤ ts.length, (ts.take n).count .rightParen ≤ (ts.take n).count .leftParen)
      ∧ ts.count .rightParen = ts.count .leftParen)
    ⟨fun h => ⟨h.1, h.2⟩, fun h => ⟨h.1, h.2⟩⟩

instance (ts : List Token) : Decidable (IsExpression ts) :=
  decidable_of_iff (IsBalanced ts ∧ Token.semicolon ∉ ts ∧ Token.finish ∉ ts)
    ⟨fun h => ⟨h.1, h.2.1, h.2.2⟩, fun h => ⟨h.1, h.2, h.3⟩⟩

/-- The expression in parentheses. -/
def enclosed (e : List Token) : List Token := .leftParen :: (e ++ [.rightParen])

/-! ### Groups are closed -/

/-- One token opens a group, closes one, or leaves them as they are. -/
theorem closeGroup_cons (table : String) {l : Lexeme} (hsemicolon : l.token ≠ .semicolon)
    (hfinish : l.token ≠ .finish) {before after : Nat}
    (h : after + [l.token].count .rightParen = before + [l.token].count .leftParen)
    (rest : Input) : closeGroup table before (l :: rest) = closeGroup table after rest := by
  rw [closeGroup.eq_def]
  simp only
  split
  · rename_i hopen
    have hafter : after = before + 1 := by simpa [hopen] using h
    rw [hafter]
  · rename_i hclose
    have hbefore : after + 1 = before := by simpa [hclose] using h
    subst hbefore
    rfl
  · contradiction
  · contradiction
  · rename_i hopen hclose _ _
    have hafter : after = before := by
      have hnone : ∀ u : Token, l.token ≠ u → [l.token].count u = 0 := by
        intro u hu
        exact List.count_eq_zero.2 fun hm => hu (List.mem_singleton.1 hm).symm
      rwa [hnone _ hclose, hnone _ hopen] at h
    rw [hafter]

/-- **Tokens that close no more groups than are open change the depth by what they open and
close.** -/
theorem closeGroup_begins (table : String) {ts : List Token} (hsemicolon : Token.semicolon ∉ ts)
    (hfinish : Token.finish ∉ ts) {before after : Nat}
    (hcount : ∀ n ≤ ts.length,
      (ts.take n).count .rightParen ≤ before + (ts.take n).count .leftParen)
    (hafter : after + ts.count .rightParen = before + ts.count .leftParen) {rest s : Input}
    (h : Begins ts rest s) : closeGroup table before s = closeGroup table after rest := by
  induction ts generalizing before s with
  | nil =>
    obtain rfl := begins_nil.1 h
    have heq : after = before := hafter
    rw [heq]
  | cons t ts ih =>
    obtain ⟨l, left, rfl, rfl, htail⟩ := begins_cons.1 h
    have hcons : ∀ (u : Token) (us : List Token),
        (l.token :: us).count u = [l.token].count u + us.count u := by
      intro u us
      rw [← List.singleton_append, List.count_append]
    -- the depth behind the first token, which is none below zero
    have hfirst := hcount 1 (Nat.succ_le_succ (Nat.zero_le _))
    obtain ⟨middle, hmiddle⟩ : ∃ middle,
        middle + [l.token].count .rightParen = before + [l.token].count .leftParen :=
      ⟨_, Nat.sub_add_cancel hfirst⟩
    rw [closeGroup_cons table (fun hl => hsemicolon (hl ▸ List.mem_cons_self))
      (fun hl => hfinish (hl ▸ List.mem_cons_self)) hmiddle]
    apply ih (fun hm => hsemicolon (List.mem_cons_of_mem _ hm))
      (fun hm => hfinish (List.mem_cons_of_mem _ hm)) _ _ htail
    · intro n hn
      have hnext := hcount (n + 1) (Nat.succ_le_succ hn)
      rw [List.take_succ_cons, hcons _ (ts.take n), hcons _ (ts.take n)] at hnext
      omega
    · rw [hcons _ ts, hcons _ ts] at hafter
      omega

theorem closeGroup_balanced (table : String) {e : List Token} (he : IsExpression e) (depth : Nat)
    {rest s : Input} (h : Begins e rest s) :
    closeGroup table depth s = closeGroup table depth rest := by
  apply closeGroup_begins table he.no_semicolon he.no_finish _ _ h
  · intro n hn
    have := he.balanced.count_le n hn
    omega
  · rw [he.balanced.count_eq]

/-- **A group that holds an expression is closed behind it.** -/
theorem closeGroup_enclosed (table : String) {e : List Token} (he : IsExpression e)
    {rest s : Input} (h : Begins (e ++ [.rightParen]) rest s) : closeGroup table 0 s = .ok rest := by
  obtain ⟨middle, hbegins, hclose⟩ := begins_append.1 h
  obtain ⟨l, rfl, hl⟩ := begins_singleton.1 hclose
  rw [closeGroup_balanced table he 0 hbegins, closeGroup.eq_def]
  simp only [hl]

theorem skipGroup_enclosed (table : String) {e : List Token} (he : IsExpression e)
    {rest s : Input} (h : Begins (enclosed e) rest s) : skipGroup table s = .ok rest := by
  obtain ⟨l, inside, rfl, hl, hinside⟩ := begins_cons.1 h
  rw [skipGroup, if_pos hl]
  exact closeGroup_enclosed table he hinside

theorem skipOptionalGroup_enclosed (table : String) {e : List Token} (he : IsExpression e)
    {rest s : Input} (h : Begins (enclosed e) rest s) : skipOptionalGroup table s = .ok rest := by
  rw [skipOptionalGroup, if_pos (startsWith_of_current h.current)]
  exact skipGroup_enclosed table he h

theorem skipDefault_enclosed (table : String) {e : List Token} (he : IsExpression e)
    {rest s : Input} (h : Begins (enclosed e) rest s) (hrest : rest.current ≠ .symbol ':') :
    skipDefault table s = .ok rest := by
  obtain ⟨l, inside, rfl, hl, hinside⟩ := begins_cons.1 h
  rw [skipDefault]
  simp only [hl, closeGroup_enclosed table he hinside]
  exact skipCasts_of_current table hrest

/-- What is skipped inside of groups is skipped up to where the outermost of them is closed. -/
theorem skipElement_succ (table : String) (depth : Nat) (s : Input) :
    skipElement table (depth + 1) s
      = (closeGroup table depth s).bind fun left => skipElement table 0 left := by
  fun_induction closeGroup table depth s with
  | case7 depth l rest _ _ _ _ ih =>
    rw [skipElement.eq_def]
    simp only
    split <;> simp_all
  | _ =>
    rw [skipElement.eq_def]
    simp_all [Except.bind]

theorem skipElement_enclosed (table : String) {e : List Token} (he : IsExpression e)
    {rest s : Input} (h : Begins (enclosed e) rest s) :
    skipElement table 0 s = skipElement table 0 rest := by
  obtain ⟨l, inside, rfl, hl, hinside⟩ := begins_cons.1 h
  rw [skipElement.eq_def]
  simp only [hl, skipElement_succ, closeGroup_enclosed table he hinside]
  rfl

/-! ### Options -/

/-- An option that begins with a keyword. -/
theorem readsOption_keyword {table : String} {k : Keyword} (hon : k ≠ .on) (hkey : k ≠ .key)
    {ts : List Token} {o : ColumnOption}
    (h : ∀ rest s, Begins ts rest s → IsFollower rest.current →
      columnOption table (.keyword k) s = .ok (o, rest)) :
    ReadsOption table (.keyword k :: ts) o := by
  refine readsOption_cons ?_ (by simp [IsArgument]) (by simp) h
  constructor <;> simp [hon, hkey]

/-- A name as it is written. -/
inductive WrittenName where
  | bare (text : String)
  | quoted (text : String)
  deriving DecidableEq, Repr

namespace WrittenName

def token : WrittenName → Token
  | bare text => .word text
  | quoted text => .quoted text

def text : WrittenName → String
  | bare text | quoted text => text

theorem name?_token (n : WrittenName) : n.token.name? = some n.text := by
  cases n <;> rfl

end WrittenName

/-- An option between which the expressions stand. -/
inductive PlainOption where
  | primaryKey
  | notNull
  | unique
  | autoIncrement
  | references (target column : WrittenName)
  deriving DecidableEq, Repr

namespace PlainOption

def tokens : PlainOption → List Token
  | primaryKey => [.keyword .primary, .keyword .key]
  | notNull => [.keyword .not, .keyword .null]
  | unique => [.keyword .unique]
  | autoIncrement => [.word "AUTO_INCREMENT"]
  | references target column =>
    [.keyword .references, target.token, .leftParen, column.token, .rightParen]

def reading : PlainOption → ColumnOption
  | primaryKey => .primaryKey
  | notNull => .notNull
  | unique => .unique
  | autoIncrement => .increment
  | references target column => .reference target.text [column.text]

end PlainOption

theorem columnList_one (table : String) (n : WrittenName) {rest s : Input}
    (h : Begins [.leftParen, n.token, .rightParen] rest s) :
    columnList table s = .ok ([n.text], rest) := by
  obtain ⟨l, after, rfl, hl, h⟩ := begins_cons.1 h
  obtain ⟨l', after, rfl, hl', h⟩ := begins_cons.1 h
  obtain ⟨l'', rfl, hl''⟩ := begins_singleton.1 h
  have hskip : skipListName (l :: l' :: l'' :: rest) = l :: l' :: l'' :: rest := by
    rw [skipListName.eq_def]
    simp [hl]
  have hname : l'.token.name? = some n.text := by rw [hl', n.name?_token]
  rw [columnList, hskip]
  simp only [if_pos hl, columnNames_name hname, columnNames_close table false hl'']
  rfl

theorem reference_one (table : String) (target column : WrittenName) {rest s : Input}
    (h : Begins [target.token, .leftParen, column.token, .rightParen] rest s) :
    reference table s = .ok ((target.text, [column.text]), rest) := by
  obtain ⟨l, after, rfl, hl, hlist⟩ := begins_cons.1 h
  have hopen : Input.current after = .leftParen := hlist.current
  have hname : qualifiedName? (l :: after) = some (target.text, after) :=
    qualifiedName?_one (by rw [hl, target.name?_token]) (by simp [hopen])
  rw [reference, hname]
  simp only [startsWith_of_current hopen, if_pos, columnList_one table column hlist]
  rfl

theorem readsOption_plain (table : String) (o : PlainOption) :
    ReadsOption table o.tokens o.reading := by
  cases o with
  | primaryKey => exact readsOption_written table .primaryKey
  | notNull => exact readsOption_written table .notNull
  | unique => exact readsOption_written table .unique
  | autoIncrement => exact readsOption_written table .autoIncrement
  | references target column =>
    apply readsOption_keyword (by decide) (by decide)
    intro rest s hs hrest
    rw [columnOption, reference_one table target column hs]
    simp only [Except.map, skipActions_of_current hrest.ne_on]
    rfl

/-! ### Options that hold an expression -/

inductive Enclosure where
  | check
  | default
  | generated
  deriving DecidableEq, Repr

namespace Enclosure

/-- The words in front of the parentheses. -/
def words : Enclosure → List Token
  | check => [.keyword .check]
  | default => [.keyword .default]
  | generated => [.word "GENERATED", .word "ALWAYS", .word "AS"]

def tokens (x : Enclosure) (e : List Token) : List Token := x.words ++ enclosed e

end Enclosure

theorem isFollower_generated : IsFollower (.word "GENERATED") := by
  refine ⟨by simp, by simp, by simp, ?_, by simp, by simp, by simp⟩
  intro w hw
  obtain rfl := Token.word.inj hw
  decide

theorem generated_enclosed (table : String) {e : List Token} (he : IsExpression e) {rest s : Input}
    (h : Begins (.word "ALWAYS" :: .word "AS" :: enclosed e) rest s) :
    generated table s = .ok (.other, rest) := by
  obtain ⟨l, after, rfl, hl, h⟩ := begins_cons.1 h
  obtain ⟨l', after, rfl, hl', h⟩ := begins_cons.1 h
  have halways : Input.startsWithWord "ALWAYS" (l :: l' :: after) = true := by
    rw [startsWithWord, Input.current, hl]
    decide
  have hskip : Input.eatWord "ALWAYS" (l :: l' :: after) = l' :: after := if_pos halways
  have has : Input.eatWord "AS" (l' :: after) = after := by
    rw [eatWord, if_pos]
    rw [hl']
    decide
  have hidentity : Input.startsWithWord "IDENTITY" after = false := by
    rw [startsWithWord, h.current]
    rfl
  rw [generated]
  simp only [halways, if_pos, hskip, has, hidentity, skipOptionalGroup_enclosed table he h]
  rfl

/-- **An option that holds an expression says nothing that the schema holds**, and is read up to the
token behind it. -/
theorem readsOption_enclosure (table : String) {e : List Token} (he : IsExpression e)
    (x : Enclosure) : ReadsOption table (x.tokens e) .other := by
  cases x with
  | check =>
    apply readsOption_keyword (by decide) (by decide)
    intro rest s hs hrest
    rw [columnOption, skipGroup_enclosed table he hs]
    rfl
  | default =>
    apply readsOption_keyword (by decide) (by decide)
    intro rest s hs hrest
    rw [columnOption, skipDefault_enclosed table he hs hrest.ne_colon]
    rfl
  | generated =>
    apply readsOption_cons isFollower_generated (by simp [IsArgument]) (by simp)
    intro rest s hs hrest
    exact generated_enclosed table he hs

/-! ### Columns and checks -/

/-- The tokens of a column behind its name. -/
def plainTokens (t : WrittenType) (os : List PlainOption) : List Token :=
  t.tokens ++ os.flatMap PlainOption.tokens

/-- The column that they declare, with its foreign keys. -/
def plainColumn (table name : String) (t : WrittenType) (os : List PlainOption) :
    Column × List ForeignKey :=
  (⟨name, t.name, modifiersOf (os.map PlainOption.reading)⟩,
    referencesOf table name (os.map PlainOption.reading))

theorem modifiersOf_other (os₁ os₂ : List ColumnOption) :
    modifiersOf (os₁ ++ .other :: os₂) = modifiersOf (os₁ ++ os₂) := by
  have hnone : ColumnOption.modifier? .other = none := rfl
  simp [modifiersOf, List.filterMap_cons_none hnone]

theorem referencesOf_other (table name : String) (os₁ os₂ : List ColumnOption) :
    referencesOf table name (os₁ ++ .other :: os₂) = referencesOf table name (os₁ ++ os₂) := by
  simp [referencesOf]

theorem column_plain (dialect : Dialect) (table name : String) (t : WrittenType)
    (os : List PlainOption) {rest s : Input} (hs : Begins (plainTokens t os) rest s)
    (hrest : IsSeparator rest.current) :
    column dialect table name s = .ok (plainColumn table name t os, rest) :=
  column_readings dialect table name t (fun o _ => readsOption_plain table o) hs hrest

/-- The tokens of an option of either kind. -/
def eitherTokens (e : List Token) : Enclosure ⊕ PlainOption → List Token
  | .inl x => x.tokens e
  | .inr o => o.tokens

def eitherReading : Enclosure ⊕ PlainOption → ColumnOption
  | .inl _ => .other
  | .inr o => o.reading

theorem readsOption_either (table : String) {e : List Token} (he : IsExpression e)
    (o : Enclosure ⊕ PlainOption) : ReadsOption table (eitherTokens e o) (eitherReading o) := by
  cases o with
  | inl x => exact readsOption_enclosure table he x
  | inr o => exact readsOption_plain table o

theorem flatMap_eitherTokens (e : List Token) (os : List PlainOption) :
    (os.map Sum.inr).flatMap (eitherTokens e) = os.flatMap PlainOption.tokens := by
  rw [List.flatMap_map]
  rfl

theorem map_eitherReading (os : List PlainOption) :
    (os.map Sum.inr).map eitherReading = os.map PlainOption.reading := by
  rw [List.map_map]
  rfl

/-- **The column is the same with an expression between its options.** -/
theorem column_enclosure (dialect : Dialect) (table name : String) {e : List Token}
    (he : IsExpression e) (x : Enclosure) (t : WrittenType) (os₁ os₂ : List PlainOption)
    {rest s : Input}
    (hs : Begins (plainTokens t os₁ ++ (x.tokens e ++ os₂.flatMap PlainOption.tokens)) rest s)
    (hrest : IsSeparator rest.current) :
    column dialect table name s = .ok (plainColumn table name t (os₁ ++ os₂), rest) := by
  have htokens : plainTokens t os₁ ++ (x.tokens e ++ os₂.flatMap PlainOption.tokens)
      = t.tokens
        ++ (os₁.map Sum.inr ++ Sum.inl x :: os₂.map Sum.inr).flatMap (eitherTokens e) := by
    rw [List.flatMap_append, List.flatMap_cons, flatMap_eitherTokens, flatMap_eitherTokens,
      plainTokens, List.append_assoc]
    rfl
  rw [htokens] at hs
  rw [column_readings dialect table name t (fun o _ => readsOption_either table he o) hs hrest,
    List.map_append, List.map_cons, map_eitherReading, map_eitherReading]
  simp only [eitherReading, modifiersOf_other, referencesOf_other, ← List.map_append]
  rfl

/-- A check beside the columns is passed over up to the separator behind it. -/
theorem readsAs_check (dialect : Dialect) (table : String) {e : List Token} (he : IsExpression e) :
    ReadsAs dialect table (.keyword .check :: enclosed e) .other := by
  intro rest s hs hrest
  obtain ⟨l, after, rfl, hl, hgroup⟩ := begins_cons.1 hs
  refine ⟨l, after, rfl, by simp [hl, StartsElement], ?_⟩
  simp only [element, hl, skipElement_enclosed table he hgroup,
    skipElement_of_separator table hrest]
  rfl

theorem ofElements_other (table : String) (es₁ es₂ : List Element) :
    Entity.ofElements table (es₁ ++ .other :: es₂) = Entity.ofElements table (es₁ ++ es₂) := by
  have hcolumn : Element.column? .other = none := rfl
  have hkey : Element.key? .other = none := rfl
  simp [Entity.ofElements, List.filterMap_cons_none hcolumn, List.filterMap_cons_none hkey]

/-- **An expression in parentheses is passed over, whatever stands in it.** A column is the same
with it and without it, and both are read up to the separator behind them. A check beside the columns
is read up to its separator too, and declares nothing. -/
theorem expression_passed_over {e : List Token} (he : IsExpression e) (dialect : Dialect)
    (table : String) :
    (∀ (name : String) (t : WrittenType) (x : Enclosure) (os₁ os₂ : List PlainOption)
        (rest s rest' s' : Input), IsSeparator rest.current → IsSeparator rest'.current →
        Begins (plainTokens t os₁ ++ (x.tokens e ++ os₂.flatMap PlainOption.tokens)) rest s →
        Begins (plainTokens t (os₁ ++ os₂)) rest' s' →
        column dialect table name s = .ok (plainColumn table name t (os₁ ++ os₂), rest) ∧
          column dialect table name s' = .ok (plainColumn table name t (os₁ ++ os₂), rest')) ∧
      ReadsAs dialect table (.keyword .check :: enclosed e) .other ∧
      ∀ es₁ es₂ : List Element,
        Entity.ofElements table (es₁ ++ .other :: es₂) = Entity.ofElements table (es₁ ++ es₂) ∧
          (es₁ ++ .other :: es₂).flatMap Element.references
            = (es₁ ++ es₂).flatMap Element.references := by
  refine ⟨?_, readsAs_check dialect table he, ?_⟩
  · intro name t x os₁ os₂ rest s rest' s' hrest hrest' hs hs'
    exact ⟨column_enclosure dialect table name he x t os₁ os₂ hs hrest,
      column_plain dialect table name t (os₁ ++ os₂) hs' hrest'⟩
  · intro es₁ es₂
    refine ⟨ofElements_other table es₁ es₂, ?_⟩
    rw [List.flatMap_append, List.flatMap_cons, List.flatMap_append]
    rfl

/-- An expression with a comma, a group, and the words of three options. -/
def sampleExpression : List Token :=
  [.word "a", .comma, .leftParen, .keyword .not, .keyword .null, .rightParen, .keyword .unique,
   .keyword .references, .quoted "b", .leftParen, .leftParen, .rightParen, .rightParen]

/-- Lexemes of the tokens, all at the same place. -/
def lexemesOf (ts : List Token) : Input := ts.map fun t => ⟨t, 0⟩

theorem begins_lexemesOf (ts us : List Token) :
    Begins ts (lexemesOf us) (lexemesOf (ts ++ us)) := by
  refine ⟨lexemesOf ts, ?_, List.map_append⟩
  simp [lexemesOf, Function.comp_def]

theorem expression_passed_over_sample :
    IsExpression sampleExpression ∧
      column .mySql "t" "n" (lexemesOf (.word "integer" :: .keyword .not :: .keyword .null
          :: .keyword .default :: (enclosed sampleExpression ++ [.keyword .unique, .comma])))
        = .ok ((⟨"n", "integer", [.notNull, .unique]⟩, []), lexemesOf [.comma]) := by
  have he : IsExpression sampleExpression := by decide
  have hcolumn := (expression_passed_over he .mySql "t").1 "n" .integer .default [.notNull]
    [.unique] (lexemesOf [.comma]) _ (lexemesOf [.comma]) _ (.inl rfl) (.inl rfl)
    (begins_lexemesOf _ [.comma]) (begins_lexemesOf _ [.comma])
  exact ⟨he, hcolumn.1⟩

end SchemaAudit.Ddl
