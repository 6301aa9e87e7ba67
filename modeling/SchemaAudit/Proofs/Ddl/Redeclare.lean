import SchemaAudit.Proofs.Ddl.AlikeScript
import SchemaAudit.Proofs.Token.Piece

/-!
# Tables that are declared twice

A table may be declared again in the same script. Its entity takes the place of the earlier one. The
foreign keys of the earlier declaration stay, so that the schema says more than the last declaration.

* `declaration`, `IsTableName`, `IsTableBody`: the text of a declaration, with any name and any body
  that lies within its statement.
* `exists_declared`: what a table declares does not depend on what stands around its declaration.
* `read_redeclared`: what two declarations of one table give. The last one wins exactly if the
  earlier one has no foreign keys.
-/

namespace SchemaAudit.Ddl

open Input

/-! ### Texts of declarations -/

/-- The tokens of a table with its name and its body. -/
def declarationTokens (name body : List Token) : List Token :=
  .keyword .create :: .keyword .table ::
    (name ++ .leftParen :: (body ++ [.rightParen] ++ [.semicolon]))

/-- The declaration of a table with its name and its body. -/
def declaration (name body : String) : String := "CREATE TABLE " ++ name ++ " (" ++ body ++ ");"

theorem toList_declaration (name body : String) : (declaration name body).toList
    = "CREATE TABLE ".toList ++ name.toList ++ " (".toList ++ body.toList ++ ");".toList := by
  unfold declaration
  simp only [String.toList_append]

/-- In front of a parenthesis the tokens are the name of a table. -/
def NamesTable (ts : List Token) (name : String) : Prop :=
  ∀ {rest s : Input}, rest.current = .leftParen → Begins ts rest s →
    qualifiedName? s = some (name, rest)

/-- A text that names a table in front of a space. -/
def IsTableName (a : String) : Prop :=
  ∃ us name, Token.ScansBefore ' ' us a.toList ∧ NamesTable us name

/-- A text of whole tokens inside of one statement. -/
def IsTableBody (b : String) : Prop :=
  ∃ ts, Token.ScansBefore ')' ts b.toList ∧ Token.semicolon ∉ ts

/-- A single token may name a table. -/
theorem namesTable_singleton {t : Token} {name : String} (ht : t.name? = some name) :
    NamesTable [t] name := by
  intro rest s hrest hs
  obtain ⟨l, rfl, hl⟩ := begins_singleton.1 hs
  have hdot : rest.current ≠ .dot := by simp [hrest]
  simp [qualifiedName?, hl, ht, qualifiedTail_of_current name hdot]

theorem isTableName_of_scans {t : Token} {name a : String} (h : Token.Scans [t] a.toList)
    (ht : t.name? = some name) : IsTableName a :=
  ⟨[t], name, h.before (by decide), namesTable_singleton ht⟩

theorem isTableBody_of_scans {ts : List Token} {b : String} (h : Token.Scans ts b.toList)
    (hts : Token.semicolon ∉ ts) : IsTableBody b :=
  ⟨ts, h.before (by decide), hts⟩

theorem scanFrom_declaration {us ts : List Token} {name body : String}
    (hus : Token.ScansBefore ' ' us name.toList) (hts : Token.ScansBefore ')' ts body.toList)
    (size : Nat) (rest : List Char) :
    (Token.scanFrom size ((declaration name body).toList ++ rest)).map Lexeme.token
      = declarationTokens us ts ++ (Token.scanFrom size rest).map Lexeme.token := by
  have htext : (declaration name body).toList ++ rest
      = (Token.keyword .create).spelling ++ ' ' :: ((Token.keyword .table).spelling ++ ' ' ::
        (name.toList ++ ' ' :: '(' :: (body.toList ++ ')' :: ';' :: rest))) := by
    simp [toList_declaration, Token.spelling, Keyword.spelling]
  rw [htext, Token.map_scanFrom_spelling (Token.writable_keyword _),
    Token.map_scanFrom_spelling (Token.writable_keyword _), hus, Token.scanFrom_space,
    Token.map_scanFrom_punctuation rfl, hts, Token.map_scanFrom_punctuation rfl,
    Token.map_scanFrom_punctuation rfl]
  simp [declarationTokens]

/-- A declaration with nothing behind it. -/
theorem begins_of_declaration {us ts : List Token} {name body : String}
    (hus : Token.ScansBefore ' ' us name.toList) (hts : Token.ScansBefore ')' ts body.toList)
    {size : Nat} {s : Input} (hs : s.map Lexeme.token
      = (Token.scanFrom size (declaration name body).toList).map Lexeme.token) :
    ∃ l, Lexeme.token l = .finish ∧ Begins (declarationTokens us ts) [l] s := by
  have htokens := scanFrom_declaration hus hts size []
  rw [List.append_nil, ← hs, Token.scanFrom_nil] at htokens
  obtain ⟨rest, hbegins, hrest⟩ := begins_of_map_token htokens
  obtain ⟨l, rfl, hl⟩ := List.map_eq_singleton_iff.1 hrest
  exact ⟨l, hl, hbegins⟩

/-! ### Declarations in any place -/

theorem current_of_qualifiedName? {s : Input} {a : String × Input} (h : qualifiedName? s = some a)
    (k : Keyword) : s.current ≠ .keyword k := by
  cases s with
  | nil => cases h
  | cons l rest =>
    intro hl
    have hname : l.token.name? = none := by
      rw [show l.token = .keyword k from hl]
      rfl
    simp [qualifiedName?, hname] at h

/-- A declaration is read as its body says, and what is left of it is skipped. -/
theorem createStatement_declaration (dialect : Dialect) {name : String} {us ts : List Token}
    (hus : NamesTable us name) {rest s : Input} (hs : Begins (declarationTokens us ts) rest s) :
    ∃ (l : Lexeme) (after inside : Input), s = l :: after ∧ l.token = .keyword .create ∧
      Begins (ts ++ [.rightParen] ++ [.semicolon]) rest inside ∧
      createStatement dialect after = (tableBody dialect name inside).map fun (es, left) =>
        ([.declare (Entity.ofElements name es) (es.flatMap Element.references)],
          skipStatement left) := by
  obtain ⟨l, after, rfl, hl, hafter⟩ := begins_cons.1 hs
  obtain ⟨l₁, named, rfl, hl₁, hnamed⟩ := begins_cons.1 hafter
  obtain ⟨opened, hname, hopened⟩ := begins_append.1 hnamed
  have hqualified := hus hopened.current hname
  obtain ⟨l₂, inside, rfl, hl₂, hinside⟩ := begins_cons.1 hopened
  refine ⟨l, l₁ :: named, inside, rfl, hl, hinside, ?_⟩
  rw [createStatement_of_current dialect hl₁ (current_of_qualifiedName? hqualified .if),
    createTable_of_name hqualified hl₂]

/-- A script of one declaration is read as its body says: the body is read up to the semicolon, or it
is refused. -/
theorem read_declaration (dialect : Dialect) {a body name : String} {us ts : List Token}
    (hus : Token.ScansBefore ' ' us a.toList) (hname : NamesTable us name)
    (hts : Token.ScansBefore ')' ts body.toList) :
    ∃ inside rest, Begins (ts ++ [.rightParen]) rest inside ∧
      (∀ es, tableBody dialect name inside = .ok (es, rest) →
        Schema.read dialect (declaration a body)
          = .ok ⟨[Entity.ofElements name es], es.flatMap Element.references⟩) ∧
      ∀ err, tableBody dialect name inside = .error err →
        Schema.read dialect (declaration a body) = .error err := by
  obtain ⟨l, hl, hbegins⟩ := begins_of_declaration hus hts rfl
  obtain ⟨k, after, inside, hscan, hk, hinside, hcreate⟩ :=
    createStatement_declaration dialect hname hbegins
  obtain ⟨rest, hbody, hrest⟩ := begins_append.1 hinside
  obtain ⟨l', rfl, hl'⟩ := begins_singleton.1 hrest
  have hend : Input.current [l] = .finish := hl
  refine ⟨inside, _, hbody, fun es hread => ?_, fun err hread => ?_⟩
  · rw [hread] at hcreate
    simp only [Except.map, skipStatement_of_semicolon hl'] at hcreate
    rw [Schema.read, Token.scan, hscan, statements_create Schema.empty hk hcreate,
      statements_finish _ _ hend]
    rfl
  · rw [hread] at hcreate
    rw [Schema.read, Token.scan, hscan, statements_create_error Schema.empty hk hcreate]

/-- A body that is read to its end is read in the same way in front of anything. -/
theorem tableBody_elsewhere {dialect : Dialect} {name : String} {ts : List Token}
    (hts : ∀ t ∈ ts, t ≠ .semicolon ∧ t ≠ .finish) {l : Lexeme} (hl : l.token = .finish)
    {inside left : Input} (h : Begins (ts ++ [.rightParen] ++ [.semicolon]) [l] inside)
    {es : List Element} (hread : tableBody dialect name inside = .ok (es, left))
    {rest inside' : Input} (h' : Begins (ts ++ [.rightParen] ++ [.semicolon]) rest inside') :
    ∃ left', tableBody dialect name inside' = .ok (es, left') ∧ skipStatement left' = rest := by
  have hend : Input.current [l] = .finish := hl
  have hclosed : ∀ t ∈ ts ++ [Token.rightParen], t ≠ .semicolon ∧ t ≠ .finish := by
    simpa [or_imp, forall_and] using hts
  obtain ⟨⟨es', left'⟩, hread', hvalue, hleft⟩ :=
    (alike_of_begins hclosed h h').tableBody hend dialect name _ hread
  obtain rfl : es = es' := hvalue
  exact ⟨left', hread', (hleft.skipStatement_eq fun _ h => h).2⟩

/-- **What a table declares does not depend on what stands around its declaration.** -/
theorem exists_declared {dialect : Dialect} {name : String} {us ts : List Token}
    (hus : NamesTable us name) (hts : ∀ t ∈ ts, t ≠ .semicolon ∧ t ≠ .finish)
    {l : Lexeme} (hl : l.token = .finish) {s : Input} (hs : Begins (declarationTokens us ts) [l] s)
    {schema : Schema} (h : statements dialect .empty s = .ok schema) :
    ∃ es, schema = ⟨[Entity.ofElements name es], es.flatMap Element.references⟩ ∧
      ∀ (start : Schema) {rest s' : Input}, Begins (declarationTokens us ts) rest s' →
        statements dialect start s' = statements dialect
          (start.declare (Entity.ofElements name es) (es.flatMap Element.references)) rest := by
  obtain ⟨k, after, inside, rfl, hk, hinside, hcreate⟩ := createStatement_declaration dialect hus hs
  cases hread : tableBody dialect name inside with
  | error err =>
    rw [hread] at hcreate
    rw [statements_create_error .empty hk hcreate] at h
    cases h
  | ok a =>
    obtain ⟨es, left⟩ := a
    have hdeclare : ∀ (start : Schema) {rest s' : Input}, Begins (declarationTokens us ts) rest s' →
        statements dialect start s' = statements dialect
          (start.declare (Entity.ofElements name es) (es.flatMap Element.references)) rest := by
      intro start rest s' hs'
      obtain ⟨k', after', inside', rfl, hk', hinside', hcreate'⟩ :=
        createStatement_declaration dialect hus hs'
      obtain ⟨left', hread', hleft'⟩ := tableBody_elsewhere hts hl hinside hread hinside'
      simp only [hread', Except.map, hleft'] at hcreate'
      exact statements_create start hk' hcreate'
    refine ⟨es, ?_, hdeclare⟩
    have hend : Input.current [l] = .finish := hl
    rw [hdeclare .empty hs, statements_finish dialect _ hend] at h
    exact (Except.ok.inj h).symm

/-! ### Two declarations -/

/-- **A table that is declared again takes the place of the earlier one, but the foreign keys of the
earlier one stay.** So the last declaration wins exactly if the earlier one
has none. -/
theorem read_redeclared (dialect : Dialect) {a b₁ b₂ : String} (ha : IsTableName a)
    (hb₁ : IsTableBody b₁) (hb₂ : IsTableBody b₂) {s₁ s₂ : Schema}
    (h₁ : Schema.read dialect (declaration a b₁) = .ok s₁)
    (h₂ : Schema.read dialect (declaration a b₂) = .ok s₂) :
    Schema.read dialect (declaration a b₁ ++ " " ++ declaration a b₂)
        = .ok ⟨s₂.entities, s₁.foreignKeys ++ s₂.foreignKeys⟩ ∧
      (Schema.read dialect (declaration a b₁ ++ " " ++ declaration a b₂)
          = Schema.read dialect (declaration a b₂) ↔ s₁.foreignKeys = []) := by
  obtain ⟨us, name, hus, hname⟩ := ha
  obtain ⟨ts₁, hts₁, hsemicolon₁⟩ := hb₁
  obtain ⟨ts₂, hts₂, hsemicolon₂⟩ := hb₂
  obtain ⟨l₁, hl₁, hbegins₁⟩ := begins_of_declaration hus hts₁ rfl
  obtain ⟨l₂, hl₂, hbegins₂⟩ := begins_of_declaration hus hts₂ rfl
  obtain ⟨es₁, rfl, hdeclare₁⟩ :=
    exists_declared hname (hts₁.ends_no_statement hsemicolon₁) hl₁ hbegins₁ h₁
  obtain ⟨es₂, rfl, hdeclare₂⟩ :=
    exists_declared hname (hts₂.ends_no_statement hsemicolon₂) hl₂ hbegins₂ h₂
  -- the second declaration stands behind the first and a space
  let size := Text.byteSize (declaration a b₁ ++ " " ++ declaration a b₂).toList
  have hscan : Token.scan (declaration a b₁ ++ " " ++ declaration a b₂)
      = Token.scanFrom size ((declaration a b₁).toList ++ ' ' :: (declaration a b₂).toList) := by
    simp [Token.scan, size]
  obtain ⟨middle, hfirst, hmiddle⟩ := begins_of_map_token
    (scanFrom_declaration hus hts₁ size (' ' :: (declaration a b₂).toList))
  rw [Token.scanFrom_space] at hmiddle
  obtain ⟨l, hl, hsecond⟩ := begins_of_declaration hus hts₂ hmiddle
  have hend : Input.current [l] = .finish := hl
  have htwice : Schema.read dialect (declaration a b₁ ++ " " ++ declaration a b₂)
      = .ok ⟨[Entity.ofElements name es₂],
        es₁.flatMap Element.references ++ es₂.flatMap Element.references⟩ := by
    rw [Schema.read, hscan, hdeclare₁ _ hfirst, hdeclare₂ _ hsecond,
      statements_finish dialect _ hend]
    simp [Schema.declare, Schema.empty, Entity.ofElements, Entity.markPrimary, updateFirst]
  refine ⟨htwice, ?_⟩
  rw [htwice, h₂]
  simp

def visitSchema : Schema :=
  ⟨[⟨"visit", [⟨"pet", "integer", []⟩], []⟩], [⟨"visit", ["pet"], "pet", []⟩]⟩

theorem read_visit :
    Schema.read .postgres (declaration "visit" "pet int REFERENCES pet") = .ok visitSchema ∧
      Schema.read .postgres (declaration "visit" "pet int") = .ok ⟨visitSchema.entities, []⟩ :=
  ⟨eq_ok_of_toOption (by decide +kernel), eq_ok_of_toOption (by decide +kernel)⟩

/-- The second declaration has no reference, but the one of the first stays. -/
theorem read_redeclared_visit :
    IsTableName "visit" ∧ IsTableBody "pet int REFERENCES pet" ∧ IsTableBody "pet int" ∧
      Schema.read .postgres (declaration "visit" "pet int REFERENCES pet") = .ok visitSchema ∧
      Schema.read .postgres (declaration "visit" "pet int")
        = .ok ⟨visitSchema.entities, []⟩ ∧
      Schema.read .postgres (declaration "visit" "pet int REFERENCES pet" ++ " "
        ++ declaration "visit" "pet int") = .ok visitSchema := by
  have hvisit : Token.Scans [.word "visit"] "visit".toList := Token.scans_word (by decide)
  have hpet : Token.Scans [.word "pet"] "pet".toList := Token.scans_word (by decide)
  have hwritable : (Token.word "pet").Writable := ⟨by decide, by decide⟩
  have hinteger : (Token.word "int").Writable := ⟨by decide, by decide⟩
  have hint : Token.Scans [.word "pet", .word "int"] "pet int".toList :=
    Token.Scans.cons_spelling (Token.scans_word (by decide)) hwritable
  have hreference : Token.Scans [.word "pet", .word "int", .keyword .references, .word "pet"]
      "pet int REFERENCES pet".toList :=
    ((hpet.cons_spelling (Token.writable_keyword .references)).cons_spelling
      hinteger).cons_spelling hwritable
  obtain ⟨hfirst, hlast⟩ := read_visit
  have hname := isTableName_of_scans hvisit rfl
  have hbody₁ := isTableBody_of_scans hreference (by decide)
  have hbody₂ := isTableBody_of_scans hint (by decide)
  exact ⟨hname, hbody₁, hbody₂, hfirst, hlast,
    (read_redeclared .postgres hname hbody₁ hbody₂ hfirst hlast).1⟩

/-- With the reference of the first declaration the schema is not the one of the second. -/
theorem read_redeclared_ne :
    (Schema.read .postgres (declaration "visit" "pet int REFERENCES pet")).isOk = true ∧
      (Schema.read .postgres (declaration "visit" "pet int")).isOk = true ∧
      Schema.read .postgres (declaration "visit" "pet int REFERENCES pet" ++ " "
        ++ declaration "visit" "pet int") ≠ Schema.read .postgres (declaration "visit" "pet int") := by
  obtain ⟨hfirst, hlast⟩ := read_visit
  have htwice : (Schema.read .postgres (declaration "visit" "pet int REFERENCES pet" ++ " "
      ++ declaration "visit" "pet int")).toOption = some visitSchema := by
    decide +kernel
  refine ⟨by rw [hfirst]; rfl, by rw [hlast]; rfl, ?_⟩
  intro h
  rw [h, hlast] at htwice
  exact absurd htwice (by decide)

end SchemaAudit.Ddl
