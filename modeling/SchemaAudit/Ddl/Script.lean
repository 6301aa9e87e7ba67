import SchemaAudit.Ddl.Table
import SchemaAudit.Token.Scan

/-!
# Scripts

A script is a list of statements. Those that create a table or alter one change the schema; all
others are skipped. A table that is declared again takes the place of the earlier one.
-/

namespace SchemaAudit.Ddl

/-- What a statement does to the schema. -/
inductive Change where
  | declare (e : Entity) (references : List ForeignKey)
  | refer (r : ForeignKey)
  | addKey (table : String) (k : Key)
  deriving DecidableEq, Repr

/-- The schema after a change. Keys of tables that are not declared are dropped, their foreign keys
are not. -/
def Schema.apply (s : Schema) : Change → Schema
  | .declare e references => s.declare e references
  | .refer r => { s with foreignKeys := s.foreignKeys ++ [r] }
  | .addKey table k =>
    s.alter table fun e => { e.markPrimary k.primaryColumns with keys := e.keys ++ [k] }

def Schema.applyAll (s : Schema) (changes : List Change) : Schema := changes.foldl Schema.apply s

/-- What is left behind words that may stand between `CREATE` and `TABLE`. -/
def skipTableWords (s : Input) : Input :=
  ["OR", "REPLACE", "TEMPORARY", "TEMP", "UNLOGGED", "GLOBAL", "LOCAL"].foldl
    (fun left word => left.eatWord word) s

/-- What is left behind `IF NOT EXISTS`. -/
def skipIfNotExists (s : Input) : Input :=
  if s.startsWith (.keyword .if) then
    ((s.eat (.keyword .if)).eat (.keyword .not)).eat (.keyword .exists)
  else s

/-- The table that a statement declares, from behind `TABLE`. A statement that gives no body in
parentheses declares none. -/
def createTable (dialect : Dialect) (s : Input) : Reading (List Change) :=
  match qualifiedName? s with
  | none => .ok ([], skipStatement s)
  | some (name, rest) =>
    if rest.startsWith .leftParen then
      (tableBody dialect name (rest.eat .leftParen)).map fun (es, left) =>
        ([.declare (Entity.ofElements name es) (es.flatMap Element.references)],
          skipStatement left)
    else .ok ([], skipStatement rest)

/-- A statement from behind `CREATE`. -/
def createStatement (dialect : Dialect) (s : Input) : Reading (List Change) :=
  let rest := skipTableWords s
  if rest.startsWith (.keyword .table) then
    createTable dialect (skipIfNotExists (rest.eat (.keyword .table)))
  else .ok ([], skipStatement rest)

/-- What is left from the next comma outside of groups, or from the end of the statement. -/
def skipClause (table : String) (s : Input) : Except ReadError Input :=
  match s with
  | [] => .ok []
  | l :: rest =>
    match l.token with
    | .comma | .semicolon | .finish => .ok (l :: rest)
    | .leftParen =>
      match _h : closeGroup table 0 rest with
      | .error e => .error e
      | .ok left => skipClause table left
    | _ => skipClause table rest
termination_by s.length
decreasing_by
  · exact Nat.lt_succ_of_lt (closeGroup_length_lt _h)
  · simp

/-- What a clause adds to a table, from behind `ADD` and the name of a constraint. -/
def addition (table : String) (s : Input) : Reading (List Change) :=
  match s with
  | [] => .ok ([], [])
  | l :: rest =>
    match l.token with
    | .keyword .foreign => (foreignKey table rest).map fun (r, left) => ([.refer r], left)
    | .keyword .primary =>
      (columnList table (Input.eat (.keyword .key) rest)).map fun (columns, left) =>
        ([.addKey table (.primary columns)], left)
    | .keyword .unique =>
      (columnList table rest).map fun (columns, left) =>
        ([.addKey table (.unique columns)], left)
    | _ => .ok ([], l :: rest)

/-- What is left behind the keyword and the name of a constraint. -/
def skipConstraintName (s : Input) : Input :=
  if s.startsWith (.keyword .constraint) then (s.eat (.keyword .constraint)).eatName else s

theorem skipConstraintName_length_le (s : Input) :
    (skipConstraintName s).length ≤ s.length := by
  unfold skipConstraintName
  split
  · exact Nat.le_trans (Input.eatName_length_le _) (Input.eat_length_le _ _)
  · exact Nat.le_refl _

theorem skipClause_length_le {table : String} {s rest : Input}
    (h : skipClause table s = .ok rest) : rest.length ≤ s.length := by
  fun_induction skipClause table s with
  | case6 =>
    rename_i hg ih
    have := closeGroup_length_lt hg
    have := ih h
    simp only [List.length_cons]
    omega
  | case7 =>
    rename_i ih
    exact Nat.le_succ_of_le (ih h)
  | _ => simp_all

theorem addition_length_le {table : String} {s rest : Input} {changes : List Change}
    (h : addition table s = .ok (changes, rest)) : rest.length ≤ s.length := by
  cases s with
  | nil => simp_all [addition]
  | cons l s =>
    simp only [addition] at h
    split at h
    · obtain ⟨⟨r, left⟩, hr, he⟩ := eq_ok_of_map_eq_ok h
      obtain ⟨-, rfl⟩ := Prod.mk.injEq .. ▸ he
      exact Nat.le_succ_of_le (Nat.le_of_lt (foreignKey_length_lt hr))
    · obtain ⟨⟨columns, left⟩, hr, he⟩ := eq_ok_of_map_eq_ok h
      obtain ⟨-, rfl⟩ := Prod.mk.injEq .. ▸ he
      have := columnList_length_lt hr
      have := Input.eat_length_le (.keyword .key) s
      simp only [List.length_cons]
      omega
    · obtain ⟨⟨columns, left⟩, hr, he⟩ := eq_ok_of_map_eq_ok h
      obtain ⟨-, rfl⟩ := Prod.mk.injEq .. ▸ he
      exact Nat.le_succ_of_le (Nat.le_of_lt (columnList_length_lt hr))
    · simp_all

/-- The clauses that add to a table, with commas between them. -/
def additions (table : String) (s : Input) : Reading (List Change) :=
  match s with
  | [] => .ok ([], [])
  | l :: rest =>
    if l.token = .keyword .add then
      match _ha : addition table (skipConstraintName rest) with
      | .error e => .error e
      | .ok (changes, after) =>
        match _hc : skipClause table after with
        | .error e => .error e
        | .ok [] => .ok (changes, [])
        | .ok (l' :: left) =>
          if l'.token = .comma then
            (additions table left).map fun (more, left') => (changes ++ more, left')
          else .ok (changes, l' :: left)
    else .ok ([], l :: rest)
termination_by s.length
decreasing_by
  have h1 := skipConstraintName_length_le rest
  have h2 := addition_length_le _ha
  have h3 := skipClause_length_le _hc
  simp only [List.length_cons] at h3 ⊢
  omega

/-- What is left behind words that may stand between `TABLE` and the name of a table. -/
def skipAlterWords (s : Input) : Input :=
  let rest := s.eat (.keyword .only)
  let rest :=
    if rest.startsWith (.keyword .if) then (rest.eat (.keyword .if)).eat (.keyword .exists)
    else rest
  rest.eat (.keyword .only)

/-- A statement from behind `ALTER`. -/
def alterStatement (s : Input) : Reading (List Change) :=
  if s.startsWith (.keyword .table) then
    let rest := skipAlterWords (s.eat (.keyword .table))
    match qualifiedName? rest with
    | none => .ok ([], skipStatement rest)
    | some (table, after) =>
      (additions table after).map fun (changes, left) => (changes, skipStatement left)
  else .ok ([], skipStatement s)

theorem skipTableWords_length_le (s : Input) : (skipTableWords s).length ≤ s.length := by
  have h : ∀ (words : List String) (s : Input),
      (words.foldl (fun left word => left.eatWord word) s).length ≤ s.length := by
    intro words
    induction words with
    | nil => simp
    | cons w words ih =>
      exact fun s => Nat.le_trans (ih (s.eatWord w)) (Input.eatWord_length_le w s)
  exact h _ s

theorem skipIfNotExists_length_le (s : Input) : (skipIfNotExists s).length ≤ s.length := by
  unfold skipIfNotExists
  split
  · exact Nat.le_trans (Input.eat_length_le _ _)
      (Nat.le_trans (Input.eat_length_le _ _) (Input.eat_length_le _ _))
  · exact Nat.le_refl _

theorem skipAlterWords_length_le (s : Input) : (skipAlterWords s).length ≤ s.length := by
  unfold skipAlterWords
  refine Nat.le_trans (Input.eat_length_le _ _) ?_
  split
  · exact Nat.le_trans (Input.eat_length_le _ _)
      (Nat.le_trans (Input.eat_length_le _ _) (Input.eat_length_le _ _))
  · exact Input.eat_length_le _ _

theorem createTable_length_le {dialect : Dialect} {s rest : Input} {changes : List Change}
    (h : createTable dialect s = .ok (changes, rest)) : rest.length ≤ s.length := by
  unfold createTable at h
  split at h
  · simp only [Except.ok.injEq, Prod.mk.injEq] at h
    obtain ⟨-, rfl⟩ := h
    exact skipStatement_length_le _
  · rename_i name after hq
    have h1 := qualifiedName?_length_lt hq
    split at h
    · obtain ⟨⟨es, left⟩, hr, he⟩ := eq_ok_of_map_eq_ok h
      obtain ⟨-, rfl⟩ := Prod.mk.injEq .. ▸ he
      have h2 := tableBody_length_lt hr
      have h3 := Input.eat_length_le .leftParen after
      have h4 := skipStatement_length_le left
      omega
    · simp only [Except.ok.injEq, Prod.mk.injEq] at h
      obtain ⟨-, rfl⟩ := h
      have := skipStatement_length_le after
      omega

theorem createStatement_length_le {dialect : Dialect} {s rest : Input} {changes : List Change}
    (h : createStatement dialect s = .ok (changes, rest)) : rest.length ≤ s.length := by
  have h1 := skipTableWords_length_le s
  unfold createStatement at h
  simp only at h
  split at h
  · have h2 := createTable_length_le h
    have h3 := skipIfNotExists_length_le ((skipTableWords s).eat (.keyword .table))
    have h4 := Input.eat_length_le (.keyword .table) (skipTableWords s)
    omega
  · simp only [Except.ok.injEq, Prod.mk.injEq] at h
    obtain ⟨-, rfl⟩ := h
    exact Nat.le_trans (skipStatement_length_le _) h1

theorem additions_length_le {table : String} {s rest : Input} {changes : List Change}
    (h : additions table s = .ok (changes, rest)) : rest.length ≤ s.length := by
  fun_induction additions table s generalizing changes with
  | case5 l rest' hl changes' after ha l' left hc hcomma ih =>
    obtain ⟨⟨more, left'⟩, hr, he⟩ := eq_ok_of_map_eq_ok h
    obtain ⟨-, rfl⟩ := Prod.mk.injEq .. ▸ he
    have h1 := skipConstraintName_length_le rest'
    have h2 := addition_length_le ha
    have h3 := skipClause_length_le hc
    have h4 := ih hr
    simp only [List.length_cons] at h3 ⊢
    omega
  | case6 l rest' hl changes' after ha l' left hc hcomma =>
    have h1 := skipConstraintName_length_le rest'
    have h2 := addition_length_le ha
    have h3 := skipClause_length_le hc
    simp only [Except.ok.injEq, Prod.mk.injEq] at h
    obtain ⟨-, rfl⟩ := h
    simp only [List.length_cons] at h3 ⊢
    omega
  | _ => simp_all

theorem alterStatement_length_le {s rest : Input} {changes : List Change}
    (h : alterStatement s = .ok (changes, rest)) : rest.length ≤ s.length := by
  unfold alterStatement at h
  split at h
  · have h1 := skipAlterWords_length_le (s.eat (.keyword .table))
    have h2 := Input.eat_length_le (.keyword .table) s
    simp only at h
    split at h
    · simp only [Except.ok.injEq, Prod.mk.injEq] at h
      obtain ⟨-, rfl⟩ := h
      exact Nat.le_trans (skipStatement_length_le _) (Nat.le_trans h1 h2)
    · rename_i table after hq
      have h3 := qualifiedName?_length_lt hq
      obtain ⟨⟨changes', left⟩, hr, he⟩ := eq_ok_of_map_eq_ok h
      obtain ⟨-, rfl⟩ := Prod.mk.injEq .. ▸ he
      have h4 := additions_length_le hr
      have h5 := skipStatement_length_le left
      simp only
      omega
  · simp only [Except.ok.injEq, Prod.mk.injEq] at h
    obtain ⟨-, rfl⟩ := h
    exact skipStatement_length_le _

/-- The schema after the statements that are left. -/
def statements (dialect : Dialect) (schema : Schema) (s : Input) : Except ReadError Schema :=
  match s with
  | [] => .ok schema
  | l :: rest =>
    match l.token with
    | .finish => .ok schema
    | .keyword .create =>
      match _h : createStatement dialect rest with
      | .error e => .error e
      | .ok (changes, left) => statements dialect (schema.applyAll changes) left
    | .keyword .alter =>
      match _h : alterStatement rest with
      | .error e => .error e
      | .ok (changes, left) => statements dialect (schema.applyAll changes) left
    | _ => statements dialect schema rest
termination_by s.length
decreasing_by
  · exact Nat.lt_succ_of_le (createStatement_length_le _h)
  · exact Nat.lt_succ_of_le (alterStatement_length_le _h)
  · simp

/-- The schema that a script declares: `parse_sql`. -/
def Schema.read (dialect : Dialect) (script : String) : Except ReadError Schema :=
  statements dialect Schema.empty (Token.scan script)

end SchemaAudit.Ddl
