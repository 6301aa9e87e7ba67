import SchemaAudit.Ddl.Column

/-!
# Tables

The body of a table is a list of elements between parentheses: columns, keys, foreign keys, and
checks and indexes, which the schema does not hold. A comma stands between elements and none
behind the last.
-/

namespace SchemaAudit.Ddl

/-- What an element of a table declares. -/
inductive Element where
  | column (c : Column) (references : List ForeignKey)
  | key (k : Key)
  | reference (r : ForeignKey)
  /-- An element that declares nothing the schema holds. -/
  | other
  deriving DecidableEq, Repr

namespace Element

def column? : Element → Option Column
  | column c _ => some c
  | _ => none

def key? : Element → Option Key
  | key k => some k
  | _ => none

def references : Element → List ForeignKey
  | column _ rs => rs
  | reference r => [r]
  | _ => []

end Element

/-- A foreign key beside the columns, from behind `FOREIGN`. -/
def foreignKey (table : String) (s : Input) : Reading ForeignKey :=
  if s.startsWith (.keyword .key) then
    match columnList table (s.eat (.keyword .key)) with
    | .error e => .error e
    | .ok (columns, rest) =>
      if rest.startsWith (.keyword .references) then
        (reference table (rest.eat (.keyword .references))).map fun ((target, targets), left) =>
          (⟨table, columns, target, targets⟩, skipActions left)
      else .error (rest.expected "REFERENCES")
  else .error (s.expected "KEY")

theorem foreignKey_length_lt {table : String} {s rest : Input} {r : ForeignKey}
    (h : foreignKey table s = .ok (r, rest)) : rest.length < s.length := by
  unfold foreignKey at h
  split at h
  · split at h
    · simp at h
    · rename_i columns after hc
      have h1 := columnList_length_lt hc
      have h2 := Input.eat_length_le (.keyword .key) s
      split at h
      · obtain ⟨⟨⟨target, targets⟩, left⟩, hr, he⟩ := eq_ok_of_map_eq_ok h
        obtain ⟨-, rfl⟩ := Prod.mk.injEq .. ▸ he
        have h3 := reference_length_lt hr
        have h4 := Input.eat_length_le (.keyword .references) after
        have h5 := skipActions_length_le left
        omega
      · simp at h
  · simp at h

/-- What is left behind the names of constraints. -/
def skipConstraintNames (s : Input) : Input :=
  match s with
  | [] => []
  | l :: rest =>
    if l.token = .keyword .constraint then skipConstraintNames (Input.eatName rest) else l :: rest
termination_by s.length
decreasing_by exact Nat.lt_succ_of_le (Input.eatName_length_le rest)

theorem skipConstraintNames_length_le (s : Input) :
    (skipConstraintNames s).length ≤ s.length := by
  fun_induction skipConstraintNames s with
  | case2 l rest h ih =>
    have := Input.eatName_length_le rest
    simp only [List.length_cons]
    omega
  | _ => simp

/-- Words that begin an element which declares nothing the schema holds. -/
def beginsOther (t : Token) : Bool :=
  t.isWord "FULLTEXT" || t.isWord "SPATIAL" || t.isWord "EXCLUDE"

/-- The element that begins with the lexeme `l`, behind which `rest` is left. -/
def element (dialect : Dialect) (table : String) (l : Lexeme) (rest : Input) : Reading Element :=
  match l.token with
  | .keyword .primary =>
    match columnList table (Input.eat (.keyword .key) rest) with
    | .error e => .error e
    | .ok (columns, after) =>
      (skipElement table 0 after).map fun left => (.key (.primary columns), left)
  | .keyword .unique =>
    match columnList table rest with
    | .error e => .error e
    | .ok (columns, after) =>
      (skipElement table 0 after).map fun left => (.key (.unique columns), left)
  | .keyword .foreign =>
    match foreignKey table rest with
    | .error e => .error e
    | .ok (r, after) => (skipElement table 0 after).map fun left => (.reference r, left)
  | .keyword .index | .keyword .key | .keyword .check =>
    (skipElement table 0 rest).map fun left => (.other, left)
  | t =>
    if beginsOther t then (skipElement table 0 rest).map fun left => (.other, left)
    else match t.name? with
    | some name => (column dialect table name rest).map fun ((c, rs), left) => (.column c rs, left)
    | none => .error (.expected "column or constraint definition" l.token l.offset)

theorem element_length_le {dialect : Dialect} {table : String} {l : Lexeme} {s rest : Input}
    {e : Element} (h : element dialect table l s = .ok (e, rest)) : rest.length ≤ s.length := by
  unfold element at h
  split at h
  · split at h
    · simp at h
    · rename_i columns after hc
      obtain ⟨left, hr, he⟩ := eq_ok_of_map_eq_ok h
      obtain ⟨-, rfl⟩ := Prod.mk.injEq .. ▸ he
      have h1 := columnList_length_lt hc
      have h2 := Input.eat_length_le (.keyword .key) s
      have h3 := skipElement_length_le hr
      omega
  · split at h
    · simp at h
    · rename_i columns after hc
      obtain ⟨left, hr, he⟩ := eq_ok_of_map_eq_ok h
      obtain ⟨-, rfl⟩ := Prod.mk.injEq .. ▸ he
      have h1 := columnList_length_lt hc
      have h3 := skipElement_length_le hr
      omega
  · split at h
    · simp at h
    · rename_i r after hf
      obtain ⟨left, hr, he⟩ := eq_ok_of_map_eq_ok h
      obtain ⟨-, rfl⟩ := Prod.mk.injEq .. ▸ he
      have h1 := foreignKey_length_lt hf
      have h3 := skipElement_length_le hr
      omega
  iterate 3
    · obtain ⟨left, hr, he⟩ := eq_ok_of_map_eq_ok h
      obtain ⟨-, rfl⟩ := Prod.mk.injEq .. ▸ he
      exact skipElement_length_le hr
  · split at h
    · obtain ⟨left, hr, he⟩ := eq_ok_of_map_eq_ok h
      obtain ⟨-, rfl⟩ := Prod.mk.injEq .. ▸ he
      exact skipElement_length_le hr
    · split at h
      · obtain ⟨⟨⟨c, rs⟩, left⟩, hr, he⟩ := eq_ok_of_map_eq_ok h
        obtain ⟨-, rfl⟩ := Prod.mk.injEq .. ▸ he
        exact Nat.le_of_lt (column_length_lt hr)
      · simp at h

/-- The elements of a table from the start of one on, and what is left behind the closing
parenthesis. -/
def elements (dialect : Dialect) (table : String) (s : Input) : Reading (List Element) :=
  match _h : skipConstraintNames s with
  | [] => .error (.unexpectedEnd table)
  | l :: rest =>
    match l.token with
    | .semicolon | .finish => .error (.unexpectedEnd table)
    | .rightParen => .error (.trailingComma table l.offset)
    | _ =>
      match _he : element dialect table l rest with
      | .error e => .error e
      | .ok (_, []) => .error (.unexpectedEnd table)
      | .ok (e, l' :: after) =>
        match l'.token with
        | .comma => (elements dialect table after).map fun (es, left) => (e :: es, left)
        | .rightParen => .ok ([e], after)
        | .semicolon | .finish => .error (.unexpectedEnd table)
        | _ => .error (.expected "',' or ')'" l'.token l'.offset)
termination_by s.length
decreasing_by
  have h1 := skipConstraintNames_length_le s
  have h2 := element_length_le _he
  rw [_h] at h1
  simp only [List.length_cons] at h1 h2
  omega

/-- The body of a table from behind its opening parenthesis. -/
def tableBody (dialect : Dialect) (table : String) (s : Input) : Reading (List Element) :=
  match s with
  | [] => elements dialect table []
  | l :: rest =>
    if l.token = .rightParen then .ok ([], rest) else elements dialect table (l :: rest)

theorem elements_length_lt {dialect : Dialect} {table : String} {s rest : Input}
    {es : List Element} (h : elements dialect table s = .ok (es, rest)) :
    rest.length < s.length := by
  fun_induction elements dialect table s generalizing es with
  | case7 s l r hs e l' after he _ _ _ _ ih =>
    obtain ⟨⟨es', left⟩, hr', he'⟩ := eq_ok_of_map_eq_ok h
    obtain ⟨-, rfl⟩ := Prod.mk.injEq .. ▸ he'
    have h1 := skipConstraintNames_length_le s
    have h2 := element_length_le he
    have h3 := ih hr'
    rw [hs] at h1
    simp only [List.length_cons] at h1 h2
    omega
  | case8 s l r hs e l' after he _ _ _ _ =>
    have h1 := skipConstraintNames_length_le s
    have h2 := element_length_le he
    rw [hs] at h1
    simp only [Except.ok.injEq, Prod.mk.injEq] at h
    obtain ⟨-, rfl⟩ := h
    simp only [List.length_cons] at h1 h2
    omega
  | _ => simp_all

theorem tableBody_length_lt {dialect : Dialect} {table : String} {s rest : Input}
    {es : List Element} (h : tableBody dialect table s = .ok (es, rest)) :
    rest.length < s.length := by
  unfold tableBody at h
  split at h
  · exact elements_length_lt h
  · split at h
    · simp_all
    · exact elements_length_lt h

/-- The entity that elements make up. Columns that a key beside them names as primary are marked
so. -/
def Entity.ofElements (name : String) (es : List Element) : Entity :=
  let declared : Entity := ⟨name, es.filterMap Element.column?, es.filterMap Element.key?⟩
  declared.markPrimary declared.primaryColumns

end SchemaAudit.Ddl
