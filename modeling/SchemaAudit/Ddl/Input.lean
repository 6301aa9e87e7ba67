import SchemaAudit.Token

/-!
# Reading from a list of lexemes

A reader takes the lexemes that are left and returns what it read with the lexemes after it. Here
are the readers that the parts of a declaration share: names, groups in parentheses and lists of
columns. No reader returns more lexemes than it was given.
-/

namespace SchemaAudit.Ddl

/-- The lexemes that are left. An empty list is at the end of input too. -/
abbrev Input := List Lexeme

/-- Why a script could not be read. -/
inductive ReadError where
  | expected (what : String) (found : Token) (offset : Nat)
  /-- A table whose declaration does not end. -/
  | unexpectedEnd (table : String)
  | trailingComma (table : String) (offset : Nat)
  deriving DecidableEq, Repr

def ReadError.message : ReadError → String
  | expected what found offset =>
    "Expected " ++ what ++ ", found " ++ found.describe ++ " at offset " ++ toString offset
  | unexpectedEnd table => "Unexpected end of input in table \"" ++ table ++ "\""
  | trailingComma table offset =>
    "Trailing comma before ')' in table \"" ++ table ++ "\" at offset " ++ toString offset

/-- What a reader returns: a value and what is left, or the error that it met. -/
abbrev Reading (α : Type) := Except ReadError (α × Input)

theorem eq_ok_of_map_eq_ok {α β : Type} {f : α → β} {x : Except ReadError α} {b : β}
    (h : x.map f = .ok b) : ∃ a, x = .ok a ∧ f a = b := by
  cases x with
  | error e => simp [Except.map] at h
  | ok a => exact ⟨a, rfl, by simpa [Except.map] using h⟩

namespace Input

def current : Input → Token
  | [] => .finish
  | l :: _ => l.token

def offset : Input → Nat
  | [] => 0
  | l :: _ => l.offset

/-- The error of meeting something else than what is expected. -/
def expected (s : Input) (what : String) : ReadError := .expected what s.current s.offset

/-- What is left behind a token, if it comes first. -/
def eat (t : Token) : Input → Input
  | [] => []
  | l :: rest => if l.token = t then rest else l :: rest

/-- What is left behind a bare word, if it comes first. -/
def eatWord (word : String) : Input → Input
  | [] => []
  | l :: rest => if l.token.isWord word then rest else l :: rest

/-- What is left behind a name, if one comes first. -/
def eatName : Input → Input
  | [] => []
  | l :: rest => if l.token.name?.isSome then rest else l :: rest

def startsWith (t : Token) (s : Input) : Bool := s.current = t

def startsWithWord (word : String) (s : Input) : Bool := s.current.isWord word

theorem eat_length_le (t : Token) (s : Input) : (s.eat t).length ≤ s.length := by
  cases s with
  | nil => simp [eat]
  | cons l rest => simp only [eat]; split <;> simp

theorem eatWord_length_le (word : String) (s : Input) :
    (s.eatWord word).length ≤ s.length := by
  cases s with
  | nil => simp [eatWord]
  | cons l rest => simp only [eatWord]; split <;> simp

theorem eatName_length_le (s : Input) : s.eatName.length ≤ s.length := by
  cases s with
  | nil => simp [eatName]
  | cons l rest => simp only [eatName]; split <;> simp

end Input

/-! ## Names -/

/-- The last part of a name of which the first part has been read. -/
def qualifiedTail (name : String) : Input → String × Input
  | [] => (name, [])
  | l :: rest =>
    if l.token = .dot then
      match rest with
      | [] => (name, [])
      | l' :: rest' =>
        match l'.token.name? with
        | some part => qualifiedTail part rest'
        | none => (name, l' :: rest')
    else (name, l :: rest)

/-- The last part of a name that may be qualified. -/
def qualifiedName? : Input → Option (String × Input)
  | [] => none
  | l :: rest => l.token.name?.map fun first => qualifiedTail first rest

theorem qualifiedTail_length_le (name : String) (s : Input) :
    (qualifiedTail name s).2.length ≤ s.length := by
  fun_induction qualifiedTail name s <;> simp_all
  omega

theorem qualifiedName?_length_lt {s rest : Input} {name : String}
    (h : qualifiedName? s = some (name, rest)) : rest.length < s.length := by
  cases s with
  | nil => simp [qualifiedName?] at h
  | cons l s =>
    obtain ⟨first, -, hf⟩ := Option.map_eq_some_iff.1 h
    have := qualifiedTail_length_le first s
    rw [hf] at this
    exact Nat.lt_succ_of_le this

/-! ## Groups in parentheses -/

/-- What is left behind the parenthesis that closes the current group, inside which `depth` groups
are open. A group does not end with its statement. -/
def closeGroup (table : String) : (depth : Nat) → Input → Except ReadError Input
  | _, [] => .error (.unexpectedEnd table)
  | depth, l :: rest =>
    match l.token with
    | .leftParen => closeGroup table (depth + 1) rest
    | .rightParen =>
      match depth with
      | 0 => .ok rest
      | depth + 1 => closeGroup table depth rest
    | .semicolon | .finish => .error (.unexpectedEnd table)
    | _ => closeGroup table depth rest

/-- What is left behind a group, or behind one token that opens none. -/
def skipGroup (table : String) : Input → Except ReadError Input
  | [] => .ok []
  | l :: rest => if l.token = .leftParen then closeGroup table 0 rest else .ok rest

/-- What is left behind a group, if one comes first. -/
def skipOptionalGroup (table : String) (s : Input) : Except ReadError Input :=
  if s.startsWith .leftParen then skipGroup table s else .ok s

theorem closeGroup_length_lt {table : String} {depth : Nat} {s rest : Input}
    (h : closeGroup table depth s = .ok rest) : rest.length < s.length := by
  fun_induction closeGroup table depth s <;> simp_all <;> omega

theorem skipGroup_length_le {table : String} {s rest : Input}
    (h : skipGroup table s = .ok rest) : rest.length ≤ s.length := by
  cases s with
  | nil => simp_all [skipGroup]
  | cons l s =>
    simp only [skipGroup] at h
    split at h
    · have := closeGroup_length_lt h
      simp only [List.length_cons]
      omega
    · simp_all

theorem skipOptionalGroup_length_le {table : String} {s rest : Input}
    (h : skipOptionalGroup table s = .ok rest) : rest.length ≤ s.length := by
  unfold skipOptionalGroup at h
  split at h
  · exact skipGroup_length_le h
  · simp_all

/-- What is left from the next comma or closing parenthesis outside of groups, of which `depth` are
open. -/
def skipElement (table : String) : (depth : Nat) → Input → Except ReadError Input
  | _, [] => .error (.unexpectedEnd table)
  | depth, l :: rest =>
    match l.token with
    | .leftParen => skipElement table (depth + 1) rest
    | .semicolon | .finish => .error (.unexpectedEnd table)
    | .rightParen =>
      match depth with
      | 0 => .ok (l :: rest)
      | depth + 1 => skipElement table depth rest
    | .comma =>
      match depth with
      | 0 => .ok (l :: rest)
      | depth + 1 => skipElement table (depth + 1) rest
    | _ => skipElement table depth rest

theorem skipElement_length_le {table : String} {depth : Nat} {s rest : Input}
    (h : skipElement table depth s = .ok rest) : rest.length ≤ s.length := by
  fun_induction skipElement table depth s <;> simp_all <;> omega

/-! ## Statements -/

/-- What is left behind the semicolon that ends the current statement. -/
def skipStatement : Input → Input
  | [] => []
  | l :: rest =>
    match l.token with
    | .semicolon => rest
    | .finish => l :: rest
    | _ => skipStatement rest

theorem skipStatement_length_le (s : Input) : (skipStatement s).length ≤ s.length := by
  fun_induction skipStatement s <;> simp_all
  omega

/-! ## Lists of columns -/

/-- The names of a list of columns from behind its opening parenthesis. Of each part between
commas the first name counts; groups, of which `depth` are open, and anything else is skipped. The
flag says that the name of the current part is still to come. -/
def columnNames (table : String) : (depth : Nat) → Bool → Input → Reading (List String)
  | _, _, [] => .error (.unexpectedEnd table)
  | depth, awaiting, l :: rest =>
    match l.token with
    | .leftParen => columnNames table (depth + 1) awaiting rest
    | .semicolon | .finish => .error (.unexpectedEnd table)
    | .rightParen =>
      match depth with
      | 0 => .ok ([], rest)
      | depth + 1 => columnNames table depth awaiting rest
    | .comma => columnNames table depth (awaiting || depth == 0) rest
    | t =>
      match depth, awaiting, t.name? with
      | 0, true, some name =>
        (columnNames table 0 false rest).map fun (names, left) => (name :: names, left)
      | _, _, _ => columnNames table depth awaiting rest

/-- What is left behind the words that may come before a list of columns. -/
def skipListName : Input → Input
  | [] => []
  | l :: rest =>
    match l.token with
    | .keyword .key | .keyword .index | .word _ | .quoted _ => skipListName rest
    | _ => l :: rest

/-- A list of columns, which the kind and the name of an index may precede. -/
def columnList (table : String) (s : Input) : Reading (List String) :=
  match skipListName s with
  | [] => .error (Input.expected [] "'('")
  | l :: rest =>
    if l.token = .leftParen then columnNames table 0 true rest
    else .error (Input.expected (l :: rest) "'('")

theorem columnNames_length_lt {table : String} {depth : Nat} {awaiting : Bool} {s rest : Input}
    {names : List String} (h : columnNames table depth awaiting s = .ok (names, rest)) :
    rest.length < s.length := by
  fun_induction columnNames table depth awaiting s generalizing names with
  | case8 =>
    rename_i ih
    obtain ⟨⟨names', left⟩, hr, he⟩ := eq_ok_of_map_eq_ok h
    obtain ⟨-, rfl⟩ := Prod.mk.injEq .. ▸ he
    exact Nat.lt_succ_of_lt (ih hr)
  | _ => simp_all <;> omega

theorem skipListName_length_le (s : Input) : (skipListName s).length ≤ s.length := by
  fun_induction skipListName s <;> simp_all <;> omega

theorem columnList_length_lt {table : String} {s rest : Input} {names : List String}
    (h : columnList table s = .ok (names, rest)) : rest.length < s.length := by
  have hs := skipListName_length_le s
  unfold columnList at h
  split at h
  · simp at h
  · rename_i l r hr
    rw [hr] at hs
    split at h
    · have := columnNames_length_lt h
      simp only [List.length_cons] at hs
      omega
    · simp at h

end SchemaAudit.Ddl
