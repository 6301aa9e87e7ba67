import SchemaAudit.Graph.Basic
import SchemaAudit.Text.Classes

/-!
# Lines of an outline

A line, without the blanks around it, opens a table, closes one, holds a field or a reference, or
is none of these. What stands behind a complete line is not looked at.
-/

namespace SchemaAudit.Outline

/-- Two fields, each with its table, of which the first refers to the second. -/
structure Reference where
  source : String
  sourceField : String
  target : String
  targetField : String
  deriving DecidableEq, Repr

inductive Line where
  | opening (table : String)
  | closing
  | field (f : Field)
  | reference (r : Reference)
  | other
  deriving DecidableEq, Repr

/-- What is left behind blanks, of which there is at least one. -/
def skipGap? : List Char → Option (List Char)
  | [] => none
  | c :: rest => if Text.isBlank c then some (Text.trimStart rest) else none

/-- A name in double quotes that is not empty, and what is left behind it. -/
def quotedName? : List Char → Option (String × List Char)
  | [] => none
  | c :: rest =>
    if c = '\x22' then
      match Text.cutAt? '\x22' rest with
      | some ([], _) | none => none
      | some (name, left) => some (String.ofList name, left)
    else none

/-- A character of a table name without quotes. -/
def isBareChar (c : Char) : Bool := Text.isWordChar c || c = '$' || c = '.'

/-- The name of the table that a line opens. -/
def opening? (line : List Char) : Option String := do
  let rest ← skipGap? (← Text.strip? "Table".toList line)
  match quotedName? rest with
  | some (name, _) => some name
  | none =>
    match rest.takeWhile isBareChar with
    | [] => none
    | name => some (String.ofList name)

/-- What is left behind the name of a reference, if it has one. -/
def skipReferenceName (s : List Char) : List Char :=
  match skipGap? s with
  | none => s
  | some rest => rest.dropWhile fun c => Text.isWordChar c || c = '\x22'

/-- A field with its table, and what is left behind it. -/
def qualifiedField? (s : List Char) : Option ((String × String) × List Char) := do
  let (table, rest) ← quotedName? s
  let (field, left) ← quotedName? (← Text.strip? ['.'] rest)
  some ((table, field), left)

/-- What is left behind the sign of a relationship. -/
def skipSign? : List Char → Option (List Char)
  | [] => none
  | c :: rest => if c = '<' ∨ c = '>' ∨ c = '-' then some rest else none

/-- The reference that a line holds. -/
def reference? (line : List Char) : Option Reference := do
  let rest ← Text.strip? "Ref".toList line
  let rest ← Text.strip? [':'] (Text.trimStart (skipReferenceName rest))
  let ((source, sourceField), rest) ← qualifiedField? (Text.trimStart rest)
  let rest ← skipSign? (Text.trimStart rest)
  let ((target, targetField), _) ← qualifiedField? (Text.trimStart rest)
  some ⟨source, sourceField, target, targetField⟩

/-- The tags in brackets that follow blanks; none where the brackets are missing or open. -/
def tagsAfter (s : List Char) : Tags :=
  let tags? := do
    let (list, _) ← Text.cutAt? ']' (← Text.strip? ['['] (← skipGap? s))
    some (Tags.ofList ((list.splitOn ',').filterMap Tag.ofText?))
  tags?.getD .empty

/-- The field that a line holds. -/
def field? (line : List Char) : Option Field := do
  let (name, rest) ← quotedName? line
  let rest ← skipGap? rest
  match rest.takeWhile fun c => !Text.isBlank c with
  | [] => none
  | type =>
    some ⟨name, String.ofList type, tagsAfter (rest.dropWhile fun c => !Text.isBlank c)⟩

/-- What a line without blanks around it says: `parse_line`. -/
def Line.ofText (line : List Char) : Line :=
  if line = closingBrace then .closing
  else match opening? line with
  | some name => .opening name
  | none =>
    match reference? line with
    | some r => .reference r
    | none =>
      match field? line with
      | some f => .field f
      | none => .other
where
  closingBrace : List Char := [Char.ofNat 125]

end SchemaAudit.Outline
