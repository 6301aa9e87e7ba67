import SchemaAudit.Toml.Number

/-!
# Reading settings files

A file is a list of lines: assignments of values to dotted keys, headers of tables, and comments.
They are carried out in order; a key that is taken already, or a table that may not be opened or
extended, makes the file as a whole invalid.
-/

namespace SchemaAudit.Toml

open Reader

/-- The greatest number of parts of a key, and of arrays and tables within each other. -/
def depthLimit : Nat := 79

/-- One part of a key. -/
def keyPart : Reader String :=
  keyText <|> (String.ofList <$> span1 fun c => c.isAlphanum || c == '-' || c == '_')

/-- A dotted key: the parts before the last one, and the last. -/
def key : Reader (List String × String) := do
  let first ← spaced keyPart
  let more ← many (do char '.'; spaced keyPart)
  let parts := first :: more
  if parts.length ≤ depthLimit then return (parts.dropLast, parts.getLast (List.cons_ne_nil _ _))
  else failure
where
  spaced (r : Reader String) : Reader String := do
    spaces
    let part ← r
    spaces
    return part

def comment : Reader Unit := do
  char '#'
  let _ ← span isPlain

/-- What may stand between the values of an array. -/
def arraySpace : Reader Unit := do
  let _ ← many ((do let _ ← span1 isSpace) <|> newLine <|> comment)

/-- A dotted key and its value, where values are read by the given reader. -/
def assignment (value : Reader Toml) : Reader (List String × String × Toml) := do
  let (path, last) ← key
  char '='
  spaces
  return (path, last, ← value)

/-- Values between brackets. A comma may stand behind the last one. -/
def bracketed (value : Reader Toml) : Reader Toml := do
  char '['
  arraySpace
  let first ← Reader.optional value
  arraySpace
  match first with
  | none =>
    char ']'
    return .array []
  | some first =>
    let more ← many do
      char ','
      arraySpace
      let v ← value
      arraySpace
      return v
    let _ ← Reader.optional (char ',')
    arraySpace
    char ']'
    return .array (first :: more)

/-- Assignments between braces, on one line. -/
def braced (value : Reader Toml) : Reader Toml := do
  satisfy fun c => c.toNat == 123
  let first ← Reader.optional item
  let more ← match first with
    | none => pure []
    | some _ => many (do char ','; item)
  spaces
  satisfy fun c => c.toNat == 125
  match (first.toList ++ more).foldlM add [] with
  | some entries => return .table .inline entries
  | none => failure
where
  satisfy (p : Char → Bool) : Reader Unit := do
    let _ ← Reader.satisfy p
  item : Reader (List String × String × Toml) := do
    let parts ← assignment value
    spaces
    return parts
  add (entries : Entries) (parts : List String × String × Toml) : Option Entries :=
    assign .inline entries parts.1 parts.2.1 parts.2.2

/-- A value that holds no others. -/
def simpleValue : Reader Toml :=
  (.string <$> text) <|> (do word "true"; return .boolean true)
    <|> (do word "false"; return .boolean false) <|> number

/-- A value with at most `depth` arrays and tables within each other. -/
def value : (depth : Nat) → Reader Toml
  | 0 => simpleValue
  | depth + 1 => simpleValue <|> bracketed (value depth) <|> braced (value depth)

/-- What a line of a file does. -/
inductive Line where
  | blank
  | assignment (path : List String) (key : String) (value : Toml)
  | table (path : List String) (key : String)
  | item (path : List String) (key : String)

/-- The end of a line, with a comment before it. -/
def lineEnd : Reader Unit := do
  spaces
  let _ ← Reader.optional comment
  newLine <|> atEnd

/-- A header in brackets or in double brackets. -/
def header : Reader Line :=
  (do
    word "[["
    let (path, last) ← key
    word "]]"
    return .item path last)
  <|> do
    char '['
    let (path, last) ← key
    char ']'
    return .table path last

/-- What stands on a line that is not blank. -/
def content : Reader Line :=
  header <|> do
    let (path, last, v) ← assignment (value depthLimit)
    return .assignment path last v

def line : Reader Line := do
  spaces
  let found ← Reader.optional content
  lineEnd
  return found.getD .blank

/-- All lines of a file. A mark of the byte order may stand before them. -/
def lines : Reader (List Line) := do
  let _ ← Reader.optional (char '\ufeff')
  let found ← many line
  atEnd
  return found

/-- What has been read of a file: its tables, and the header of the one that is open. -/
structure Draft where
  root : Entries
  opened : List String

/-- The draft after a line. -/
def Draft.add (d : Draft) : Line → Option Draft
  | .blank => some d
  | .assignment path key v => do
    let change := fun origin entries => assign origin entries path key v
    let root ← alterUnder change d.root d.opened
    return { d with root }
  | .table path key => do
    let root ← openTable d.root path key
    return ⟨root, path ++ [key]⟩
  | .item path key => do
    let root ← openItem d.root path key
    return ⟨root, path ++ [key]⟩

/-- The table that a file describes, if it is valid. -/
def read (file : String) : Option Entries := do
  let found ← lines.value? file.toList
  let draft ← found.foldlM Draft.add ⟨[], []⟩
  return draft.root

end SchemaAudit.Toml
