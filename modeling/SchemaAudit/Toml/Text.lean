import SchemaAudit.Toml.Reader

/-!
# Texts of settings files

A text stands in quotes or apostrophes, on one line, or on several lines between three of them.
Only texts in quotes have escapes.
-/

namespace SchemaAudit.Toml

open Reader

/-- Spaces and tabs. -/
def isSpace (c : Char) : Bool := c == ' ' || c == '\t'

/-- Characters that may stand in texts and comments: all but controls, and the tab. -/
def isPlain (c : Char) : Bool := c == '\t' || (32 ≤ c.toNat && c.toNat != 127)

def spaces : Reader Unit := do
  let _ ← span isSpace

def newLine : Reader Unit := word "\n" <|> word "\r\n"

def quoteMark : Char := '\x22'

def apostrophe : Char := '\x27'

/-- The character of a code in hexadecimal digits. -/
def codeChar (count : Nat) : Reader Char := do
  let digits ← times (fun c => (Text.hexValue? c).isSome) count
  let n := Text.natInBase 16 digits
  if n.isValidChar then return Char.ofNat n else failure

/-- The character that the letter of an escape stands for. -/
def control? (c : Char) : Option Char :=
  if c = 'b' then some '\x08'
  else if c = 't' then some '\t'
  else if c = 'n' then some '\n'
  else if c = 'f' then some '\x0c'
  else if c = 'r' then some '\r'
  else if c = quoteMark then some quoteMark
  else if c = '\\' then some '\\'
  else none

def escape : Reader Char := do
  char '\\'
  let c ← satisfy fun _ => true
  if c = 'u' then codeChar 4
  else if c = 'U' then codeChar 8
  else match control? c with
    | some char => return char
    | none => failure

/-- A backslash at the end of a line takes away all space before the next word. -/
def foldedLine : Reader Unit := do
  char '\\'
  spaces
  newLine
  let _ ← many (newLine <|> (do let _ ← span1 isSpace))

/-- A piece of a text in quotes. -/
def quotedPiece : Reader (List Char) :=
  span1 (fun c => isPlain c && c != quoteMark && c != '\\') <|> (List.singleton <$> escape)

/-- A piece of a text in apostrophes. -/
def literalPiece : Reader (List Char) := span1 fun c => isPlain c && c != apostrophe

/-- A text on one line. -/
def lineText (mark : Char) (piece : Reader (List Char)) : Reader (List Char) := do
  char mark
  let pieces ← many piece
  char mark
  return pieces.flatten

/-- One or two marks inside a text that ends with three of them. -/
def marksInside (mark : Char) : Reader (List Char) := do
  let marks ← span1 (· == mark)
  if marks.length < 3 then return marks else failure

/-- The marks that end a text of several lines. Two of them may belong to the text. -/
def closingMarks (mark : Char) : Reader (List Char) := do
  let marks ← span1 (· == mark)
  if 3 ≤ marks.length ∧ marks.length ≤ 5 then return marks.drop 3 else failure

/-- A text of several lines. A line break behind the opening marks does not count, and every line
break is written as a line feed. -/
def blockText (mark : Char) (piece : Reader (List Char)) : Reader (List Char) := do
  let _ ← times (· == mark) 3
  let _ ← Reader.optional newLine
  let pieces ← many ((do newLine; return ['\n']) <|> piece <|> marksInside mark)
  let closing ← closingMarks mark
  return pieces.flatten ++ closing

def blockPiece : Reader (List Char) := (do foldedLine; return []) <|> quotedPiece

/-- A text on one line, as it may stand in a key. -/
def keyText : Reader String :=
  String.ofList <$> (lineText quoteMark quotedPiece <|> lineText apostrophe literalPiece)

def text : Reader String :=
  (String.ofList <$> (blockText quoteMark blockPiece <|> blockText apostrophe literalPiece))
    <|> keyText

end SchemaAudit.Toml
