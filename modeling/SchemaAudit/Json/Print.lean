import SchemaAudit.Json.Value

/-!
# Writing values

A value is written without blanks, or with every item and member on a line of its own. In a text
only quotes, backslashes and control characters are escaped.
-/

namespace SchemaAudit.Json

/-- A hexadecimal digit in lower case. -/
def hexDigit (n : Nat) : Char := if n < 10 then Char.ofNat (48 + n) else Char.ofNat (87 + n)

/-- One character of a text. -/
def escapedChar (c : Char) : List Char :=
  if c = '\x22' then ['\\', '\x22']
  else if c = '\\' then ['\\', '\\']
  else if c = '\x08' then ['\\', 'b']
  else if c = '\x0c' then ['\\', 'f']
  else if c = '\n' then ['\\', 'n']
  else if c = '\r' then ['\\', 'r']
  else if c = '\t' then ['\\', 't']
  else if c.toNat < 32 then
    ['\\', 'u', '0', '0', hexDigit (c.toNat / 16), hexDigit (c.toNat % 16)]
  else [c]

/-- A text in quotes. -/
def stringText (s : String) : List Char :=
  '\x22' :: s.toList.flatMap escapedChar ++ ['\x22']

def openBrace : Char := Char.ofNat 123

def closeBrace : Char := Char.ofNat 125

def faultText : List Char := "null".toList

mutual

/-- A value without blanks. What is no value is written as `null`. -/
def compact : Json → List Char
  | .null => "null".toList
  | .bool true => "true".toList
  | .bool false => "false".toList
  | .number n => n.text
  | .string s => stringText s
  | .array items _ => '[' :: Text.join [','] (compactItems items) ++ [']']
  | .object members _ => openBrace :: Text.join [','] (compactMembers members) ++ [closeBrace]
  | .keyless _ => faultText
  | .meaningless => faultText
  | .broken _ => faultText

def compactItems : List Json → List (List Char)
  | [] => []
  | item :: rest => compact item :: compactItems rest

def compactMembers : List (Key × Json) → List (List Char)
  | [] => []
  | (key, value) :: rest =>
    (stringText (key.text) ++ ':' :: compact value) :: compactMembers rest

end

/-- A line break and the blanks before what stands at a depth. -/
def newLine (depth : Nat) : List Char := '\n' :: List.replicate (2 * depth) ' '

/-- Parts between brackets, each on a line of its own; nothing between them where there are
none. -/
def block (opening closing : Char) (depth : Nat) (parts : List (List Char)) : List Char :=
  if parts.isEmpty then [opening, closing]
  else
    opening :: Text.join [','] (parts.map fun part => newLine (depth + 1) ++ part)
      ++ newLine depth ++ [closing]

mutual

/-- A value over several lines, at a depth. -/
def prettyAt (depth : Nat) : Json → List Char
  | .null => "null".toList
  | .bool true => "true".toList
  | .bool false => "false".toList
  | .number n => n.text
  | .string s => stringText s
  | .array items _ => block '[' ']' depth (prettyItems (depth + 1) items)
  | .object members _ => block openBrace closeBrace depth (prettyMembers (depth + 1) members)
  | .keyless _ => faultText
  | .meaningless => faultText
  | .broken _ => faultText

def prettyItems (depth : Nat) : List Json → List (List Char)
  | [] => []
  | item :: rest => prettyAt depth item :: prettyItems depth rest

def prettyMembers (depth : Nat) : List (Key × Json) → List (List Char)
  | [] => []
  | (key, value) :: rest =>
    (stringText (key.text) ++ ':' :: ' ' :: prettyAt depth value) :: prettyMembers depth rest

end

/-- The text of a value, over several lines or in one. -/
def print (pretty : Bool) (j : Json) : String :=
  String.ofList (if pretty then prettyAt 0 j else compact j)

end SchemaAudit.Json
