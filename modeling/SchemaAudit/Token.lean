import SchemaAudit.Text.LetterCase
import SchemaAudit.Text.Quoted

/-!
# Tokens of the data definition language

A word is a keyword when its upper case is one. Quoted identifiers are never keywords. The kind of
a token and its description in messages are given here; reading tokens from text is in
`SchemaAudit.Token.Scan`.
-/

namespace SchemaAudit

/-- Words that the grammar of declarations gives a meaning of its own. -/
inductive Keyword where
  | create | alter | add | table | only | primary | key | foreign | references | not | null
  | unique | default | on | constraint | index | if | exists | check
  deriving DecidableEq, Repr

namespace Keyword

def all : List Keyword :=
  [create, alter, add, table, only, primary, key, foreign, references, not, null, unique,
   default, on, constraint, index, .if, .exists, check]

/-- The keyword in upper case. -/
def spelling : Keyword → String
  | create => "CREATE"
  | alter => "ALTER"
  | add => "ADD"
  | table => "TABLE"
  | only => "ONLY"
  | primary => "PRIMARY"
  | key => "KEY"
  | foreign => "FOREIGN"
  | references => "REFERENCES"
  | not => "NOT"
  | null => "NULL"
  | unique => "UNIQUE"
  | default => "DEFAULT"
  | on => "ON"
  | constraint => "CONSTRAINT"
  | index => "INDEX"
  | .if => "IF"
  | .exists => "EXISTS"
  | check => "CHECK"

/-- The name of the keyword's kind. -/
def kind : Keyword → String
  | create => "Create"
  | alter => "Alter"
  | add => "Add"
  | table => "Table"
  | only => "Only"
  | primary => "Primary"
  | key => "Key"
  | foreign => "Foreign"
  | references => "References"
  | not => "Not"
  | null => "Null"
  | unique => "Unique"
  | default => "Default"
  | on => "On"
  | constraint => "Constraint"
  | index => "Index"
  | .if => "If"
  | .exists => "Exists"
  | check => "Check"

/-- The keyword that a word spells in upper case. -/
def ofWord? (word : List Char) : Option Keyword :=
  let spelled := Text.toUpper word
  all.find? fun k => k.spelling.toList == spelled

end Keyword

inductive Token where
  | keyword (k : Keyword)
  /-- A bare word that is no keyword. -/
  | word (name : String)
  /-- An identifier in double quotes, back quotes or brackets. -/
  | quoted (name : String)
  /-- A string literal, with its escapes resolved. -/
  | literal (value : String)
  /-- A number as it is written. -/
  | number (digits : String)
  | leftParen
  | rightParen
  | comma
  | semicolon
  | dot
  /-- Any other character. -/
  | symbol (c : Char)
  | finish
  deriving DecidableEq, Repr

/-- A token and the byte at which it starts. -/
structure Lexeme where
  token : Token
  offset : Nat
  deriving DecidableEq, Repr

namespace Token

/-- The name that a bare or quoted identifier stands for. -/
def name? : Token → Option String
  | word s | quoted s => some s
  | _ => none

/-- Whether the token is the given bare word, up to the case of ASCII letters. -/
def isWord (spelled : String) : Token → Bool
  | word s => Text.sameIgnoringAsciiCase s.toList spelled.toList
  | _ => false

/-- The name of the token's kind. -/
def kind : Token → String
  | keyword k => k.kind
  | word _ => "Ident"
  | quoted _ => "Quoted"
  | literal _ => "Str"
  | number _ => "Num"
  | leftParen => "LParen"
  | rightParen => "RParen"
  | comma => "Comma"
  | semicolon => "Semicolon"
  | dot => "Dot"
  | symbol _ => "Symbol"
  | finish => "Eof"

/-- The text that a token carries besides its kind. -/
def text? : Token → Option String
  | word s | quoted s | literal s | number s => some s
  | symbol c => some (String.singleton c)
  | _ => none

/-- The token as messages show it: its kind, with what it carries in parentheses. -/
def describe : Token → String
  | word s => "Ident(" ++ quote s ++ ")"
  | quoted s => "Quoted(" ++ quote s ++ ")"
  | literal s => "Str(" ++ quote s ++ ")"
  | number s => "Num(" ++ quote s ++ ")"
  | symbol c => "Symbol(" ++ String.ofList (Text.quotedLetter c) ++ ")"
  | t => t.kind
where
  quote (s : String) : String := String.ofList (Text.quoted s.toList)

end Token

end SchemaAudit
