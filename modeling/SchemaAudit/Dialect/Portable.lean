import SchemaAudit.Dialect
import SchemaAudit.Pattern

/-!
# Portable declarations

A dump is rewritten into the declarations that all dialects share. Comments go first, because the
text is joined into one line at the end; then the rules of the dialect run in order. A second,
rougher cleaning is there for texts that could not be read after the first. The first is `normalize`
(`portable` here), the second `aggressive_cleanup` (`salvage`).
-/

namespace SchemaAudit.Dialect

open Pattern

/-! ## Parts of rules -/

/-- A text between single quotes, in which a backslash or a second quote protects a quote. -/
def quotedLiteral : Pattern :=
  each [char '\x27',
    many (anyOf [noneOf "\x27\\", each [char '\\', noneOf "\n"], exactly "\x27\x27"]),
    char '\x27']

/-- A name, bare or between double quotes. -/
def identifier : Pattern :=
  anyOf [each [char '\x22', many (noneOf "\x22"), char '\x22'],
    atLeastOne (one fun c => Text.isWordChar c || c = '$')]

/-- A list in parentheses, in which parentheses may be nested once. -/
def columnList : Pattern :=
  each [char '(',
    many (anyOf [noneOf "()", each [char '(', many (noneOf "()"), char ')']]),
    char ')']

def gap : Pattern := atLeastOne blank

/-- What is to happen to a row whose target changes. -/
def referenceActions : Pattern :=
  many (each [gap, letters "ON", gap, anyOf [letters "DELETE", letters "UPDATE"], gap,
    anyOf [phrase ["SET", "NULL"], phrase ["SET", "DEFAULT"], phrase ["NO", "ACTION"],
      letters "CASCADE", letters "RESTRICT"]])

/-- A name with blanks behind it, or nothing. -/
def optionalName : Pattern := optional (each [identifier, blanks])

/-- A size in parentheses. -/
def size : Pattern := each [char '(', blanks, atLeastOne decimal, blanks, char ')']

def becomes (p : Pattern) (s : String) : Pattern := next p (put s.toList)

/-! ## Comments -/

/-- The rule of `strip_comments`: comments go, and one that may stand inside a line leaves a space.
Quoted texts stay, so that what looks like a comment inside them stays too. -/
def comment : Pattern :=
  anyOf [kept quotedLiteral,
    kept (each [char '\x22', many (noneOf "\x22"), char '\x22']),
    kept (each [char '\x60', many (noneOf "\x60"), char '\x60']),
    becomes (each [exactly "/*", few (one fun _ => true), exactly "*/"]) " ",
    each [exactly "--", many (noneOf "\n")],
    each [lineStart, many (anyOf [char ' ', char '\t']), char '#', many (noneOf "\n")]]

/-! ## Rules of each dialect -/

/-- A table named with its database loses the database. -/
def qualifiedTable : Pattern :=
  each [wordEdge,
    kept (anyOf [each [phrase ["CREATE", "TABLE"],
        optional (each [gap, phrase ["IF", "NOT", "EXISTS"]])],
      letters "REFERENCES", phrase ["ALTER", "TABLE"], phrase ["INSERT", "INTO"]]),
    put [' '], gap, identifier, char '.', kept identifier]

/-- A table option with its value. -/
def tableOption (name : String) (value : Pattern) : Pattern :=
  each [blanks, wordEdge, letters name, blanks, char '=', blanks, atLeastOne value]

def characterSet : Pattern :=
  each [blanks, wordEdge, optional (each [letters "DEFAULT", gap]),
    anyOf [letters "CHARSET", phrase ["CHARACTER", "SET"]], blanks, optional (char '='), blanks,
    atLeastOne wordChar]

def collation : Pattern :=
  each [blanks, wordEdge, letters "COLLATE", blanks, optional (char '='), blanks,
    atLeastOne wordChar]

/-- Types whose size says nothing. -/
def sized (types : List String) (name : String) : Pattern :=
  becomes (each [wordEdge, anyOf (types.map letters), blanks, size]) name

/-- A comma before a closing parenthesis. -/
def danglingComma : Pattern := becomes (each [char ',', blanks, char ')']) ")"

def indexKind : Pattern :=
  optional (anyOf [each [letters "UNIQUE", gap], each [letters "FULLTEXT", gap],
    each [letters "SPATIAL", gap]])

def inlineIndex : Pattern :=
  each [char ',', blanks, indexKind, anyOf [letters "KEY", letters "INDEX"], blanks, optionalName,
    columnList, optional (each [blanks, letters "USING", gap, atLeastOne wordChar])]

def targetColumns : Pattern :=
  each [letters "REFERENCES", gap, identifier, optional (each [char '.', identifier]), blanks,
    columnList]

def foreignKey : Pattern :=
  each [char ',', blanks, optional (each [letters "CONSTRAINT", gap, identifier, gap]),
    phrase ["FOREIGN", "KEY"], blanks, optionalName, columnList, blanks, targetColumns,
    referenceActions]

def uniqueConstraint : Pattern :=
  each [char ',', blanks, letters "CONSTRAINT", gap, identifier, gap, letters "UNIQUE",
    optional (each [gap, anyOf [letters "KEY", letters "INDEX"]]), blanks, optionalName,
    columnList]

/-- The parentheses that may follow the name of a point in time. -/
def precision : Pattern := each [blanks, char '(', blanks, many decimal, blanks, char ')']

def zeroDate : Pattern :=
  each [wordEdge, letters "DEFAULT", gap, exactly "\x270000-00-00",
    optional (each [anyOf [char ' ', letters "T"], exactly "00:00:00",
      optional (each [char '.', atLeastOne (char '0')])]),
    char '\x27']

def mySqlRules : List Pattern :=
  [becomes (char '\x60') "\x22",
   qualifiedTable,
   tableOption "ENGINE" wordChar,
   characterSet,
   collation,
   tableOption "AUTO_INCREMENT" decimal,
   each [blanks, wordEdge, letters "AUTO_INCREMENT", wordEdge],
   tableOption "ROW_FORMAT" wordChar,
   each [gap, anyOf [letters "UNSIGNED", letters "ZEROFILL"], wordEdge],
   each [blanks, wordEdge, letters "COMMENT", blanks, optional (char '='), blanks, quotedLiteral],
   sized ["int", "integer", "mediumint"] "INTEGER",
   sized ["tinyint", "smallint"] "SMALLINT",
   sized ["bigint"] "BIGINT",
   becomes (each [wordEdge, letters "datetime", wordEdge, optional (each [blanks, size])])
     "TIMESTAMP",
   becomes (each [wordEdge, optional (anyOf [letters "tiny", letters "medium", letters "long"]),
     letters "text", blanks, size]) "TEXT",
   becomes zeroDate "DEFAULT NULL",
   becomes (each [wordEdge, letters "DEFAULT", gap, exactly "\x27\x27"]) "DEFAULT NULL",
   each [gap, phrase ["ON", "UPDATE", "CURRENT_TIMESTAMP"], optional precision],
   becomes (each [wordEdge, letters "CURRENT_TIMESTAMP", precision]) "CURRENT_TIMESTAMP",
   foreignKey,
   uniqueConstraint,
   inlineIndex,
   danglingComma]

/-- A counting type, under either of its names. -/
def serial (names : List Pattern) (type : String) : Pattern :=
  becomes (anyOf (names.map fun name => each [wordEdge, name, wordEdge]))
    (type ++ " GENERATED BY DEFAULT AS IDENTITY")

def postgresRules : List Pattern :=
  [serial [letters "BIGSERIAL", letters "SERIAL8"] "BIGINT",
   serial [letters "SMALLSERIAL", letters "SERIAL2"] "SMALLINT",
   serial [each [letters "SERIAL", optional (char '4')]] "INTEGER"]

def msSqlRules : List Pattern :=
  [each [lineStart, blanks, letters "GO", blanks, optional (char ';'), blanks, lineEnd],
   each [char '[', put ['\x22'], kept (atLeastOne (noneOf "]")), char ']', put ['\x22']],
   becomes (each [wordEdge, letters "IDENTITY", blanks, char '(', blanks, atLeastOne decimal,
     blanks, char ',', blanks, atLeastOne decimal, blanks, char ')'])
     "GENERATED BY DEFAULT AS IDENTITY",
   becomes (each [wordEdge, letters "nvarchar", wordEdge]) "varchar",
   becomes (each [wordEdge, letters "datetime2", wordEdge, optional (each [blanks, size])])
     "timestamp"]

/-- The rules that make declarations in a dialect portable. -/
def rules : Dialect → List Pattern
  | mySql => mySqlRules
  | postgres => postgresRules
  | msSql => msSqlRules

/-- The declarations of a dump in portable form, on one line: `normalize`. -/
def portable (dialect : Dialect) (sql : String) : String :=
  String.ofList (Text.collapse (rewriteAll dialect.rules (comment.rewrite sql.toList)))

/-! ## The second cleaning -/

def namedConstraint : Pattern :=
  each [char ',', blanks, letters "CONSTRAINT", gap, identifier, gap,
    anyOf [letters "UNIQUE", letters "CHECK", phrase ["FOREIGN", "KEY"]], many (noneOf ",()"),
    columnList, optional (each [blanks, targetColumns]), referenceActions]

def anyIndex : Pattern :=
  each [char ',', blanks, indexKind, anyOf [letters "KEY", letters "INDEX"], wordEdge,
    many (noneOf ",()"), columnList, many (noneOf ",()")]

def salvageRules : List Pattern :=
  [namedConstraint, anyIndex, characterSet, collation, danglingComma]

/-- The declarations without named constraints, keys, character sets and dangling commas, for a
text that could not be read with them: `aggressive_cleanup`. -/
def salvage (sql : String) : String :=
  String.ofList (Text.collapse (rewriteAll salvageRules sql.toList))

end SchemaAudit.Dialect
