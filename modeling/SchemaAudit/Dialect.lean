import SchemaAudit.Text.Classes
import SchemaAudit.Text.LetterCase
import SchemaAudit.Text.Search

/-!
# Dialects

The dialects in which a dump may be written, their names, and the guess at the dialect of a text
from words that only one of them uses.
-/

namespace SchemaAudit

inductive Dialect where
  | mySql
  | postgres
  | msSql
  deriving DecidableEq, Repr

namespace Dialect

/-- The name of a dialect in messages and answers. -/
def name : Dialect → String
  | mySql => "mysql"
  | postgres => "postgres"
  | msSql => "mssql"

/-- The dialect with a name or one of its aliases, in any letter case and with blanks around. -/
def ofName? (s : String) : Option Dialect :=
  let key := String.ofList (Text.toLower (Text.trim s.toList))
  if key = "mysql" ∨ key = "mariadb" then some mySql
  else if key = "postgres" ∨ key = "postgresql" ∨ key = "pg" then some postgres
  else if key = "mssql" ∨ key = "sqlserver" ∨ key = "tsql" then some msSql
  else none

/-- Words that show a dialect, in the order in which they are looked for. -/
def marks : List (String × Dialect) :=
  [("mysql dump", mySql), ("mysqldump", mySql), ("-- mysql", mySql),
   ("postgresql database dump", postgres), ("pg_dump", postgres),
   ("\x60", mySql), ("auto_increment", mySql), ("engine=", mySql), ("unsigned", mySql),
   ("identity(", msSql), ("nvarchar", msSql), ("datetime2", msSql), ("[dbo]", msSql)]

/-- The dialect of the first mark that occurs in the text in any letter case. -/
def detect (sql : String) : Dialect :=
  let text := Text.toLower sql.toList
  match marks.find? fun mark => Text.contains mark.1.toList text with
  | some mark => mark.2
  | none => postgres

end Dialect

end SchemaAudit
