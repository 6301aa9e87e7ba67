import SchemaAudit.Dialect

/-!
# Column types

Every dialect spells its types in its own way. A canonical type is lower case and one word, with
the arguments in parentheses only where the size matters, and two brackets at the end for an array.
-/

namespace SchemaAudit.TypeName

/-- A written type in its parts. -/
structure Parts where
  /-- The words before and behind the arguments. -/
  base : List Char
  /-- The text from the first parenthesis on, without blanks. -/
  arguments : List Char
  isArray : Bool

/-- The text behind the last occurrence of a character. -/
def afterLast? (mark : Char) (s : List Char) : Option (List Char) :=
  (Text.cutAt? mark s.reverse).map fun (behind, _) => behind.reverse

/-- The text without two brackets at its end, if it has them. -/
def withoutBrackets? (s : List Char) : Option (List Char) :=
  match s.reverse with
  | ']' :: '[' :: before => some before.reverse
  | _ => none

/-- The words before the arguments, and the arguments themselves. -/
def splitArguments (s : List Char) : List Char × List Char :=
  match Text.cutAt? '(' s with
  | some (before, behind) => (Text.trim before, ('(' :: behind).filter fun c => !Text.isBlank c)
  | none => (s, [])

def parts (written : List Char) : Parts :=
  let text := Text.toLower (Text.trim written)
  let element := match withoutBrackets? text with
    | some inner => Text.trimEnd inner
    | none => text
  let (before, arguments) := splitArguments element
  let trailing := Text.trim ((afterLast? ')' element).getD [])
  { base := if trailing.isEmpty then before else before ++ ' ' :: trailing
    arguments
    isArray := (withoutBrackets? text).isSome }

/-- Names in one dialect, with what they become. -/
def mySqlNames : List (String × String) :=
  [("tinyint", "smallint"), ("mediumint", "integer"), ("double", "double"),
   ("tinytext", "text"), ("mediumtext", "text"), ("longtext", "text"),
   ("blob", "blob"), ("longblob", "blob"), ("mediumblob", "blob"), ("tinyblob", "blob"),
   ("enum", "enum"), ("set", "enum"), ("year", "smallint")]

def postgresNames : List (String × String) :=
  [("serial", "integer"), ("serial4", "integer"), ("bigserial", "bigint"),
   ("serial8", "bigint"), ("smallserial", "smallint"), ("serial2", "smallint"),
   ("bytea", "bytea"), ("jsonb", "jsonb"), ("bpchar", "char"),
   ("timestamptz", "timestamptz"), ("timestamp with time zone", "timestamptz"),
   ("timetz", "time"), ("time with time zone", "time"),
   ("inet", "inet"), ("cidr", "inet"), ("macaddr", "inet")]

def msSqlNames : List (String × String) :=
  [("bit", "boolean"), ("nvarchar", "varchar"), ("nchar", "char"), ("ntext", "text"),
   ("datetime2", "timestamp"), ("smalldatetime", "timestamp"), ("datetimeoffset", "timestamp"),
   ("uniqueidentifier", "uuid"), ("image", "varbinary"), ("smallmoney", "money"),
   ("tinyint", "smallint")]

/-- Names that mean the same in every dialect. -/
def sharedNames : List (String × String) :=
  [("int", "integer"), ("int4", "integer"), ("integer", "integer"),
   ("bigint", "bigint"), ("int8", "bigint"),
   ("smallint", "smallint"), ("int2", "smallint"),
   ("real", "real"), ("float4", "real"), ("float", "float"),
   ("double precision", "double"), ("float8", "double"), ("double", "double"),
   ("decimal", "decimal"), ("numeric", "decimal"), ("dec", "decimal"),
   ("money", "money"),
   ("varchar", "varchar"), ("character varying", "varchar"), ("varchar2", "varchar"),
   ("char", "char"), ("character", "char"),
   ("text", "text"), ("clob", "text"),
   ("timestamp", "timestamp"), ("datetime", "timestamp"),
   ("timestamp without time zone", "timestamp"),
   ("date", "date"), ("time", "time"), ("time without time zone", "time"),
   ("interval", "interval"), ("boolean", "boolean"), ("bool", "boolean"),
   ("blob", "blob"), ("binary", "varbinary"), ("varbinary", "varbinary"),
   ("uuid", "uuid"), ("json", "json"), ("xml", "xml")]

/-- The name that a dialect gives a meaning of its own. One digit in parentheses makes a truth
value of a tiny integer. -/
def ofDialect? (dialect : Dialect) (base : String) (arguments : List Char) : Option String :=
  match dialect with
  | .mySql =>
    if base = "tinyint" ∧ String.ofList arguments = "(1)" then some "boolean"
    else mySqlNames.lookup base
  | .postgres => postgresNames.lookup base
  | .msSql => msSqlNames.lookup base

/-- The parts of a text between runs of blanks. -/
def words (s : List Char) : List (List Char) :=
  (s.splitOnP Text.isBlank).filter fun word => !word.isEmpty

/-- The name that a type has in every dialect; an unknown one keeps its words, glued together. -/
def shared (base : List Char) : String :=
  match sharedNames.lookup (String.ofList base) with
  | some name => name
  | none => String.ofList (Text.join ['_'] (words base))

/-- Types whose arguments are kept. -/
def keepsArguments (name : String) : Bool :=
  ["varchar", "char", "decimal", "varbinary", "binary"].contains name

/-- The canonical type for a type as it is written in a dialect: `map_type`. -/
def canonical (dialect : Dialect) (written : String) : String :=
  let p := parts written.toList
  let name := (ofDialect? dialect (String.ofList p.base) p.arguments).getD (shared p.base)
  let sized := if keepsArguments name then name ++ String.ofList p.arguments else name
  if p.isArray then sized ++ "[]" else sized

end SchemaAudit.TypeName
