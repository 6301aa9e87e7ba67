import SchemaAudit.Text.LetterCase

/-!
# Reserved words

Words that a query language keeps for itself. A name is reserved when its upper case is one of
them.
-/

namespace SchemaAudit

/-- The reserved words of the standard and of the common dialects. -/
def reservedWords : List String :=
  ["ABS", "ACCESSIBLE", "ALL", "ALLOCATE", "ALTER", "ANALYZE", "AND", "ANY", "ARE", "ARRAY",
   "ARRAY_AGG", "AS", "ASC", "ASENSITIVE", "ASYMMETRIC", "AT", "ATOMIC", "AUTHORIZATION", "AVG",
   "BACKUP", "BEGIN", "BETWEEN", "BIGINT", "BINARY", "BLOB", "BOOLEAN", "BOTH", "BREAK", "BROWSE",
   "BULK", "BY", "CALL", "CALLED", "CARDINALITY", "CASCADE", "CASCADED", "CASE", "CAST", "CEIL",
   "CEILING", "CHANGE", "CHAR", "CHARACTER", "CHECK", "CHECKPOINT", "CLOB", "CLOSE", "CLUSTERED",
   "COALESCE", "COLLATE", "COLLECT", "COLUMN", "COMMIT", "COMPUTE", "CONDITION", "CONNECT",
   "CONSTRAINT", "CONTAINS", "CONTINUE", "CONVERT", "CORR", "CORRESPONDING", "COUNT", "COVAR_POP",
   "COVAR_SAMP", "CREATE", "CROSS", "CUBE", "CUME_DIST", "CURRENT", "CURRENT_DATE",
   "CURRENT_ROLE", "CURRENT_TIME", "CURRENT_TIMESTAMP", "CURRENT_USER", "CURSOR", "CYCLE",
   "DATABASE", "DATABASES", "DATE", "DAY", "DBCC", "DEALLOCATE", "DEC", "DECIMAL", "DECLARE",
   "DEFAULT", "DELAYED", "DELETE", "DENSE_RANK", "DENY", "DEREF", "DESC", "DESCRIBE",
   "DETERMINISTIC", "DISCONNECT", "DISK", "DISTINCT", "DISTRIBUTED", "DIV", "DO", "DOUBLE",
   "DROP", "DUAL", "DUMP", "DYNAMIC", "EACH", "ELEMENT", "ELSE", "ELSEIF", "END", "END-EXEC",
   "ERRLVL", "ESCAPE", "ESCAPED", "EVERY", "EXCEPT", "EXEC", "EXECUTE", "EXISTS", "EXIT", "EXP",
   "EXPLAIN", "EXTERNAL", "EXTRACT", "FALSE", "FETCH", "FILE", "FILLFACTOR", "FILTER", "FLOAT",
   "FLOOR", "FOR", "FORCE", "FOREIGN", "FREE", "FREETEXT", "FROM", "FULL", "FULLTEXT", "FUNCTION",
   "FUSION", "GET", "GLOBAL", "GOTO", "GRANT", "GROUP", "GROUPING", "HAVING", "HOLD", "HOLDLOCK",
   "HOUR", "IDENTITY", "IDENTITY_INSERT", "IF", "IGNORE", "ILIKE", "IN", "INDEX", "INDICATOR",
   "INNER", "INOUT", "INSENSITIVE", "INSERT", "INT", "INTEGER", "INTERSECT", "INTERSECTION",
   "INTERVAL", "INTO", "IS", "ITERATE", "JOIN", "KEY", "KEYS", "KILL", "LAG", "LANGUAGE", "LARGE",
   "LAST_VALUE", "LATERAL", "LEAD", "LEADING", "LEAVE", "LEFT", "LIKE", "LIMIT", "LINENO",
   "LINES", "LN", "LOAD", "LOCAL", "LOCALTIME", "LOCALTIMESTAMP", "LOCK", "LONG", "LOOP", "LOWER",
   "MATCH", "MAX", "MEMBER", "MERGE", "METHOD", "MIN", "MINUTE", "MOD", "MODIFIES", "MODULE",
   "MONTH", "MULTISET", "NATIONAL", "NATURAL", "NCHAR", "NCLOB", "NEW", "NO", "NOCHECK",
   "NONCLUSTERED", "NONE", "NORMALIZE", "NOT", "NTH_VALUE", "NTILE", "NULL", "NULLIF", "NUMERIC",
   "OCTET_LENGTH", "OF", "OFF", "OFFSET", "OFFSETS", "OLD", "ON", "ONLY", "OPEN",
   "OPENDATASOURCE", "OPENQUERY", "OPENROWSET", "OPENXML", "OPTIMIZE", "OPTION", "OR", "ORDER",
   "OUT", "OUTER", "OUTFILE", "OVER", "OVERLAPS", "OVERLAY", "PARAMETER", "PARTITION", "PERCENT",
   "PERCENTILE_CONT", "PERCENTILE_DISC", "PERCENT_RANK", "PERIOD", "PIVOT", "PLAN", "PORTION",
   "POSITION", "POWER", "PRECEDES", "PRECISION", "PREPARE", "PRIMARY", "PRINT", "PROC",
   "PROCEDURE", "PUBLIC", "PURGE", "RAISERROR", "RANGE", "RANK", "READ", "READS", "READTEXT",
   "REAL", "RECONFIGURE", "RECURSIVE", "REF", "REFERENCES", "REFERENCING", "REGEXP", "RELEASE",
   "RENAME", "REPEAT", "REPLACE", "REPLICATION", "REQUIRE", "RESIGNAL", "RESTORE", "RESTRICT",
   "RESULT", "RETURN", "RETURNING", "RETURNS", "REVERT", "REVOKE", "RIGHT", "RLIKE", "ROLLBACK",
   "ROLLUP", "ROW", "ROWCOUNT", "ROWGUIDCOL", "ROWS", "ROW_NUMBER", "RULE", "SAVE", "SAVEPOINT",
   "SCHEMA", "SCHEMAS", "SCOPE", "SCROLL", "SEARCH", "SECOND", "SELECT", "SENSITIVE", "SEPARATOR",
   "SESSION_USER", "SET", "SETUSER", "SHOW", "SHUTDOWN", "SIGNAL", "SIMILAR", "SMALLINT", "SOME",
   "SPATIAL", "SPECIFIC", "SQL", "SQLEXCEPTION", "SQLSTATE", "SQLWARNING", "SQRT", "START",
   "STATIC", "STATISTICS", "STDDEV_POP", "STDDEV_SAMP", "SUBMULTISET", "SUBSTRING", "SUM",
   "SYMMETRIC", "SYSTEM", "SYSTEM_USER", "TABLE", "TABLESAMPLE", "TEXTSIZE", "THEN", "TIME",
   "TIMESTAMP", "TIMEZONE_HOUR", "TIMEZONE_MINUTE", "TO", "TOP", "TRAILING", "TRAN",
   "TRANSACTION", "TRANSLATE", "TREAT", "TRIGGER", "TRIM", "TRUE", "TRUNCATE", "TRY_CONVERT",
   "TSEQUAL", "UESCAPE", "UNION", "UNIQUE", "UNKNOWN", "UNLOCK", "UNNEST", "UNPIVOT", "UNSIGNED",
   "UPDATE", "UPDATETEXT", "UPPER", "USAGE", "USE", "USER", "USING", "VALUE", "VALUES",
   "VARBINARY", "VARCHAR", "VARIADIC", "VARYING", "VAR_POP", "VAR_SAMP", "VERBOSE", "VIEW",
   "WAITFOR", "WHEN", "WHENEVER", "WHERE", "WHILE", "WIDTH_BUCKET", "WINDOW", "WITH", "WITHIN",
   "WITHOUT", "WRITE", "WRITETEXT", "XOR", "YEAR", "ZEROFILL"]

def isReserved (name : String) : Bool := reservedWords.contains (upper name)

end SchemaAudit
