import Enclave.Sql.Token

/-!
# The keywords of the grammar

A word outside quotes is a keyword of the grammar, in any case, when it stands in the table. Most
rules ask for a keyword by name; the table matters where a rule takes any word that is none.
-/

namespace Enclave.Sql

/-- The word that a token may be a keyword by: in upper case, and empty for every token that is no
word or is quoted. -/
def Token.keyword : Token → String
  | .word w none => Text.asciiUpper w
  | _ => ""

/-- The keywords of the grammar. -/
def keywords : List String :=
  ["ABORT", "ABS", "ABSOLUTE", "ACTION", "ADD", "ADMIN", "AGAINST", "ALL", "ALLOCATE", "ALTER",
   "ALWAYS", "ANALYZE", "AND", "ANTI", "ANY", "APPLY", "ARCHIVE", "ARE", "ARRAY", "ARRAY_AGG",
   "ARRAY_MAX_CARDINALITY", "AS", "ASC", "ASENSITIVE", "ASSERT", "ASYMMETRIC", "AT", "ATOMIC",
   "ATTACH", "AUTHORIZATION", "AUTO", "AUTOINCREMENT", "AUTO_INCREMENT", "AVG", "AVRO", "BACKWARD",
   "BASE64", "BEGIN", "BEGIN_FRAME", "BEGIN_PARTITION", "BERNOULLI", "BETWEEN", "BIGDECIMAL",
   "BIGINT", "BIGNUMERIC", "BINARY", "BLOB", "BOOL", "BOOLEAN", "BOTH", "BTREE", "BY", "BYPASSRLS",
   "BYTEA", "BYTES", "CACHE", "CALL", "CALLED", "CARDINALITY", "CASCADE", "CASCADED", "CASE",
   "CAST", "CEIL", "CEILING", "CENTURY", "CHAIN", "CHANGE", "CHAR", "CHARACTER", "CHARACTERS",
   "CHARACTER_LENGTH", "CHARSET", "CHAR_LENGTH", "CHECK", "CLOB", "CLONE", "CLOSE", "CLUSTER",
   "COALESCE", "COLLATE", "COLLATION", "COLLECT", "COLUMN", "COLUMNS", "COMMENT", "COMMIT",
   "COMMITTED", "COMPRESSION", "COMPUTE", "CONCURRENTLY", "CONDITION", "CONFLICT", "CONNECT",
   "CONNECTION", "CONSTRAINT", "CONTAINS", "CONVERT", "COPY", "COPY_OPTIONS", "CORR",
   "CORRESPONDING", "COUNT", "COVAR_POP", "COVAR_SAMP", "CREATE", "CREATEDB", "CREATEROLE",
   "CREDENTIALS", "CROSS", "CSV", "CUBE", "CUME_DIST", "CURRENT", "CURRENT_CATALOG",
   "CURRENT_DATE", "CURRENT_DEFAULT_TRANSFORM_GROUP", "CURRENT_PATH", "CURRENT_ROLE",
   "CURRENT_ROW", "CURRENT_SCHEMA", "CURRENT_TIME", "CURRENT_TIMESTAMP",
   "CURRENT_TRANSFORM_GROUP_FOR_TYPE", "CURRENT_USER", "CURSOR", "CYCLE", "DATA", "DATABASE",
   "DATA_RETENTION_TIME_IN_DAYS", "DATE", "DATETIME", "DAY", "DAYOFWEEK", "DAYOFYEAR",
   "DEALLOCATE", "DEC", "DECADE", "DECIMAL", "DECLARE", "DEFAULT", "DEFAULT_DDL_COLLATION",
   "DEFERRABLE", "DEFERRED", "DEFINED", "DELAYED", "DELETE", "DELIMITED", "DELIMITER", "DELTA",
   "DENSE_RANK", "DEREF", "DESC", "DESCRIBE", "DETERMINISTIC", "DIRECTORY", "DISABLE", "DISCARD",
   "DISCONNECT", "DISTINCT", "DISTRIBUTE", "DIV", "DO", "DOUBLE", "DOW", "DOY", "DROP", "DRY",
   "DUPLICATE", "DYNAMIC", "EACH", "ELEMENT", "ELEMENTS", "ELSE", "ENABLE", "ENCODING",
   "ENCRYPTION", "END", "ENDPOINT", "END_FRAME", "END_PARTITION", "ENGINE", "ENUM", "EPOCH",
   "EQUALS", "ERROR", "ESCAPE", "ESCAPED", "EVENT", "EVERY", "EXCEPT", "EXCLUDE", "EXCLUSIVE",
   "EXEC", "EXECUTE", "EXISTS", "EXP", "EXPANSION", "EXPLAIN", "EXTENDED", "EXTERNAL", "EXTRACT",
   "FAIL", "FALSE", "FETCH", "FIELDS", "FILE", "FILES", "FILE_FORMAT", "FILTER", "FIRST",
   "FIRST_VALUE", "FLOAT", "FLOAT4", "FLOAT64", "FLOAT8", "FLOOR", "FOLLOWING", "FOR", "FORCE",
   "FORCE_NOT_NULL", "FORCE_NULL", "FORCE_QUOTE", "FOREIGN", "FORMAT", "FORWARD", "FRAME_ROW",
   "FREE", "FREEZE", "FROM", "FULL", "FULLTEXT", "FUNCTION", "FUNCTIONS", "FUSION", "GENERATE",
   "GENERATED", "GEOGRAPHY", "GET", "GLOBAL", "GRANT", "GRANTED", "GRAPHVIZ", "GROUP", "GROUPING",
   "GROUPS", "HASH", "HAVING", "HEADER", "HIVEVAR", "HOLD", "HOUR", "IDENTITY", "IF", "IGNORE",
   "ILIKE", "IMMUTABLE", "IN", "INCLUDE", "INCREMENT", "INDEX", "INDICATOR", "INHERIT", "INNER",
   "INOUT", "INPUTFORMAT", "INSENSITIVE", "INSERT", "INT", "INT2", "INT4", "INT64", "INT8",
   "INTEGER", "INTERSECT", "INTERSECTION", "INTERVAL", "INTO", "IS", "ISODOW", "ISOLATION",
   "ISOWEEK", "ISOYEAR", "JAR", "JOIN", "JSON", "JSONFILE", "JULIAN", "KEY", "KILL", "LAG",
   "LANGUAGE", "LARGE", "LAST", "LAST_VALUE", "LATERAL", "LEAD", "LEADING", "LEFT", "LEVEL",
   "LIKE", "LIKE_REGEX", "LIMIT", "LISTAGG", "LN", "LOAD", "LOCAL", "LOCALTIME", "LOCALTIMESTAMP",
   "LOCATION", "LOCK", "LOCKED", "LOGIN", "LOWER", "LOW_PRIORITY", "MACRO", "MANAGEDLOCATION",
   "MATCH", "MATCHED", "MATERIALIZED", "MAX", "MAXVALUE", "MAX_DATA_EXTENSION_TIME_IN_DAYS",
   "MEDIUMINT", "MEMBER", "MERGE", "METADATA", "METHOD", "MICROSECOND", "MICROSECONDS",
   "MILLENIUM", "MILLENNIUM", "MILLISECOND", "MILLISECONDS", "MIN", "MINUTE", "MINVALUE", "MOD",
   "MODE", "MODIFIES", "MODULE", "MONTH", "MSCK", "MULTISET", "MUTATION", "NAME", "NANOSECOND",
   "NANOSECONDS", "NATIONAL", "NATURAL", "NCHAR", "NCLOB", "NEW", "NEXT", "NO", "NOBYPASSRLS",
   "NOCREATEDB", "NOCREATEROLE", "NOINHERIT", "NOLOGIN", "NONE", "NOREPLICATION", "NORMALIZE",
   "NOSCAN", "NOSUPERUSER", "NOT", "NOTHING", "NOWAIT", "NO_WRITE_TO_BINLOG", "NTH_VALUE",
   "NTILE", "NULL", "NULLIF", "NULLS", "NUMERIC", "NVARCHAR", "OBJECT", "OCCURRENCES_REGEX",
   "OCTETS", "OCTET_LENGTH", "OF", "OFFSET", "OLD", "ON", "ONLY", "OPEN", "OPERATOR",
   "OPTIMIZER_COSTS", "OPTION", "OPTIONS", "OR", "ORC", "ORDER", "OUT", "OUTER", "OUTPUTFORMAT",
   "OVER", "OVERFLOW", "OVERLAPS", "OVERLAY", "OVERWRITE", "OWNED", "OWNER", "PARAMETER",
   "PARQUET", "PARTITION", "PARTITIONED", "PARTITIONS", "PASSWORD", "PERCENT", "PERCENTILE_CONT",
   "PERCENTILE_DISC", "PERCENT_RANK", "PERIOD", "PIVOT", "PLACING", "PLANS", "PORTION",
   "POSITION", "POSITION_REGEX", "POWER", "PRAGMA", "PRECEDES", "PRECEDING", "PRECISION",
   "PREPARE", "PRESERVE", "PRIMARY", "PRIOR", "PRIVILEGES", "PROCEDURE", "PROGRAM", "PURGE",
   "QUALIFY", "QUARTER", "QUERY", "QUOTE", "RANGE", "RANK", "RCFILE", "READ", "READS", "REAL",
   "RECURSIVE", "REF", "REFERENCES", "REFERENCING", "REGCLASS", "REGEXP", "REGR_AVGX",
   "REGR_AVGY", "REGR_COUNT", "REGR_INTERCEPT", "REGR_R2", "REGR_SLOPE", "REGR_SXX", "REGR_SXY",
   "REGR_SYY", "RELATIVE", "RENAME", "REPAIR", "REPEATABLE", "REPLACE", "REPLICATION", "RESET",
   "RESPECT", "RESTRICT", "RESULT", "RETURN", "RETURNING", "RETURNS", "REVOKE", "RIGHT", "RLIKE",
   "ROLE", "ROLLBACK", "ROLLUP", "ROW", "ROWID", "ROWS", "ROW_NUMBER", "RULE", "RUN", "SAFE_CAST",
   "SAVEPOINT", "SCHEMA", "SCROLL", "SEARCH", "SECOND", "SELECT", "SEMI", "SENSITIVE", "SEQUENCE",
   "SEQUENCEFILE", "SEQUENCES", "SERDE", "SERIALIZABLE", "SESSION", "SESSION_USER", "SET", "SETS",
   "SHARE", "SHOW", "SIMILAR", "SKIP", "SMALLINT", "SNAPSHOT", "SOME", "SORT", "SPATIAL",
   "SPECIFIC", "SPECIFICTYPE", "SQL", "SQLEXCEPTION", "SQLSTATE", "SQLWARNING", "SQRT", "STABLE",
   "STAGE", "START", "STATIC", "STATISTICS", "STDDEV_POP", "STDDEV_SAMP", "STDIN", "STDOUT",
   "STORAGE_INTEGRATION", "STORED", "STRICT", "STRING", "STRUCT", "SUBMULTISET", "SUBSTRING",
   "SUBSTRING_REGEX", "SUCCEEDS", "SUM", "SUPER", "SUPERUSER", "SWAP", "SYMMETRIC", "SYNC",
   "SYSTEM", "SYSTEM_TIME", "SYSTEM_USER", "TABLE", "TABLES", "TABLESAMPLE", "TBLPROPERTIES",
   "TEMP", "TEMPORARY", "TEXT", "TEXTFILE", "THEN", "TIES", "TIME", "TIMESTAMP", "TIMESTAMPTZ",
   "TIMETZ", "TIMEZONE", "TIMEZONE_HOUR", "TIMEZONE_MINUTE", "TINYINT", "TO", "TOP", "TRAILING",
   "TRANSACTION", "TRANSIENT", "TRANSLATE", "TRANSLATE_REGEX", "TRANSLATION", "TREAT", "TRIGGER",
   "TRIM", "TRIM_ARRAY", "TRUE", "TRUNCATE", "TRY_CAST", "TYPE", "UESCAPE", "UNBOUNDED",
   "UNCACHE", "UNCOMMITTED", "UNION", "UNIQUE", "UNKNOWN", "UNLOCK", "UNLOGGED", "UNNEST",
   "UNPIVOT", "UNSIGNED", "UNTIL", "UPDATE", "UPPER", "URL", "USAGE", "USE", "USER", "USING",
   "UUID", "VALID", "VALIDATION_MODE", "VALUE", "VALUES", "VALUE_OF", "VARBINARY", "VARCHAR",
   "VARIABLES", "VARYING", "VAR_POP", "VAR_SAMP", "VERBOSE", "VERSION", "VERSIONING", "VIEW",
   "VIRTUAL", "VOLATILE", "WEEK", "WHEN", "WHENEVER", "WHERE", "WIDTH_BUCKET", "WINDOW", "WITH",
   "WITHIN", "WITHOUT", "WORK", "WRITE", "XOR", "YEAR", "ZONE"]

/-- Whether a token is a keyword. -/
def Token.isKeyword (t : Token) : Bool :=
  let k := t.keyword
  !k.isEmpty && keywords.contains k

/-- Words that never name a table behind it without `AS`. -/
def reservedBehindTable : List String :=
  ["WITH", "EXPLAIN", "ANALYZE", "SELECT", "WHERE", "GROUP", "SORT", "HAVING", "ORDER", "PIVOT",
   "UNPIVOT", "TOP", "LATERAL", "VIEW", "LIMIT", "OFFSET", "FETCH", "UNION", "EXCEPT",
   "INTERSECT", "ON", "JOIN", "INNER", "CROSS", "FULL", "LEFT", "RIGHT", "NATURAL", "USING",
   "CLUSTER", "DISTRIBUTE", "RETURNING", "OUTER", "SET", "QUALIFY", "WINDOW", "END", "PARTITION"]

/-- Words that never name a selected expression behind it without `AS`. -/
def reservedBehindItem : List String :=
  ["WITH", "EXPLAIN", "ANALYZE", "SELECT", "WHERE", "GROUP", "SORT", "HAVING", "ORDER", "TOP",
   "LATERAL", "VIEW", "LIMIT", "OFFSET", "FETCH", "UNION", "EXCEPT", "INTERSECT", "CLUSTER",
   "DISTRIBUTE", "RETURNING", "FROM", "INTO", "END"]

/-- Words that name a part of a date or a time. -/
def dateParts : List String :=
  ["YEAR", "MONTH", "WEEK", "DAY", "DAYOFWEEK", "DAYOFYEAR", "DATE", "HOUR", "MINUTE", "SECOND",
   "CENTURY", "DECADE", "DOY", "DOW", "EPOCH", "ISODOW", "ISOYEAR", "ISOWEEK", "JULIAN",
   "MICROSECOND", "MICROSECONDS", "MILLENIUM", "MILLENNIUM", "MILLISECOND", "MILLISECONDS",
   "NANOSECOND", "NANOSECONDS", "QUARTER", "TIME", "TIMEZONE", "TIMEZONE_HOUR",
   "TIMEZONE_MINUTE"]

/-- Words that may give the unit of an interval right behind its length. -/
def intervalUnits : List String :=
  ["YEAR", "MONTH", "WEEK", "DAY", "HOUR", "MINUTE", "SECOND", "CENTURY", "DECADE", "DOW", "DOY",
   "EPOCH", "ISODOW", "ISOYEAR", "JULIAN", "MICROSECOND", "MICROSECONDS", "MILLENIUM",
   "MILLENNIUM", "MILLISECOND", "MILLISECONDS", "NANOSECOND", "NANOSECONDS", "QUARTER",
   "TIMEZONE", "TIMEZONE_HOUR", "TIMEZONE_MINUTE"]

end Enclave.Sql
