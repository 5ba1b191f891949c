import QueryPlan.Text.Case

/-!
# Reserved words

The words that no dialect takes as plain identifiers: the union of what the known engines reserve,
so that an identifier that is plain in one dialect is plain in all. They stand in lower case.
-/

namespace QueryPlan

/-- The reserved words, in order. -/
def reservedWords : List String := [
  "add", "all", "alter", "analyze", "and", "any", "array", "as", "asc", "asymmetric",
  "authorization", "backup", "begin", "between", "bigint", "binary", "both", "break", "by", "call",
  "cascade", "case", "cast", "char", "character", "check", "checkpoint", "close", "clustered",
  "collate", "column", "commit", "concurrently", "condition", "constraint", "contains", "continue",
  "convert", "create", "cross", "cube", "current", "current_date", "current_role", "current_time",
  "current_timestamp", "current_user", "cursor", "database", "databases", "day", "deallocate",
  "decimal", "declare", "default", "deferrable", "delayed", "delete", "deny", "desc", "describe",
  "distinct", "distinctrow", "div", "do", "double", "drop", "dual", "each", "else", "elseif",
  "end", "escape", "except", "exec", "execute", "exists", "exit", "explain", "false", "fetch",
  "filter", "float", "for", "force", "foreign", "freeze", "from", "full", "fulltext", "function",
  "glob", "goto", "grant", "group", "grouping", "groups", "having", "high_priority", "holdlock",
  "hour", "identity", "if", "ignore", "ilike", "in", "index", "initially", "inner", "inout",
  "insert", "int", "integer", "intersect", "interval", "into", "is", "isnull", "join", "key",
  "keys", "kill", "lateral", "leading", "left", "like", "limit", "lines", "load", "localtime",
  "localtimestamp", "lock", "low_priority", "match", "merge", "minute", "mod", "month", "natural",
  "nocheck", "not", "notnull", "null", "nullif", "numeric", "of", "off", "offset", "on", "only",
  "open", "option", "or", "order", "out", "outer", "output", "over", "overlaps", "partition",
  "percent", "pivot", "placing", "primary", "print", "procedure", "public", "raiserror", "range",
  "read", "real", "recursive", "references", "regexp", "release", "rename", "repeat", "replace",
  "require", "restrict", "return", "returning", "revoke", "right", "rlike", "rollback", "row",
  "rows", "rule", "save", "schema", "second", "select", "session_user", "set", "similar",
  "smallint", "some", "spatial", "sql", "straight_join", "symmetric", "system_user", "table",
  "tablesample", "then", "time", "timestamp", "to", "top", "trailing", "tran", "transaction",
  "trigger", "true", "truncate", "union", "unique", "unknown", "unlock", "unpivot", "unsigned",
  "update", "usage", "use", "user", "using", "values", "varchar", "variadic", "verbose", "view",
  "waitfor", "when", "where", "while", "window", "with", "within", "write", "xor", "year",
  "zerofill"]

/-- Whether a word is reserved, in any case. -/
def isReservedWord (word : String) : Bool :=
  reservedWords.contains (lowerAscii word)

end QueryPlan
