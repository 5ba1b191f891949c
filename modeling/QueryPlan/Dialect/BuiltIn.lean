import QueryPlan.Dialect.MsSql
import QueryPlan.Dialect.MySql
import QueryPlan.Dialect.Postgres
import QueryPlan.Dialect.SqLite

/-!
# The built-in dialects
-/

namespace QueryPlan.DialectKind

/-- The built-in dialect of a kind. -/
def dialect : DialectKind → Dialect
  | .generic => .generic
  | .postgres => .postgres
  | .mySql => .mySql
  | .msSql => .msSql
  | .sqLite => .sqLite

/-- The conventions of the engine of a kind. -/
def conventions (k : DialectKind) : Conventions :=
  k.dialect.conventions

end QueryPlan.DialectKind
