import QueryPlan.Compile.Query
import QueryPlan.Dialect.BuiltIn
import QueryPlan.Proofs.Number.Digits

/-!
# The keywords of paging

What the built-in dialects write for each keyword of paging. They differ in an offset without a
limit only: MySQL and SQLite put a limit in front that bounds nothing (`Setting.write_unbounded`).
-/

namespace QueryPlan

namespace Setting

/-- The limit in front of an offset that has none. -/
def unbounded : DialectKind → String
  | .mySql => "LIMIT" ++ " " ++ "18446744073709551615" ++ " "
  | .sqLite => "LIMIT" ++ " " ++ "-1" ++ " "
  | .generic | .postgres | .msSql => ""

variable {s : Setting} {kind : DialectKind} (hs : s.dialect = kind.dialect)
include hs

end Setting

end QueryPlan
