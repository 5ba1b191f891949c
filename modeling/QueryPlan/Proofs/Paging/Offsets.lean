import QueryPlan.Proofs.Paging.Pages
import QueryPlan.Proofs.SetOperation.Printing

/-!
# Offsets behind orderings

SQL Server takes an `OFFSET` behind an `ORDER BY` only. A select and a set operation end with their
ordering and their paging, in this order; where there is a page to skip to and nothing to order by,
an ordering that orders nothing is written in front of the offset (`orderedPage`).
-/

namespace QueryPlan

open Compile Renderer

variable {text : String} {r : Renderer}

/-! ## 1. The end of a statement -/

section

variable {s : Setting} (hs : s.dialect = DialectKind.msSql.dialect) {c c' : Context}
  {items : List OrderBy} {limit offset : Option UInt64} {canTop : Bool} {paging : Paging}
include hs

end

/-! ## 3. Pages of statements -/

end QueryPlan
