import QueryPlan.Document.Plan
import QueryPlan.Json.Printer

/-!
# Reading plan documents

The readers of the types that refer to each other take the number of documents that may still stand
inside each other. `Statement.ofDocument?` and its companions start from the size of the document,
which no nesting exceeds.
-/

namespace QueryPlan

open Document

mutual

def readExpr? : (depth : Nat) → Part → Option Expr
  | 0, _ => none
  | depth + 1, j => do
    let (tag, content) ← choice? j
    match tag, content with
    | "Default", content => if isBare content then some .default else none
    | "Constant", some j =>
      match ← contentFields? ["value", "data_type"] j with
      | [value, type] =>
        some (.constant (← needed Value.ofDocument? value) (← optional DataType.ofDocument? type))
      | _ => none
    | "Field", some j =>
      match ← contentFields? ["source", "name", "data_type"] j with
      | [source, name, type] =>
        some (.field (← needed text? source) (← needed text? name)
          (← optional DataType.ofDocument? type))
      | _ => none
    | "Param", some j =>
      match ← contentFields? ["name", "data_type"] j with
      | [name, type] => some (.param (← needed text? name) (← optional DataType.ofDocument? type))
      | _ => none
    | "Function", some j =>
      match ← contentFields? ["name", "args", "data_type"] j with
      | [name, args, type] =>
        some (.function (← needed text? name) (← needed (list? (readExpr? depth)) args)
          (← optional DataType.ofDocument? type))
      | _ => none
    | "Aggregate", some j =>
      match ← contentFields? ["kind", "distinct", "arg", "filter"] j with
      | [kind, distinct, arg, filter] =>
        some (.aggregate (← needed named? kind) (← needed bool? distinct)
          (← optional (readExpr? depth) arg) (← optional (readExpr? depth) filter))
      | _ => none
    | "Unary", some j =>
      match ← contentFields? ["op", "operand"] j with
      | [op, operand] => some (.unary (← needed named? op) (← needed (readExpr? depth) operand))
      | _ => none
    | "Binary", some j =>
      match ← contentFields? ["op", "left", "right"] j with
      | [op, left, right] =>
        some (.binary (← needed named? op) (← needed (readExpr? depth) left)
          (← needed (readExpr? depth) right))
      | _ => none
    | "UnaryPredicate", some j =>
      match ← contentFields? ["op", "operand"] j with
      | [op, operand] =>
        some (.unaryPredicate (← needed named? op) (← needed (readExpr? depth) operand))
      | _ => none
    | "BinaryPredicate", some j =>
      match ← contentFields? ["op", "left", "right"] j with
      | [op, left, right] =>
        some (.binaryPredicate (← needed named? op) (← needed (readExpr? depth) left)
          (← needed (readExpr? depth) right))
      | _ => none
    | "Conditions", some j =>
      match ← contentFields? ["op", "operands"] j with
      | [op, operands] =>
        some (.conditions (← needed named? op) (← needed (list? (readExpr? depth)) operands))
      | _ => none
    | "Not", some j => some (.not (← readExpr? depth j))
    | "Case", some j =>
      match ← contentFields? ["subject", "arms", "otherwise"] j with
      | [subject, arms, otherwise] =>
        some (.case (← optional (readExpr? depth) subject)
          (← needed (list? (pair? (readExpr? depth) (readExpr? depth))) arms)
          (← optional (readExpr? depth) otherwise))
      | _ => none
    | "Cast", some j =>
      match ← contentFields? ["data_type", "operand"] j with
      | [type, operand] =>
        some (.cast (← needed DataType.ofDocument? type) (← needed (readExpr? depth) operand))
      | _ => none
    | "Between", some j =>
      match ← contentFields? ["value", "low", "high", "negated"] j with
      | [value, low, high, negated] =>
        some (.between (← needed (readExpr? depth) value) (← needed (readExpr? depth) low)
          (← needed (readExpr? depth) high) (← needed bool? negated))
      | _ => none
    | "In", some j =>
      match ← contentFields? ["value", "list", "negated"] j with
      | [value, list, negated] =>
        some (.member (← needed (readExpr? depth) value) (← needed (readMembers? depth) list)
          (← needed bool? negated))
      | _ => none
    | "Exists", some j =>
      match ← contentFields? ["query", "negated"] j with
      | [query, negated] =>
        some (.rowsExist (← needed (readStatement? depth) query) (← needed bool? negated))
      | _ => none
    | "Row", some j => some (.row (← list? (readExpr? depth) j))
    | "Raw", some j => some (.raw (← text? j))
    | "Query", some j => some (.query (← readStatement? depth j))
    | "Over", some j =>
      match ← contentFields? ["expr", "window"] j with
      | [expr, window] =>
        some (.windowed (← needed (readExpr? depth) expr) (← needed (readWindowRef? depth) window))
      | _ => none
    | "Excluded", some j => some (.excluded (← text? j))
    | _, _ => none

def readMembers? : (depth : Nat) → Part → Option Members
  | 0, _ => none
  | depth + 1, j => do
    match ← choice? j with
    | ("Exprs", some j) => some (.exprs (← list? (readExpr? depth) j))
    | ("Query", some j) => some (.query (← readStatement? depth j))
    | _ => none

def readWindowRef? : (depth : Nat) → Part → Option WindowRef
  | 0, _ => none
  | depth + 1, j => do
    match ← choice? j with
    | ("Named", some j) => some (.named (← text? j))
    | ("Inline", some j) => some (.inline (← readWindowSpec? depth j))
    | _ => none

def readWindowSpec? : (depth : Nat) → Part → Option WindowSpec
  | 0, _ => none
  | depth + 1, j => do
    match ← recordFields? ["partition_by", "order_by"] j with
    | [partitionBy, orderBy] =>
      some ⟨← needed (list? (readExpr? depth)) partitionBy,
        ← needed (list? (readOrderBy? depth)) orderBy⟩
    | _ => none

def readOrderBy? : (depth : Nat) → Part → Option OrderBy
  | 0, _ => none
  | depth + 1, j => do
    match ← recordFields? ["expr", "direction", "nulls"] j with
    | [expr, direction, nulls] =>
      some ⟨← needed (readExpr? depth) expr, ← needed named? direction, ← optional named? nulls⟩
    | _ => none

def readSource? : (depth : Nat) → Part → Option Source
  | 0, _ => none
  | depth + 1, j => do
    match ← choice? j with
    | ("Table", some j) => some (.table (← Table.ofDocument? j))
    | ("Derived", some j) =>
      match ← contentFields? ["alias", "statement"] j with
      | [label, statement] =>
        some (.derived (← needed text? label) (← needed (readStatement? depth) statement))
      | _ => none
    | ("Values", some j) =>
      match ← contentFields? ["alias", "columns", "rows"] j with
      | [label, columns, rows] =>
        some (.values (← needed text? label) (← needed (list? text?) columns)
          (← needed (list? (list? (readExpr? depth))) rows))
      | _ => none
    | ("Join", some j) =>
      match ← contentFields? ["kind", "source", "condition"] j with
      | [kind, source, condition] =>
        some (.join (← needed named? kind) (← needed (readSource? depth) source)
          (← optional (readExpr? depth) condition))
      | _ => none
    | _ => none

def readProjection? : (depth : Nat) → Part → Option Projection
  | 0, _ => none
  | depth + 1, j => do
    match ← recordFields? ["alias", "expr"] j with
    | [label, expr] => some ⟨← needed text? label, ← needed (readExpr? depth) expr⟩
    | _ => none

def readNamedWindow? : (depth : Nat) → Part → Option NamedWindow
  | 0, _ => none
  | depth + 1, j => do
    match ← recordFields? ["name", "spec"] j with
    | [name, spec] => some ⟨← needed text? name, ← needed (readWindowSpec? depth) spec⟩
    | _ => none

def readDistinct? : (depth : Nat) → Part → Option Distinct
  | 0, _ => none
  | depth + 1, j => do
    match ← choice? j with
    | ("All", content) => if isBare content then some .all else none
    | ("On", some j) => some (.on (← list? (readExpr? depth) j))
    | _ => none

def readCte? : (depth : Nat) → Part → Option Cte
  | 0, _ => none
  | depth + 1, j => do
    match ← recordFields? ["alias", "statement", "recursive"] j with
    | [label, statement, recursive] =>
      some ⟨← needed text? label, ← needed (readStatement? depth) statement,
        ← needed bool? recursive⟩
    | _ => none

def readSelect? : (depth : Nat) → Part → Option Select
  | 0, _ => none
  | depth + 1, j => do
    match ← recordFields? ["with", "distinct", "projection", "sources", "predicates", "group_by",
      "having", "windows", "order_by", "limit", "offset", "shape"] j with
    | [ctes, distinct, projection, sources, predicates, groupBy, having, windows, orderBy, limit,
        offset, shape] =>
      some
        { ctes := ← needed (list? (readCte? depth)) ctes
          distinct := ← optional (readDistinct? depth) distinct
          projection := ← needed (list? (readProjection? depth)) projection
          sources := ← needed (list? (readSource? depth)) sources
          predicates := ← needed (list? (readExpr? depth)) predicates
          groupBy := ← needed (list? (readExpr? depth)) groupBy
          having := ← optional (readExpr? depth) having
          windows := ← needed (list? (readNamedWindow? depth)) windows
          orderBy := ← needed (list? (readOrderBy? depth)) orderBy
          limit := ← optional uint64? limit
          offset := ← optional uint64? offset
          shape := ← needed named? shape }
    | _ => none

def readSetOperation? : (depth : Nat) → Part → Option SetOperation
  | 0, _ => none
  | depth + 1, j => do
    match ← recordFields? ["with", "first", "rest", "order_by", "limit", "offset", "shape"] j with
    | [ctes, first, rest, orderBy, limit, offset, shape] =>
      some
        { ctes := ← needed (list? (readCte? depth)) ctes
          first := ← needed (readStatement? depth) first
          rest := ← needed (list? (pair? named? (readStatement? depth))) rest
          orderBy := ← needed (list? (readOrderBy? depth)) orderBy
          limit := ← optional uint64? limit
          offset := ← optional uint64? offset
          shape := ← needed named? shape }
    | _ => none

def readAssignment? : (depth : Nat) → Part → Option Assignment
  | 0, _ => none
  | depth + 1, j => do
    match ← recordFields? ["column", "value"] j with
    | [column, value] => some ⟨← needed text? column, ← needed (readExpr? depth) value⟩
    | _ => none

def readInsertSource? : (depth : Nat) → Part → Option InsertSource
  | 0, _ => none
  | depth + 1, j => do
    match ← choice? j with
    | ("Values", some j) => some (.values (← list? (list? (readExpr? depth)) j))
    | ("Query", some j) => some (.query (← readStatement? depth j))
    | ("DefaultValues", content) => if isBare content then some .defaultValues else none
    | _ => none

def readConflictAction? : (depth : Nat) → Part → Option ConflictAction
  | 0, _ => none
  | depth + 1, j => do
    match ← choice? j with
    | ("DoNothing", content) => if isBare content then some .doNothing else none
    | ("DoUpdate", some j) => some (.doUpdate (← list? (readAssignment? depth) j))
    | _ => none

def readOnConflict? : (depth : Nat) → Part → Option OnConflict
  | 0, _ => none
  | depth + 1, j => do
    match ← recordFields? ["target", "action"] j with
    | [target, action] =>
      some ⟨← needed (list? text?) target, ← needed (readConflictAction? depth) action⟩
    | _ => none

def readInsert? : (depth : Nat) → Part → Option Insert
  | 0, _ => none
  | depth + 1, j => do
    match ← recordFields? ["with", "table", "columns", "source", "on_conflict", "ignore",
      "priority", "returning", "shape"] j with
    | [ctes, table, columns, source, onConflict, ignore, priority, returning, shape] =>
      some
        { ctes := ← needed (list? (readCte? depth)) ctes
          table := ← needed Table.ofDocument? table
          columns := ← needed (list? text?) columns
          source := ← needed (readInsertSource? depth) source
          onConflict := ← optional (readOnConflict? depth) onConflict
          ignore := ← needed bool? ignore
          priority := ← optional named? priority
          returning := ← needed (list? (readProjection? depth)) returning
          shape := ← needed named? shape }
    | _ => none

def readUpdate? : (depth : Nat) → Part → Option Update
  | 0, _ => none
  | depth + 1, j => do
    match ← recordFields? ["with", "table", "assignments", "sources", "predicates", "order_by",
      "limit", "returning", "shape"] j with
    | [ctes, table, assignments, sources, predicates, orderBy, limit, returning, shape] =>
      some
        { ctes := ← needed (list? (readCte? depth)) ctes
          table := ← needed Table.ofDocument? table
          assignments := ← needed (list? (readAssignment? depth)) assignments
          sources := ← needed (list? (readSource? depth)) sources
          predicates := ← needed (list? (readExpr? depth)) predicates
          orderBy := ← needed (list? (readOrderBy? depth)) orderBy
          limit := ← optional uint64? limit
          returning := ← needed (list? (readProjection? depth)) returning
          shape := ← needed named? shape }
    | _ => none

def readDelete? : (depth : Nat) → Part → Option Delete
  | 0, _ => none
  | depth + 1, j => do
    match ← recordFields? ["with", "table", "sources", "predicates", "order_by", "limit",
      "returning", "shape"] j with
    | [ctes, table, sources, predicates, orderBy, limit, returning, shape] =>
      some
        { ctes := ← needed (list? (readCte? depth)) ctes
          table := ← needed Table.ofDocument? table
          sources := ← needed (list? (readSource? depth)) sources
          predicates := ← needed (list? (readExpr? depth)) predicates
          orderBy := ← needed (list? (readOrderBy? depth)) orderBy
          limit := ← optional uint64? limit
          returning := ← needed (list? (readProjection? depth)) returning
          shape := ← needed named? shape }
    | _ => none

def readStatement? : (depth : Nat) → Part → Option Statement
  | 0, _ => none
  | depth + 1, j => do
    match ← choice? j with
    | ("Select", some j) => some (.select (← readSelect? depth j))
    | ("Insert", some j) => some (.insert (← readInsert? depth j))
    | ("Update", some j) => some (.update (← readUpdate? depth j))
    | ("Delete", some j) => some (.delete (← readDelete? depth j))
    | ("SetOp", some j) => some (.setOp (← readSetOperation? depth j))
    | _ => none

end

/-- Reads a document with as much depth as it can need. -/
def Document.readWhole {α : Type} (read : Nat → Part → Option α) (j : Part) : Option α :=
  read (2 * j.weight + 2) j

def Expr.ofDocument? : Part → Option Expr := readWhole readExpr?

def OrderBy.ofDocument? : Part → Option OrderBy := readWhole readOrderBy?

def WindowSpec.ofDocument? : Part → Option WindowSpec := readWhole readWindowSpec?

def Source.ofDocument? : Part → Option Source := readWhole readSource?

def Select.ofDocument? : Part → Option Select := readWhole readSelect?

def SetOperation.ofDocument? : Part → Option SetOperation := readWhole readSetOperation?

def Statement.ofDocument? : Part → Option Statement := readWhole readStatement?

namespace Statement

/-- The document of a statement as text. -/
def toDocumentText (s : Statement) : String :=
  s.toDocument.render

/-- The statement of a document given as text. -/
def ofDocumentText? (text : String) : Option Statement :=
  (Part.ofText? text).bind ofDocument?

end Statement

end QueryPlan
