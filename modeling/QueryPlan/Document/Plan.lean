import QueryPlan.Document.Value
import QueryPlan.Plan.Basic

/-!
# Documents of plans
-/

namespace QueryPlan

open Document

/-! ## 1. Tables -/

namespace Column

def toDocument (c : Column) : Json :=
  .object [("name", .text c.name), ("data_type", .ofOption DataType.toDocument c.type)]

def ofDocument? (j : Part) : Option Column := do
  match ← recordFields? ["name", "data_type"] j with
  | [name, type] => some ⟨← needed text? name, ← optional DataType.ofDocument? type⟩
  | _ => none

end Column

namespace Table

def toDocument (t : Table) : Json :=
  .object [("schema", .ofOption .text t.schema), ("name", .text t.name), ("alias", .text t.label),
    ("columns", .array (t.columns.map Column.toDocument))]

def ofDocument? (j : Part) : Option Table := do
  match ← recordFields? ["schema", "name", "alias", "columns"] j with
  | [schema, name, label, columns] =>
    some ⟨← optional text? schema, ← needed text? name, ← needed text? label,
      ← needed (list? Column.ofDocument?) columns⟩
  | _ => none

end Table

/-! ## 2. Writing -/

/-- A field with a declared type. -/
def Document.typeField (type : Option DataType) : String × Json :=
  ("data_type", .ofOption DataType.toDocument type)

/-- A number of rows. -/
def Document.countField (name : String) (n : Option UInt64) : String × Json :=
  (name, .ofOption .ofUInt64 n)

mutual

def Expr.toDocument : Expr → Json
  | .constant value type =>
    tagged "Constant" (.object [("value", value.toDocument), typeField type])
  | .field source name type =>
    tagged "Field" (.object [("source", .text source), ("name", .text name), typeField type])
  | .param name type => tagged "Param" (.object [("name", .text name), typeField type])
  | .function name args type =>
    tagged "Function"
      (.object [("name", .text name), ("args", .array (exprDocuments args)), typeField type])
  | .aggregate kind distinct arg filter =>
    tagged "Aggregate" (.object [("kind", ofNamed kind), ("distinct", .bool distinct),
      ("arg", optionDocument arg), ("filter", optionDocument filter)])
  | .unary op operand =>
    tagged "Unary" (.object [("op", ofNamed op), ("operand", operand.toDocument)])
  | .binary op left right =>
    tagged "Binary" (.object [("op", ofNamed op), ("left", left.toDocument),
      ("right", right.toDocument)])
  | .unaryPredicate op operand =>
    tagged "UnaryPredicate" (.object [("op", ofNamed op), ("operand", operand.toDocument)])
  | .binaryPredicate op left right =>
    tagged "BinaryPredicate" (.object [("op", ofNamed op), ("left", left.toDocument),
      ("right", right.toDocument)])
  | .conditions op operands =>
    tagged "Conditions" (.object
      [("op", ofNamed op), ("operands", .array (exprDocuments operands))])
  | .not operand => tagged "Not" operand.toDocument
  | .case subject arms otherwise =>
    tagged "Case" (.object [("subject", optionDocument subject),
      ("arms", .array (armDocuments arms)), ("otherwise", optionDocument otherwise)])
  | .cast type operand =>
    tagged "Cast" (.object [("data_type", type.toDocument), ("operand", operand.toDocument)])
  | .between value low high negated =>
    tagged "Between" (.object [("value", value.toDocument), ("low", low.toDocument),
      ("high", high.toDocument), ("negated", .bool negated)])
  | .member value list negated =>
    tagged "In" (.object [("value", value.toDocument), ("list", list.toDocument),
      ("negated", .bool negated)])
  | .rowsExist query negated =>
    tagged "Exists" (.object [("query", query.toDocument), ("negated", .bool negated)])
  | .row elements => tagged "Row" (.array (exprDocuments elements))
  | .raw sql => tagged "Raw" (.text sql)
  | .default => .text "Default"
  | .query statement => tagged "Query" statement.toDocument
  | .windowed expr window =>
    tagged "Over" (.object [("expr", expr.toDocument), ("window", window.toDocument)])
  | .excluded column => tagged "Excluded" (.text column)

def exprDocuments : List Expr → List Json
  | [] => []
  | e :: rest => e.toDocument :: exprDocuments rest

def rowDocuments : List (List Expr) → List Json
  | [] => []
  | row :: rest => .array (exprDocuments row) :: rowDocuments rest

def optionDocument : Option Expr → Json
  | none => .null
  | some e => e.toDocument

def armDocuments : List (Expr × Expr) → List Json
  | [] => []
  | (condition, result) :: rest =>
    .array [condition.toDocument, result.toDocument] :: armDocuments rest

def Members.toDocument : Members → Json
  | .exprs list => tagged "Exprs" (.array (exprDocuments list))
  | .query statement => tagged "Query" statement.toDocument

def WindowRef.toDocument : WindowRef → Json
  | .named name => tagged "Named" (.text name)
  | .inline spec => tagged "Inline" spec.toDocument

def WindowSpec.toDocument : WindowSpec → Json
  | ⟨partitionBy, orderBy⟩ =>
    .object [("partition_by", .array (exprDocuments partitionBy)),
      ("order_by", .array (orderDocuments orderBy))]

def OrderBy.toDocument : OrderBy → Json
  | ⟨expr, direction, nulls⟩ =>
    .object [("expr", expr.toDocument), ("direction", ofNamed direction),
      ("nulls", .ofOption ofNamed nulls)]

def orderDocuments : List OrderBy → List Json
  | [] => []
  | o :: rest => o.toDocument :: orderDocuments rest

def Source.toDocument : Source → Json
  | .table table => tagged "Table" table.toDocument
  | .derived label statement =>
    tagged "Derived" (.object [("alias", .text label), ("statement", statement.toDocument)])
  | .values label columns rows =>
    tagged "Values" (.object [("alias", .text label), ("columns", .ofTexts columns),
      ("rows", .array (rowDocuments rows))])
  | .join kind source condition =>
    tagged "Join" (.object [("kind", ofNamed kind), ("source", source.toDocument),
      ("condition", optionDocument condition)])

def sourceDocuments : List Source → List Json
  | [] => []
  | s :: rest => s.toDocument :: sourceDocuments rest

def Projection.toDocument : Projection → Json
  | ⟨label, expr⟩ => .object [("alias", .text label), ("expr", expr.toDocument)]

def projectionDocuments : List Projection → List Json
  | [] => []
  | p :: rest => p.toDocument :: projectionDocuments rest

def NamedWindow.toDocument : NamedWindow → Json
  | ⟨name, spec⟩ => .object [("name", .text name), ("spec", spec.toDocument)]

def windowDocuments : List NamedWindow → List Json
  | [] => []
  | w :: rest => w.toDocument :: windowDocuments rest

def Distinct.toDocument : Distinct → Json
  | .all => .text "All"
  | .on exprs => tagged "On" (.array (exprDocuments exprs))

def distinctDocument : Option Distinct → Json
  | none => .null
  | some d => d.toDocument

def Cte.toDocument : Cte → Json
  | ⟨label, statement, recursive⟩ =>
    .object [("alias", .text label), ("statement", statement.toDocument),
      ("recursive", .bool recursive)]

def cteDocuments : List Cte → List Json
  | [] => []
  | c :: rest => c.toDocument :: cteDocuments rest

def Select.toDocument : Select → Json
  | ⟨ctes, distinct, projection, sources, predicates, groupBy, having, windows, orderBy, limit,
      offset, shape⟩ =>
    .object [("with", .array (cteDocuments ctes)), ("distinct", distinctDocument distinct),
      ("projection", .array (projectionDocuments projection)),
      ("sources", .array (sourceDocuments sources)),
      ("predicates", .array (exprDocuments predicates)),
      ("group_by", .array (exprDocuments groupBy)), ("having", optionDocument having),
      ("windows", .array (windowDocuments windows)),
      ("order_by", .array (orderDocuments orderBy)), countField "limit" limit,
      countField "offset" offset, ("shape", ofNamed shape)]

def SetOperation.toDocument : SetOperation → Json
  | ⟨ctes, first, rest, orderBy, limit, offset, shape⟩ =>
    .object [("with", .array (cteDocuments ctes)), ("first", first.toDocument),
      ("rest", .array (branchDocuments rest)), ("order_by", .array (orderDocuments orderBy)),
      countField "limit" limit, countField "offset" offset, ("shape", ofNamed shape)]

def branchDocuments : List (SetOperator × Statement) → List Json
  | [] => []
  | (op, statement) :: rest =>
    .array [ofNamed op, statement.toDocument] :: branchDocuments rest

def Assignment.toDocument : Assignment → Json
  | ⟨column, value⟩ => .object [("column", .text column), ("value", value.toDocument)]

def assignmentDocuments : List Assignment → List Json
  | [] => []
  | a :: rest => a.toDocument :: assignmentDocuments rest

def InsertSource.toDocument : InsertSource → Json
  | .values rows => tagged "Values" (.array (rowDocuments rows))
  | .query statement => tagged "Query" statement.toDocument
  | .defaultValues => .text "DefaultValues"

def ConflictAction.toDocument : ConflictAction → Json
  | .doNothing => .text "DoNothing"
  | .doUpdate assignments => tagged "DoUpdate" (.array (assignmentDocuments assignments))

def OnConflict.toDocument : OnConflict → Json
  | ⟨target, action⟩ => .object [("target", .ofTexts target), ("action", action.toDocument)]

def conflictDocument : Option OnConflict → Json
  | none => .null
  | some c => c.toDocument

def Insert.toDocument : Insert → Json
  | ⟨ctes, table, columns, source, onConflict, ignore, priority, returning, shape⟩ =>
    .object [("with", .array (cteDocuments ctes)), ("table", table.toDocument),
      ("columns", .ofTexts columns), ("source", source.toDocument),
      ("on_conflict", conflictDocument onConflict), ("ignore", .bool ignore),
      ("priority", .ofOption ofNamed priority),
      ("returning", .array (projectionDocuments returning)), ("shape", ofNamed shape)]

def Update.toDocument : Update → Json
  | ⟨ctes, table, assignments, sources, predicates, orderBy, limit, returning, shape⟩ =>
    .object [("with", .array (cteDocuments ctes)), ("table", table.toDocument),
      ("assignments", .array (assignmentDocuments assignments)),
      ("sources", .array (sourceDocuments sources)),
      ("predicates", .array (exprDocuments predicates)),
      ("order_by", .array (orderDocuments orderBy)), countField "limit" limit,
      ("returning", .array (projectionDocuments returning)), ("shape", ofNamed shape)]

def Delete.toDocument : Delete → Json
  | ⟨ctes, table, sources, predicates, orderBy, limit, returning, shape⟩ =>
    .object [("with", .array (cteDocuments ctes)), ("table", table.toDocument),
      ("sources", .array (sourceDocuments sources)),
      ("predicates", .array (exprDocuments predicates)),
      ("order_by", .array (orderDocuments orderBy)), countField "limit" limit,
      ("returning", .array (projectionDocuments returning)), ("shape", ofNamed shape)]

def Statement.toDocument : Statement → Json
  | .select query => tagged "Select" query.toDocument
  | .insert change => tagged "Insert" change.toDocument
  | .update change => tagged "Update" change.toDocument
  | .delete change => tagged "Delete" change.toDocument
  | .setOp query => tagged "SetOp" query.toDocument

end

end QueryPlan
