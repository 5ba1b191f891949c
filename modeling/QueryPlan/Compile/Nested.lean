import QueryPlan.Compile.Query

/-!
# Nested queries

A query that is used as a value. One that yields a single value is a scalar sub-query; all others
are folded into one JSON value, which decoding unfolds again. Folding is done by functions that
build JSON, by a clause that ends the query as JSON, or, where a dialect has neither, not at all.
-/

namespace QueryPlan

/-- A query limited to one row. -/
def Statement.limitToOne : Statement → Statement
  | .select q => .select { q with limit := some 1 }
  | .setOp q => .setOp { q with limit := some 1 }
  | other => other

/-- Whether a query has one row at most by its own limit. -/
def Statement.isLimitedToOne (s : Statement) : Bool :=
  match s.limit? with
  | some n => n ≤ 1
  | none => false

/-- A query of which only the first row is used, limited to one row. -/
def limitToFirst (shape : Shape) (s : Statement) : Statement :=
  if shape = .first ∧ !s.isLimitedToOne then s.limitToOne else s

/-- The way in which a column is embedded in JSON, if it is a special one. -/
def Projection.jsonKey? (p : Projection) : Option JsonKey :=
  match p.expr, p.expr.type? with
  | .query _, _ => some .nested
  | _, some .json => some .nested
  | _, some .point => some .geometry
  | _, some .bytes => some .binary
  | _, _ => none

namespace Renderer

open Compile

variable (r : Renderer)

/-- A query as a single value. -/
def scalar (s : Statement) : Compile Fragment :=
  return (Fragment.atom (← r.statement s)).parenthesize

/-- A column of a derived table, embedded in JSON. -/
def jsonColumn (label : String) (p : Projection) : Compile String := do
  let column := label ++ "." ++ (← quote p.label)
  match p.jsonKey? with
  | some key => write Formats.json key [("value", column)]
  | none => return column

/-- An object of the columns of a query. -/
def jsonObject (projection : List Projection) (columns : List String) : Compile String := do
  let pairs ← (projection.zip columns).mapM fun (p, column) => do
    let key := (← dialect).conventions.stringLiteral p.label
    write Formats.json .pair [("key", key), ("value", column)]
  write Formats.json .object [("pairs", ", ".intercalate pairs)]

/-- The rows of a query as one JSON value: an object, a list of objects or a list of values. -/
def jsonRows (shape : Shape) (projection : List Projection) (columns : List String) :
    Compile String :=
  match shape with
  | .list => write Formats.json .rows [("value", columns.headD "")]
  | _ => do
    let object ← jsonObject projection columns
    if shape = .first then return object else write Formats.json .rows [("value", object)]

/-- A query folded by functions that build JSON. -/
def jsonFunctions (s : Statement) (shape : Shape) : Compile Fragment := do
  let inner ← r.statement (limitToFirst shape s)
  let label ← quote (← freshJsonTable)
  let columns ← s.projection.mapM (jsonColumn label)
  let value ← jsonRows shape s.projection columns
  return (Fragment.atom s!"SELECT {value} FROM ({inner}) AS {label}").parenthesize

/-- A query that ends as JSON. The rows of a list come back as objects with one field. -/
def jsonClause (s : Statement) (shape : Shape) : Compile Fragment := do
  if s.isMutation then fail (.ofFault (.nestedMutation s.kindName))
  let single := shape = .first
  let inner ← inForJson single (r.statement (limitToFirst shape s))
  let value := if single then s!"({inner})" else s!"COALESCE(({inner}), '[]')"
  return .atom (← write Formats.json .nested [("value", value)])

/-- A query as a value. -/
def query (s : Statement) : Compile Fragment := do
  let shape := s.shape
  if shape = .value then r.scalar s
  else
    if s.projection.isEmpty then fail (.ofFault (.nestedWithoutProjection s.kindName))
    if ← has .jsonFunctions then r.jsonFunctions s shape
    else if (← dialect).selectOrder.contains .forJson then r.jsonClause s shape
    else
      missing "nesting sub-queries as JSON"
      r.scalar s

end Renderer

end QueryPlan
