import QueryPlan.Compile.Expr

/-!
# Sources

Tables, derived tables, rows given in place, and joins.
-/

namespace QueryPlan

namespace Compile

/-- A table by its name, with its schema. -/
def tableName (t : Table) : Compile String := do
  let name ← quote t.name
  match t.schema with
  | some schema => return (← quote schema) ++ "." ++ name
  | none => return name

/-- A table with its label, where that is another name. -/
def table (t : Table) : Compile String := do
  let name ← tableName t
  if t.label == t.name then return name else return name ++ " AS " ++ (← quote t.label)

/-- Reports rows given in place if there are none, or if one has not a value for each column. -/
def checkRows (label : String) (columns : List String) (rows : List (List Expr)) :
    Compile Unit := do
  if rows.isEmpty then fail (.ofFault (.sourceWithoutRows label))
  match rows.find? fun row => row.length != columns.length with
  | some row => fail (.ofFault (.sourceRowWidth label columns.length row.length))
  | none => return

end Compile

/-- The sources in front of the first join, and all from there on. -/
def splitSources (sources : List Source) : List Source × List Source :=
  sources.span fun
    | .join _ _ _ => false
    | _ => true

namespace Renderer

open Compile

variable (r : Renderer)

/-- Rows given in place as the queries of a union, the first of which names the columns. -/
def unionRows (columns : List String) (rows : List (List Expr)) : Compile (List String) :=
  rows.zipIdx.mapM fun (row, index) => do
    let items ← (row.zip columns).mapM fun (e, column) => do
      let e ← r.text e
      return if index == 0 then s!"{e} AS {column}" else e
    return "SELECT " ++ ", ".intercalate items

/-- Rows given in place as a union. -/
def unionTable (label : String) (columns : List String) (rows : List (List Expr)) :
    Compile String := do
  let selects := " UNION ALL ".intercalate (← r.unionRows columns rows)
  return s!"({selects}) AS {label}"

/-- Rows given in place as a table whose columns are renamed. -/
def valuesTable (label : String) (columns : List String) (rows : List (List Expr)) :
    Compile String := do
  let rows ← rows.mapM fun row => do keyword .valuesRow [("elements", ← r.list row)]
  let word := (← dialect).formats.keywords.keyword .values
  let rows := ", ".intercalate rows
  let columns := ", ".intercalate columns
  return s!"({word} {rows}) AS {label} ({columns})"

/-- Rows given in place. -/
def values (label : String) (columns : List String) (rows : List (List Expr)) : Compile String := do
  checkRows label columns rows
  let label ← quote label
  let columns ← columns.mapM quote
  if (← dialect).conventions.derivedColumnAliases then r.valuesTable label columns rows
  else r.unionTable label columns rows

/-- The condition of a join as the text of its slot. -/
def joinCondition (condition : Option Expr) : Compile Params :=
  match condition with
  | some condition => return [("condition", ← r.text condition)]
  | none => pure []

/-- A source to which `join` adds a join. -/
def joined (kind : JoinKind) (source : String) (condition : Option Expr) : Compile String := do
  let condition ← r.joinCondition condition
  write Formats.joins kind (("source", source) :: condition)

/-- A source. -/
def source : Source → Compile String
  | .table t => table t
  | .derived label statement => do
    let statement ← r.statement statement
    return "(" ++ statement ++ ") AS " ++ (← quote label)
  | .values label columns rows => r.values label columns rows
  | .join kind inner condition => do
    let inner ← source inner
    r.joined kind inner condition

/-- Sources with commas between them. -/
def sources (list : List Source) : Compile String :=
  return ", ".intercalate (← list.mapM r.source)

/-- A chain of joins. A source that is no join is joined without a condition. -/
def joins (list : List Source) : Compile String := do
  let texts ← list.mapM fun
    | .join kind inner condition => r.source (.join kind inner condition)
    | plain => do
      let text ← r.source plain
      r.joined .cross text none
  return " ".intercalate texts

end Renderer

end QueryPlan
