import QueryPlan.Document.Value
import QueryPlan.Plan.Basic

/-!
# Decode plans

What has to be known about a statement to decode its rows: the shape of the result, and a rule for
each projected column. A sub-query that was folded into JSON has a plan of its own.
-/

namespace QueryPlan

mutual

/-- How a column is decoded. -/
inductive DecodeRule where
  /-- Coerced to the declared type. -/
  | typed (type : DataType)
  /-- Unfolded from the JSON of a sub-query. -/
  | nested (plan : DecodePlan)
  /-- Without a type; only detection applies. -/
  | untyped

structure ColumnPlan where
  label : String
  rule : DecodeRule

structure DecodePlan where
  /-- The kind of the statement, for messages. -/
  statement : String
  shape : Shape
  columns : List ColumnPlan
  /-- Whether the result is the number of affected rows. -/
  affectedOnly : Bool
  isMutation : Bool

end

/-! ## 1. The plan of a statement -/

/-- The plan of a statement with plans for its columns. A change without columns yields the number
    of affected rows. -/
def DecodePlan.ofColumns (s : Statement) (columns : List ColumnPlan) : DecodePlan :=
  { statement := s.kindName
    shape := s.shape
    columns
    affectedOnly := s.isMutation && columns.isEmpty
    isMutation := s.isMutation }

mutual

/-- The rule of a column with an expression. A sub-query for a single value has the rule of its
    first column. -/
def Expr.decodeRule : Expr → DecodeRule
  | .query s =>
    match s.shape, s.columnPlans with
    | .value, column :: _ => column.rule
    | .value, [] => .untyped
    | _, columns => .nested (.ofColumns s columns)
  | e =>
    match e.type? with
    | some t => .typed t
    | none => .untyped

/-- The plans of the columns of a statement. -/
def Statement.columnPlans : Statement → List ColumnPlan
  | .select ⟨_, _, projection, _, _, _, _, _, _, _, _, _⟩ => projectionPlans projection
  | .insert ⟨_, _, _, _, _, _, _, returning, _⟩ => projectionPlans returning
  | .update ⟨_, _, _, _, _, _, _, returning, _⟩ => projectionPlans returning
  | .delete ⟨_, _, _, _, _, _, returning, _⟩ => projectionPlans returning
  | .setOp ⟨_, first, _, _, _, _, _⟩ => first.columnPlans

def projectionPlans : List Projection → List ColumnPlan
  | [] => []
  | p :: rest => p.columnPlan :: projectionPlans rest

def Projection.columnPlan : Projection → ColumnPlan
  | ⟨label, expr⟩ => ⟨label, expr.decodeRule⟩

end

/-- How the rows of a statement are decoded. -/
def Statement.decodePlan (s : Statement) : DecodePlan :=
  .ofColumns s s.columnPlans

/-! ## 2. Documents -/

open Document

mutual

def DecodeRule.toDocument : DecodeRule → Json
  | .typed type => tagged "Typed" type.toDocument
  | .nested plan => tagged "Nested" plan.toDocument
  | .untyped => .text "Untyped"

def DecodePlan.toDocument : DecodePlan → Json
  | ⟨statement, shape, columns, affectedOnly, isMutation⟩ =>
    .object [("statement", .text statement), ("shape", ofNamed shape),
      ("columns", .array (columnDocuments columns)), ("affected_only", .bool affectedOnly),
      ("is_mutation", .bool isMutation)]

def columnDocuments : List ColumnPlan → List Json
  | [] => []
  | c :: rest => c.toDocument :: columnDocuments rest

def ColumnPlan.toDocument : ColumnPlan → Json
  | ⟨label, rule⟩ => .object [("alias", .text label), ("rule", rule.toDocument)]

end

/-- A column, read with what reads its rule. -/
def ColumnPlan.read? (rule? : Part → Option DecodeRule) (j : Part) : Option ColumnPlan := do
  match ← recordFields? ["alias", "rule"] j with
  | [label, rule] => some ⟨← needed text? label, ← needed rule? rule⟩
  | _ => none

/-- A plan, read with what reads its columns. -/
def DecodePlan.read? (column? : Part → Option ColumnPlan) (j : Part) : Option DecodePlan := do
  match ← recordFields? ["statement", "shape", "columns", "affected_only", "is_mutation"] j with
  | [statement, shape, columns, affectedOnly, isMutation] =>
    some
      { statement := ← needed text? statement
        shape := ← needed named? shape
        columns := ← needed (list? column?) columns
        affectedOnly := ← needed bool? affectedOnly
        isMutation := ← needed bool? isMutation }
  | _ => none

/-- A rule of bounded depth. -/
def DecodeRule.read? : (depth : Nat) → Part → Option DecodeRule
  | 0, _ => none
  | depth + 1, j => do
    match ← choice? j with
    | ("Typed", some type) => return .typed (← DataType.ofDocument? type)
    | ("Nested", some plan) =>
      return .nested (← DecodePlan.read? (ColumnPlan.read? (read? depth)) plan)
    | ("Untyped", content) => if isBare content then some .untyped else none
    | _ => none

def DecodePlan.ofDocument? (j : Part) : Option DecodePlan :=
  DecodePlan.read? (ColumnPlan.read? (DecodeRule.read? j.weight)) j

end QueryPlan
