import QueryPlan.Plan.Basic

/-!
# The constants of a plan

`Statement.constants` collects the values that stand in a plan as constants, at any depth, so that
"every constant of the plan is such a value" is `∀ v ∈ s.constants, …`.
-/

namespace QueryPlan

mutual

/-- The constants of an expression. -/
def Expr.constants : Expr → List Value
  | .constant value _ => [value]
  | .function _ args _ => exprConstants args
  | .aggregate _ _ arg filter => optionConstants arg ++ optionConstants filter
  | .unary _ operand => operand.constants
  | .binary _ left right => left.constants ++ right.constants
  | .unaryPredicate _ operand => operand.constants
  | .binaryPredicate _ left right => left.constants ++ right.constants
  | .conditions _ operands => exprConstants operands
  | .not operand => operand.constants
  | .case subject arms otherwise =>
    optionConstants subject ++ armConstants arms ++ optionConstants otherwise
  | .cast _ operand => operand.constants
  | .between value low high _ => value.constants ++ low.constants ++ high.constants
  | .member value list _ => value.constants ++ list.constants
  | .rowsExist query _ => query.constants
  | .row elements => exprConstants elements
  | .query statement => statement.constants
  | .windowed expr window => expr.constants ++ window.constants
  | .field _ _ _ | .param _ _ | .raw _ | .default | .excluded _ => []

def exprConstants : List Expr → List Value
  | [] => []
  | e :: rest => e.constants ++ exprConstants rest

def rowConstants : List (List Expr) → List Value
  | [] => []
  | row :: rest => exprConstants row ++ rowConstants rest

def optionConstants : Option Expr → List Value
  | none => []
  | some e => e.constants

def armConstants : List (Expr × Expr) → List Value
  | [] => []
  | (condition, result) :: rest => condition.constants ++ result.constants ++ armConstants rest

def Members.constants : Members → List Value
  | .exprs list => exprConstants list
  | .query statement => statement.constants

def WindowRef.constants : WindowRef → List Value
  | .named _ => []
  | .inline spec => spec.constants

def WindowSpec.constants : WindowSpec → List Value
  | ⟨partitionBy, orderBy⟩ => exprConstants partitionBy ++ orderConstants orderBy

def OrderBy.constants : OrderBy → List Value
  | ⟨expr, _, _⟩ => expr.constants

def orderConstants : List OrderBy → List Value
  | [] => []
  | o :: rest => o.constants ++ orderConstants rest

def Source.constants : Source → List Value
  | .table _ => []
  | .derived _ statement => statement.constants
  | .values _ _ rows => rowConstants rows
  | .join _ source condition => source.constants ++ optionConstants condition

def sourceConstants : List Source → List Value
  | [] => []
  | s :: rest => s.constants ++ sourceConstants rest

def Projection.constants : Projection → List Value
  | ⟨_, expr⟩ => expr.constants

def projectionConstants : List Projection → List Value
  | [] => []
  | p :: rest => p.constants ++ projectionConstants rest

def NamedWindow.constants : NamedWindow → List Value
  | ⟨_, spec⟩ => spec.constants

def windowConstants : List NamedWindow → List Value
  | [] => []
  | w :: rest => w.constants ++ windowConstants rest

def Distinct.constants : Distinct → List Value
  | .all => []
  | .on exprs => exprConstants exprs

def distinctConstants : Option Distinct → List Value
  | none => []
  | some d => d.constants

def Cte.constants : Cte → List Value
  | ⟨_, statement, _⟩ => statement.constants

def cteConstants : List Cte → List Value
  | [] => []
  | c :: rest => c.constants ++ cteConstants rest

def Select.constants : Select → List Value
  | ⟨ctes, distinct, projection, sources, predicates, groupBy, having, windows, orderBy, _, _, _⟩ =>
    cteConstants ctes ++ distinctConstants distinct ++ projectionConstants projection ++
      sourceConstants sources ++ exprConstants predicates ++ exprConstants groupBy ++
      optionConstants having ++ windowConstants windows ++ orderConstants orderBy

def SetOperation.constants : SetOperation → List Value
  | ⟨ctes, first, rest, orderBy, _, _, _⟩ =>
    cteConstants ctes ++ first.constants ++ branchConstants rest ++ orderConstants orderBy

def branchConstants : List (SetOperator × Statement) → List Value
  | [] => []
  | (_, statement) :: rest => statement.constants ++ branchConstants rest

def Assignment.constants : Assignment → List Value
  | ⟨_, value⟩ => value.constants

def assignmentConstants : List Assignment → List Value
  | [] => []
  | a :: rest => a.constants ++ assignmentConstants rest

def InsertSource.constants : InsertSource → List Value
  | .values rows => rowConstants rows
  | .query statement => statement.constants
  | .defaultValues => []

def ConflictAction.constants : ConflictAction → List Value
  | .doNothing => []
  | .doUpdate assignments => assignmentConstants assignments

def OnConflict.constants : OnConflict → List Value
  | ⟨_, action⟩ => action.constants

def conflictConstants : Option OnConflict → List Value
  | none => []
  | some c => c.constants

def Insert.constants : Insert → List Value
  | ⟨ctes, _, _, source, onConflict, _, _, returning, _⟩ =>
    cteConstants ctes ++ source.constants ++ conflictConstants onConflict ++
      projectionConstants returning

def Update.constants : Update → List Value
  | ⟨ctes, _, assignments, sources, predicates, orderBy, _, returning, _⟩ =>
    cteConstants ctes ++ assignmentConstants assignments ++ sourceConstants sources ++
      exprConstants predicates ++ orderConstants orderBy ++ projectionConstants returning

def Delete.constants : Delete → List Value
  | ⟨ctes, _, sources, predicates, orderBy, _, returning, _⟩ =>
    cteConstants ctes ++ sourceConstants sources ++ exprConstants predicates ++
      orderConstants orderBy ++ projectionConstants returning

/-- The constants of a statement. -/
def Statement.constants : Statement → List Value
  | .select query => query.constants
  | .insert change => change.constants
  | .update change => change.constants
  | .delete change => change.constants
  | .setOp query => query.constants

end

end QueryPlan
