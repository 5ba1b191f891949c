import QueryPlan.Plan.Basic

/-!
# The size of a plan

The size of an expression or a statement is the number of expressions and statements in it. The
parts of a statement can be written one inside the other at most that deep, so that the size bounds
the recursion of the compiler.

* What is not an expression or a statement of its own (names, tables, limits) does not count.
* An update or delete counts some more: its further sources may become a sub-query of its condition.
-/

namespace QueryPlan

mutual

/-- The number of expressions and statements in an expression. -/
def Expr.size : Expr → Nat
  | .function _ args _ => exprSizes args + 1
  | .aggregate _ _ arg filter => optionSize arg + optionSize filter + 1
  | .unary _ operand => operand.size + 1
  | .binary _ left right => left.size + right.size + 1
  | .unaryPredicate _ operand => operand.size + 1
  | .binaryPredicate _ left right => left.size + right.size + 1
  | .conditions _ operands => exprSizes operands + 1
  | .not operand => operand.size + 1
  | .case subject arms otherwise => optionSize subject + armSizes arms + optionSize otherwise + 1
  | .cast _ operand => operand.size + 1
  | .between value low high _ => value.size + low.size + high.size + 1
  | .member value list _ => value.size + list.size + 1
  | .rowsExist query _ => query.size + 1
  | .row elements => exprSizes elements + 1
  | .query statement => statement.size + 1
  | .windowed expr window => expr.size + window.size + 1
  | _ => 1

def exprSizes : List Expr → Nat
  | [] => 0
  | e :: rest => e.size + exprSizes rest

def rowSizes : List (List Expr) → Nat
  | [] => 0
  | row :: rest => exprSizes row + rowSizes rest

def optionSize : Option Expr → Nat
  | none => 0
  | some e => e.size

def armSizes : List (Expr × Expr) → Nat
  | [] => 0
  | (condition, result) :: rest => condition.size + result.size + armSizes rest

def Members.size : Members → Nat
  | .exprs list => exprSizes list
  | .query statement => statement.size

def WindowRef.size : WindowRef → Nat
  | .named _ => 0
  | .inline spec => spec.size

def WindowSpec.size : WindowSpec → Nat
  | ⟨partitionBy, orderBy⟩ => exprSizes partitionBy + orderSizes orderBy

def OrderBy.size : OrderBy → Nat
  | ⟨expr, _, _⟩ => expr.size

def orderSizes : List OrderBy → Nat
  | [] => 0
  | o :: rest => o.size + orderSizes rest

def Source.size : Source → Nat
  | .table _ => 0
  | .derived _ statement => statement.size
  | .values _ _ rows => rowSizes rows
  | .join _ source condition => source.size + optionSize condition

def sourceSizes : List Source → Nat
  | [] => 0
  | s :: rest => s.size + sourceSizes rest

def Projection.size : Projection → Nat
  | ⟨_, expr⟩ => expr.size

def projectionSizes : List Projection → Nat
  | [] => 0
  | p :: rest => p.size + projectionSizes rest

def NamedWindow.size : NamedWindow → Nat
  | ⟨_, spec⟩ => spec.size

def windowSizes : List NamedWindow → Nat
  | [] => 0
  | w :: rest => w.size + windowSizes rest

def Distinct.size : Distinct → Nat
  | .all => 0
  | .on exprs => exprSizes exprs

def distinctSize : Option Distinct → Nat
  | none => 0
  | some d => d.size

def Cte.size : Cte → Nat
  | ⟨_, statement, _⟩ => statement.size

def cteSizes : List Cte → Nat
  | [] => 0
  | c :: rest => c.size + cteSizes rest

def Select.size : Select → Nat
  | ⟨ctes, distinct, projection, sources, predicates, groupBy, having, windows, orderBy, _, _, _⟩ =>
    cteSizes ctes + distinctSize distinct + projectionSizes projection + sourceSizes sources +
      exprSizes predicates + exprSizes groupBy + optionSize having + windowSizes windows +
      orderSizes orderBy + 1

def SetOperation.size : SetOperation → Nat
  | ⟨ctes, first, rest, orderBy, _, _, _⟩ =>
    cteSizes ctes + first.size + branchSizes rest + orderSizes orderBy + 1

def branchSizes : List (SetOperator × Statement) → Nat
  | [] => 0
  | (_, statement) :: rest => statement.size + branchSizes rest

def Assignment.size : Assignment → Nat
  | ⟨_, value⟩ => value.size

def assignmentSizes : List Assignment → Nat
  | [] => 0
  | a :: rest => a.size + assignmentSizes rest

def InsertSource.size : InsertSource → Nat
  | .values rows => rowSizes rows
  | .query statement => statement.size
  | .defaultValues => 0

def ConflictAction.size : ConflictAction → Nat
  | .doNothing => 0
  | .doUpdate assignments => assignmentSizes assignments

def OnConflict.size : OnConflict → Nat
  | ⟨_, action⟩ => action.size

def conflictSize : Option OnConflict → Nat
  | none => 0
  | some c => c.size

def Insert.size : Insert → Nat
  | ⟨ctes, _, _, source, onConflict, _, _, returning, _⟩ =>
    cteSizes ctes + source.size + conflictSize onConflict + projectionSizes returning + 1

def Update.size : Update → Nat
  | ⟨ctes, _, assignments, sources, predicates, orderBy, _, returning, _⟩ =>
    cteSizes ctes + assignmentSizes assignments + sourceSizes sources + exprSizes predicates +
      orderSizes orderBy + projectionSizes returning + 4

def Delete.size : Delete → Nat
  | ⟨ctes, _, sources, predicates, orderBy, _, returning, _⟩ =>
    cteSizes ctes + sourceSizes sources + exprSizes predicates + orderSizes orderBy +
      projectionSizes returning + 4

/-- The number of expressions and statements in a statement. -/
def Statement.size : Statement → Nat
  | .select query => query.size
  | .insert change => change.size
  | .update change => change.size
  | .delete change => change.size
  | .setOp query => query.size

end

end QueryPlan
