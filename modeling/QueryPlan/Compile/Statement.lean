import QueryPlan.Compile.Mutation
import QueryPlan.Compile.Nested
import QueryPlan.Plan.Size

/-!
# Statements

Ties the pieces of the compiler together. A window that is written in place can bring more to write
than the plan holds, and windows that are defined by each other would have no end, so that the
recursion is bounded by a depth. `Statement.depthBound` is far above what any plan without such
windows needs.
-/

namespace QueryPlan

open Compile Renderer

namespace Renderer

variable (r : Renderer)

/-- An expression, with what renders its parts. -/
def renderExpr : Expr → Compile Fragment
  | .constant value type => do
    if (← read).constantsAsParams && !value.isNull then return .atom (← constant value type)
    else literal value
  | .field source name _ => return .atom (← field source name)
  | .param name type => return .atom (← argument name type)
  | .function name args _ => return .atom (name ++ "(" ++ (← r.list args) ++ ")")
  | .aggregate kind distinct arg filter => r.aggregate kind distinct arg filter
  | .unary op operand =>
    r.operator Formats.unaryOps op op.strength .both [("operand", operand)]
  | .binary op left right =>
    r.operator Formats.binaryOps op op.strength op.associativity [("left", left), ("right", right)]
  | .unaryPredicate op operand =>
    r.operator Formats.unaryPredicates op op.strength .both [("operand", operand)]
  | .binaryPredicate op left right =>
    r.operator Formats.binaryPredicates op op.strength .left [("left", left), ("right", right)]
  | .conditions op operands => r.conditions op operands
  | .not operand => do
    let operand ← r.operand operand false notStrength .both
    return ⟨← keyword .not [("operand", operand.text)], notStrength⟩
  | .case subject arms otherwise => r.case subject arms otherwise
  | .cast type operand => r.cast type operand
  | .between value low high negated => r.between value low high negated
  | .member value list negated => r.member value list negated
  | .rowsExist query negated => r.rowsExist query negated
  | .row elements => r.row elements
  | .raw sql => return ⟨sql, 0⟩
  | .default => return .atom (← keyword .default)
  | .query statement => r.query statement
  | .windowed e window => r.windowed e window
  | .excluded column => return .atom (← keyword .excluded [("column", ← quote column)])

/-- A statement, with what renders its parts. Its common table expressions are not visible beside
    it. -/
def renderStatement (s : Statement) : Compile String :=
  inFrame <|
    match s with
    | .select q => r.select q
    | .setOp q => r.setOperation q
    | .insert c => r.insert c
    | .update c => r.update c
    | .delete c => r.delete c

end Renderer

mutual

/-- Writes an expression down to a depth. -/
def Expr.renderAt : (depth : Nat) → Expr → Compile Fragment
  | 0, _ => fail (.ofFault .endlessWindows)
  | depth + 1, e => Renderer.renderExpr ⟨Expr.renderAt depth, Statement.renderAt depth⟩ e

/-- Writes a statement down to a depth. -/
def Statement.renderAt : (depth : Nat) → Statement → Compile String
  | 0, _ => fail (.ofFault .endlessWindows)
  | depth + 1, s => Renderer.renderStatement ⟨Expr.renderAt depth, Statement.renderAt depth⟩ s

end

/-- A depth that no plan reaches unless its windows are defined by each other: every step into a
    named window leaves that window behind, so that the size of the plan is depth enough. Windows
    that have no end get more than any machine can give. -/
def Statement.depthBound (s : Statement) : Nat :=
  twoTo (64 + s.size)

def Expr.depthBound (e : Expr) : Nat :=
  twoTo (64 + e.size)

theorem Statement.size_lt_depthBound (s : Statement) : s.size < s.depthBound :=
  Nat.lt_of_le_of_lt (Nat.le_add_left s.size 64) Nat.lt_two_pow_self

theorem Expr.size_lt_depthBound (e : Expr) : e.size < e.depthBound :=
  Nat.lt_of_le_of_lt (Nat.le_add_left e.size 64) Nat.lt_two_pow_self

/-- Writes a statement. -/
def Statement.render (s : Statement) : Compile String :=
  s.renderAt s.depthBound

/-- Writes an expression that stands alone. -/
def Expr.render (e : Expr) : Compile Fragment :=
  e.renderAt e.depthBound

end QueryPlan
