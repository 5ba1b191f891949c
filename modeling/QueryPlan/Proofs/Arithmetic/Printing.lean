import QueryPlan.Dialect.Postgres
import QueryPlan.Proofs.Arithmetic.Basic
import QueryPlan.Proofs.Compile.Operators

/-!
# Printing arithmetic

What the compiler prints for a tree of arithmetic, as a function of the tree and of the references
to its columns (`Arith.printed`, `render_toExpr`). The references depend on the scope
(`columnText`); the text takes nothing else from the state of the compilation.
-/

namespace QueryPlan

open Compile

/-! ## 1. Operators -/

theorem segments_sign :
    (Template.parse "{keyword}{operand}").segments =
      [.slot "keyword" none, .slot "operand" none] := by
  decide +kernel

theorem lookup_sign {s : Setting} (hs : s.dialect = .postgres) (c : Context) :
    lookup Formats.unaryOps UnaryOperator.neg [] s c =
      .ok (⟨.parse "{keyword}{operand}", "-", none⟩, c) := by
  unfold lookup
  rw [bind_run dialect_run, bind_run read_run, hs]
  rfl

theorem lookup_operator {s : Setting} (hs : s.dialect = .postgres) (c : Context) (op : ArithOp) :
    lookup Formats.binaryOps op.toBinary [] s c =
      .ok (⟨.parse "{left} {keyword} {right}", op.keyword, none⟩, c) := by
  unfold lookup
  rw [bind_run dialect_run, bind_run read_run, hs]
  cases op <;> rfl

section

variable {s : Setting} (hs : s.dialect = .postgres) {c : Context} {r : Renderer}
include hs

theorem sign_run {e : Expr} {f : Fragment} (h : r.expr e s c = .ok (f, c)) :
    r.operator Formats.unaryOps UnaryOperator.neg signStrength .both [("operand", e)] s c =
      .ok (⟨"-" ++ (f.asOperand false signStrength .both).text, signStrength⟩, c) := by
  rw [operator_run₁ (lookup_sign hs c) signStrength .both h]
  simp only [Template.operandText, Template.slotStrength?, Template.render, Template.renderWith,
    segments_sign]
  simp [Template.slotText, Fields.get?_cons]

theorem operator_run (op : ArithOp) {e₁ e₂ : Expr} {f g : Fragment}
    (hf : r.expr e₁ s c = .ok (f, c)) (hg : r.expr e₂ s c = .ok (g, c)) :
    r.operator Formats.binaryOps op.toBinary op.strength op.associativity
        [("left", e₁), ("right", e₂)] s c =
      .ok (⟨(f.asOperand true op.strength op.associativity).text ++ " " ++ op.keyword ++ " " ++
        (g.asOperand false op.strength op.associativity).text, op.strength⟩, c) :=
  infix_run (lookup_operator hs c op) op.strength op.associativity hf hg

end

/-! ## 2. Trees -/

namespace Arith

/-- What is printed for a tree over references. -/
def printed : Arith String → Fragment
  | column ref => .atom ref
  | neg t => ⟨"-" ++ (t.printed.asOperand false signStrength .both).text, signStrength⟩
  | binary op l r =>
    ⟨(l.printed.asOperand true op.strength op.associativity).text ++ " " ++ op.keyword ++ " " ++
      (r.printed.asOperand false op.strength op.associativity).text, op.strength⟩

theorem strength_printed (t : Arith String) : t.printed.strength = t.strength := by
  cases t <;> rfl

def height {α : Type} : Arith α → Nat
  | column _ => 1
  | neg t => t.height + 1
  | binary _ l r => max l.height r.height + 1

theorem height_le_size (t : Arith ColumnRef) : t.height ≤ t.toExpr.size := by
  induction t with
  | column c => exact Nat.le_refl 1
  | neg t ih | binary op l r ihl ihr =>
    simp only [height, toExpr, Expr.size]
    omega

end Arith

/-- What the compiler prints down to a depth. -/
theorem renderAt_toExpr {s : Setting} (hs : s.dialect = .postgres) (c : Context)
    (t : Arith ColumnRef) :
    ∀ depth, t.height ≤ depth →
      t.toExpr.renderAt depth s c = .ok ((t.map (columnText s c)).printed, c) := by
  induction t with
  | column ref =>
    intro depth hdepth
    cases depth with
    | zero => cases hdepth
    | succ depth => exact bind_run (field_run s c ref)
  | neg t ih =>
    intro depth hdepth
    cases depth with
    | zero => cases hdepth
    | succ depth =>
      exact sign_run hs (ih depth (Nat.le_of_succ_le_succ hdepth))
  | binary op l r ihl ihr =>
    intro depth hdepth
    cases depth with
    | zero => cases hdepth
    | succ depth =>
      have hmax : max l.height r.height ≤ depth := Nat.le_of_succ_le_succ hdepth
      exact operator_run hs op (ihl depth (Nat.le_trans (Nat.le_max_left _ _) hmax))
        (ihr depth (Nat.le_trans (Nat.le_max_right _ _) hmax))

/-- **What the compiler prints for a tree of arithmetic.** -/
theorem render_toExpr {s : Setting} (hs : s.dialect = .postgres) (c : Context)
    (t : Arith ColumnRef) :
    t.toExpr.render s c = .ok ((t.map (columnText s c)).printed, c) := by
  refine renderAt_toExpr hs c t _ (Nat.le_trans t.height_le_size ?_)
  exact Nat.le_of_lt t.toExpr.size_lt_depthBound

end QueryPlan
