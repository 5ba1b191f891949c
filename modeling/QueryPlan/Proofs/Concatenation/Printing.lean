import QueryPlan.Dialect.MsSql
import QueryPlan.Proofs.Compile.Operators
import QueryPlan.Proofs.Compile.References
import QueryPlan.Proofs.Lexical.Words

/-!
# Printing sums and concatenations

In SQL Server strings are concatenated with a plus sign. The operator keeps its strength, which is
less than that of sums, so that a sum gets no parentheses as an operand of a concatenation
(`SumOp.wraps`). This module says what is printed for a tree of columns, concatenations and sums
(`render_sums`), and into which pieces the text is cut (`cuts_printed`).
-/

namespace QueryPlan

open Compile

/-! ## 1. Trees -/

/-- The signs of a sum. -/
inductive SumSign where
  | plus
  | minus
  deriving DecidableEq

def SumSign.char : SumSign → Char
  | plus => '+'
  | minus => '-'

/-- A tree of binary operators. -/
inductive OpTree (ω α : Type) where
  | leaf (a : α)
  | node (op : ω) (left right : OpTree ω α)
  deriving DecidableEq

namespace OpTree

variable {ω ω' α β : Type}

def map (f : α → β) : OpTree ω α → OpTree ω β
  | leaf a => leaf (f a)
  | node op l r => node op (l.map f) (r.map f)

/-- The tree with other operators. -/
def mapOp (f : ω → ω') : OpTree ω α → OpTree ω' α
  | leaf a => leaf a
  | node op l r => node (f op) (l.mapOp f) (r.mapOp f)

/-- The leaves from left to right. -/
def leaves : OpTree ω α → List α
  | leaf a => [a]
  | node _ l r => l.leaves ++ r.leaves

theorem leaves_map (f : α → β) (t : OpTree ω α) : (t.map f).leaves = t.leaves.map f := by
  induction t with
  | leaf a => rfl
  | node op l r ihl ihr => rw [map, leaves, ihl, ihr, leaves, List.map_append]

def height : OpTree ω α → Nat
  | leaf _ => 1
  | node _ l r => max l.height r.height + 1

end OpTree

/-- Concatenation, and the operators of sums. -/
inductive SumOp where
  | concat
  | add
  | sub
  deriving DecidableEq

namespace SumOp

def toBinary : SumOp → BinaryOperator
  | concat => .concat
  | add => .add
  | sub => .sub

/-- How an operator is spelled. -/
def sign : SumOp → SumSign
  | concat => .plus
  | add => .plus
  | sub => .minus

def strength (op : SumOp) : Strength :=
  op.toBinary.strength

def associativity (op : SumOp) : Associativity :=
  op.toBinary.associativity

/-- Whether an operand gets parentheses: a concatenation in a sum, and a sum that is taken away.
    Neither gets any in a concatenation. -/
def wraps {α : Type} (op : SumOp) (isLeft : Bool) : OpTree SumOp α → Bool
  | .leaf _ => false
  | .node child _ _ =>
    match op with
    | concat => false
    | add => child = concat
    | sub => child = concat || !isLeft

end SumOp

/-- A tree of columns, concatenations and sums. -/
def OpTree.toExpr : OpTree SumOp ColumnRef → Expr
  | leaf ref => ref.toExpr
  | node op l r => .binary op.toBinary l.toExpr r.toExpr

/-! ## 2. The text -/

namespace OpTree

/-- What is printed for a tree over references. -/
def printed : OpTree SumOp String → Fragment
  | leaf ref => .atom ref
  | node op l r =>
    ⟨(l.printed.asOperand true op.strength op.associativity).text ++ " " ++
        String.singleton op.sign.char ++ " " ++
        (r.printed.asOperand false op.strength op.associativity).text, op.strength⟩

theorem height_le_size (t : OpTree SumOp ColumnRef) : t.height ≤ t.toExpr.size := by
  induction t with
  | leaf ref => exact Nat.le_refl 1
  | node op l r ihl ihr =>
    simp only [height, toExpr, Expr.size]
    omega

end OpTree

theorem lookup_sumOp {s : Setting} (hs : s.dialect = .msSql) (c : Context) (op : SumOp) :
    lookup Formats.binaryOps op.toBinary [] s c =
      .ok (⟨.parse "{left} {keyword} {right}", String.singleton op.sign.char, none⟩, c) := by
  unfold lookup
  rw [bind_run dialect_run, bind_run read_run, hs]
  cases op <;> rfl

theorem renderAt_sums {s : Setting} (hs : s.dialect = .msSql) (c : Context)
    (t : OpTree SumOp ColumnRef) :
    ∀ depth, t.height ≤ depth →
      t.toExpr.renderAt depth s c = .ok ((t.map (columnText s c)).printed, c) := by
  induction t with
  | leaf ref =>
    intro depth hdepth
    cases depth with
    | zero => cases hdepth
    | succ depth => exact bind_run (field_run s c ref)
  | node op l r ihl ihr =>
    intro depth hdepth
    cases depth with
    | zero => cases hdepth
    | succ depth =>
      have hmax : max l.height r.height ≤ depth := Nat.le_of_succ_le_succ hdepth
      exact infix_run (lookup_sumOp hs c op) op.strength op.associativity
        (ihl depth (Nat.le_trans (Nat.le_max_left _ _) hmax))
        (ihr depth (Nat.le_trans (Nat.le_max_right _ _) hmax))

/-- **What the compiler prints for a tree of concatenations and sums.** -/
theorem render_sums {s : Setting} (hs : s.dialect = .msSql) (c : Context)
    (t : OpTree SumOp ColumnRef) :
    t.toExpr.render s c = .ok ((t.map (columnText s c)).printed, c) := by
  refine renderAt_sums hs c t _ (Nat.le_trans t.height_le_size ?_)
  exact Nat.le_of_lt t.toExpr.size_lt_depthBound

/-! ## 3. The pieces -/

/-- Cuts by parentheses and signs. -/
def sumCutter : Cutter :=
  Dialect.msSql.cutter ['(', ')', '+', '-']

theorem isApart_sumCutter : sumCutter.isApart = true := by
  decide

theorem splits_sign (sign : SumSign) :
    sumCutter.Splits (" " ++ String.singleton sign.char ++ " ") [.mark sign.char] := by
  cases sign <;> exact fun rest => rfl

namespace OpTree

/-- The pieces of what is printed. -/
def pieces : OpTree SumOp String → List Piece
  | leaf ref => [.word ref]
  | node op l r =>
    (if op.wraps true l then parenthesized l.pieces else l.pieces) ++ .mark op.sign.char ::
      (if op.wraps false r then parenthesized r.pieces else r.pieces)

theorem needsParens_printed (t : OpTree SumOp String) (isLeft : Bool) (op : SumOp) :
    needsParens t.printed isLeft op.strength op.associativity = op.wraps isLeft t := by
  cases t with
  | leaf ref => cases op <;> rfl
  | node child l r => cases op <;> cases child <;> cases isLeft <;> rfl

theorem startsPlain_printed {t : OpTree SumOp String}
    (h : ∀ ref ∈ t.leaves, Dialect.msSql.IsPath ref) : StartsPlain t.printed.text := by
  induction t with
  | leaf ref => exact DialectKind.msSql.startsPlain_path (h ref List.mem_cons_self)
  | node op l r ihl ihr =>
    have hleft := (ihl fun ref href =>
      h ref (List.mem_append_left _ href)).asOperand true op.strength
      op.associativity
    exact (((hleft.append _).append _).append _).append _

/-- **The text of a tree is cut into its pieces.** -/
theorem cuts_printed {t : OpTree SumOp String} (h : ∀ ref ∈ t.leaves, Dialect.msSql.IsPath ref) :
    sumCutter.Cuts t.printed.text t.pieces := by
  induction t with
  | leaf ref =>
    exact (isWord_of_isPath isApart_sumCutter (h ref List.mem_cons_self)).cuts isApart_sumCutter
  | node op l r ihl ihr =>
    have hl : ∀ ref ∈ l.leaves, Dialect.msSql.IsPath ref :=
      fun ref href => h ref (List.mem_append_left _ href)
    have hr : ∀ ref ∈ r.leaves, Dialect.msSql.IsPath ref :=
      fun ref href => h ref (List.mem_append_right _ href)
    have hleft := cuts_asOperand isApart_sumCutter rfl rfl (ihl hl) (startsPlain_printed hl) true
      op.strength op.associativity
    have hright := cuts_asOperand isApart_sumCutter rfl rfl (ihr hr) (startsPlain_printed hr) false
      op.strength op.associativity
    rw [needsParens_printed] at hleft hright
    have hsign := (splits_sign op.sign).append_cuts hright
    have hall := hleft.append hsign ((((Cutter.startsApart_blank _).append _).append _).append _)
    simpa only [printed, pieces, String.append_assoc, List.singleton_append] using hall

end OpTree

end QueryPlan
