import Mathlib.Data.Int.Bitwise
import QueryPlan.Proofs.Compile.References

/-!
# Arithmetic over columns

The expressions that are built from columns with signs and the operators of integer arithmetic, as
trees of their own (`Arith`). The leaves are a parameter: they are the columns of a plan, the
references that are printed for them, or numbers.

* `Arith.toExpr` embeds the trees over columns in the expressions of plans.
* `Arith.eval` is the value of a tree over numbers. Integers are unbounded, quotients are cut
  towards zero, and dividing by zero has no value.
-/

namespace QueryPlan

/-! ## 1. Trees -/

/-- The operators of integer arithmetic. -/
inductive ArithOp where
  | add
  | sub
  | mul
  | div
  | mod
  | bitAnd
  | bitOr
  deriving DecidableEq

namespace ArithOp

def toBinary : ArithOp → BinaryOperator
  | add => .add
  | sub => .sub
  | mul => .mul
  | div => .div
  | mod => .mod
  | bitAnd => .bitAnd
  | bitOr => .bitOr

def all : List ArithOp :=
  [add, sub, mul, div, mod, bitAnd, bitOr]

def keyword (op : ArithOp) : String :=
  Worded.keyword op.toBinary

def strength (op : ArithOp) : Strength :=
  op.toBinary.strength

def associativity (op : ArithOp) : Associativity :=
  op.toBinary.associativity

theorem strength_lt_sign (op : ArithOp) : op.strength < signStrength := by
  cases op <;> decide

theorem strength_lt_atom (op : ArithOp) : op.strength < atomStrength := by
  cases op <;> decide

end ArithOp

/-- A tree of operators. -/
inductive Arith (α : Type) where
  | column (c : α)
  | neg (operand : Arith α)
  | binary (op : ArithOp) (left right : Arith α)
  deriving DecidableEq

namespace Arith

variable {α β γ : Type}

def toExpr : Arith ColumnRef → Expr
  | column c => .field c.source c.name c.type
  | neg t => .unary .neg t.toExpr
  | binary op l r => .binary op.toBinary l.toExpr r.toExpr

def map (f : α → β) : Arith α → Arith β
  | column c => column (f c)
  | neg t => neg (t.map f)
  | binary op l r => binary op (l.map f) (r.map f)

theorem map_map (f : α → β) (g : β → γ) (t : Arith α) : (t.map f).map g = t.map (g ∘ f) := by
  induction t with
  | column c => rfl
  | neg t ih => rw [map, map, ih, map]
  | binary op l r ihl ihr => rw [map, map, ihl, ihr, map]

/-- The leaves from left to right. -/
def leaves : Arith α → List α
  | column c => [c]
  | neg t => t.leaves
  | binary _ l r => l.leaves ++ r.leaves

theorem leaves_map (f : α → β) (t : Arith α) : (t.map f).leaves = t.leaves.map f := by
  induction t with
  | column c => rfl
  | neg t ih => exact ih
  | binary op l r ihl ihr => rw [map, leaves, ihl, ihr, leaves, List.map_append]

/-- How strongly the outermost operator binds. -/
def strength : Arith α → Strength
  | column _ => atomStrength
  | neg _ => signStrength
  | binary op _ _ => op.strength

@[simp] theorem strength_map (f : α → β) (t : Arith α) : (t.map f).strength = t.strength := by
  cases t <;> rfl

end Arith

/-! ## 2. Values -/

/-- The value of an operator. -/
def ArithOp.apply : ArithOp → Int → Int → Option Int
  | add, x, y => some (x + y)
  | sub, x, y => some (x - y)
  | mul, x, y => some (x * y)
  | div, x, y => if y = 0 then none else some (x.tdiv y)
  | mod, x, y => if y = 0 then none else some (x.tmod y)
  | bitAnd, x, y => some (Int.land x y)
  | bitOr, x, y => some (Int.lor x y)

theorem ArithOp.apply_div {y : Int} (h : y ≠ 0) (x : Int) : div.apply x y = some (x.tdiv y) :=
  if_neg h

theorem ArithOp.apply_mod {y : Int} (h : y ≠ 0) (x : Int) : mod.apply x y = some (x.tmod y) :=
  if_neg h

namespace Arith

/-- The value of a tree over numbers. -/
def eval : Arith Int → Option Int
  | column x => some x
  | neg t => t.eval.map fun x => -x
  | binary op l r => l.eval.bind fun x => r.eval.bind fun y => op.apply x y

/-- The value of a tree where its leaves have values. -/
def value {α : Type} (ρ : α → Int) (t : Arith α) : Option Int :=
  (t.map ρ).eval

end Arith

/-! ## 3. Laws of bitwise operators -/

/-- Numbers with the same bits are the same. -/
theorem eq_of_testBit_eq {x y : Int} (h : ∀ i, x.testBit i = y.testBit i) : x = y := by
  -- the bits of a number end with its sign
  have hsign : ∀ m n : Nat, ¬ ∀ i, m.testBit i = !n.testBit i := by
    intro m n hmn
    have hm : m < 2 ^ (m + n) :=
      Nat.lt_of_lt_of_le Nat.lt_two_pow_self (Nat.pow_le_pow_right (by decide) (by omega))
    have hn : n < 2 ^ (m + n) :=
      Nat.lt_of_lt_of_le Nat.lt_two_pow_self (Nat.pow_le_pow_right (by decide) (by omega))
    have hbit := hmn (m + n)
    rw [Nat.testBit_lt_two_pow hm, Nat.testBit_lt_two_pow hn] at hbit
    cases hbit
  cases x with
  | ofNat m =>
    cases y with
    | ofNat n => exact congrArg Int.ofNat (Nat.eq_of_testBit_eq h)
    | negSucc n => exact absurd h (hsign m n)
  | negSucc m =>
    cases y with
    | ofNat n => exact absurd (fun i => (h i).symm) (hsign n m)
    | negSucc n =>
      exact congrArg Int.negSucc (Nat.eq_of_testBit_eq fun i => Bool.not_inj (h i))

theorem land_assoc (x y z : Int) : Int.land (Int.land x y) z = Int.land x (Int.land y z) :=
  eq_of_testBit_eq fun i => by simp only [Int.testBit_land, Bool.and_assoc]

theorem lor_assoc (x y z : Int) : Int.lor (Int.lor x y) z = Int.lor x (Int.lor y z) :=
  eq_of_testBit_eq fun i => by simp only [Int.testBit_lor, Bool.or_assoc]

theorem land_comm (x y : Int) : Int.land x y = Int.land y x :=
  eq_of_testBit_eq fun i => by simp only [Int.testBit_land, Bool.and_comm]

theorem lor_comm (x y : Int) : Int.lor x y = Int.lor y x :=
  eq_of_testBit_eq fun i => by simp only [Int.testBit_lor, Bool.or_comm]

theorem testBit_neg_one (i : Nat) : Int.testBit (-1) i = true := by
  change (!Nat.testBit 0 i) = true
  rw [Nat.zero_testBit]
  rfl

theorem land_neg_one (x : Int) : Int.land x (-1) = x :=
  eq_of_testBit_eq fun i => by rw [Int.testBit_land, testBit_neg_one, Bool.and_true]

theorem lor_neg_one (x : Int) : Int.lor x (-1) = -1 :=
  eq_of_testBit_eq fun i => by rw [Int.testBit_lor, testBit_neg_one, Bool.or_true]

theorem lor_zero (x : Int) : Int.lor x 0 = x :=
  eq_of_testBit_eq fun i => by
    have hzero : Int.testBit 0 i = false := Nat.zero_testBit i
    rw [Int.testBit_lor, hzero, Bool.or_false]

end QueryPlan
