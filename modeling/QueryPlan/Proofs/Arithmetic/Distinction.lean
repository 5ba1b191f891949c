import Mathlib.Tactic.Ring
import QueryPlan.Proofs.Arithmetic.Regrouping

/-!
# Numbers that tell regrouped trees apart

A tree that is not regrouped by laws of arithmetic only can be given numbers for which its value
changes (`exists_eval_ne`). The numbers are found from the inside out: where two operators meet that
do not change places, three numbers make the difference (`exists_meeting`); around that place, each
operator is given a number that lets the difference through.

Two values are told apart by their absolute values, which have to be large enough not to be lost in
a division (`Distinguished`). `Arith.fill` gives a tree a value of choice: the leftmost leaf has it,
and each right operand is neutral for its operator. A neutral right operand stays neutral wherever
regrouping puts it (`eval_attach_fill`).
-/

namespace QueryPlan

variable {bound : Nat} {op : ArithOp} {s : Strength} {x y : Int}

/-! ## 1. Neutral operands -/

namespace ArithOp

/-- A right operand that keeps all values below a bound. -/
def unit : ArithOp → (bound : Nat) → Int
  | mul, _ => 1
  | div, _ => 1
  | mod, bound => bound
  | bitAnd, _ => -1
  | add, _ => 0
  | sub, _ => 0
  | bitOr, _ => 0

theorem natAbs_unit_lt (op : ArithOp) (h : 0 < bound) : (op.unit bound).natAbs < bound + 1 := by
  cases op <;> simp only [unit] <;> omega

theorem tmod_of_natAbs_lt {n : Nat} (h : x.natAbs < n) : x.tmod n = x := by
  rcases Int.natAbs_eq x with hx | hx
  · rw [hx]
    exact congrArg Int.ofNat (Nat.mod_eq_of_lt h)
  · rw [hx, Int.neg_tmod]
    exact congrArg (fun m : Nat => -(m : Int)) (Nat.mod_eq_of_lt h)

theorem apply_unit (op : ArithOp) (h : x.natAbs < bound) : op.apply x (op.unit bound) = some x := by
  cases op with
  | add => exact congrArg some (Int.add_zero x)
  | sub => exact congrArg some (Int.sub_zero x)
  | mul => exact congrArg some (Int.mul_one x)
  | div => exact congrArg some (Int.tdiv_one x)
  | mod =>
    have hne : (bound : Int) ≠ 0 := by omega
    exact (apply_mod hne x).trans (congrArg some (tmod_of_natAbs_lt h))
  | bitAnd => exact congrArg some (land_neg_one x)
  | bitOr => exact congrArg some (lor_zero x)

end ArithOp

namespace Arith

variable {α : Type}

/-- A tree with a value of choice below a bound. -/
def fill : Arith α → (value : Int) → (bound : Nat) → Arith Int
  | column _, value, _ => column value
  | neg t, value, bound => neg (t.fill (-value) bound)
  | binary op l r, value, bound =>
    binary op (l.fill value bound) (r.fill (op.unit bound) (bound + 1))

theorem shape_fill (t : Arith α) (value : Int) (bound : Nat) :
    (t.fill value bound).shape = t.shape := by
  induction t generalizing value bound with
  | column c => rfl
  | neg t ih => exact congrArg neg (ih _ _)
  | binary op l r ihl ihr => exact congrArg₂ (binary op) (ihl _ _) (ihr _ _)

theorem eval_binary {l r : Arith Int} (hl : l.eval = some x) (hr : r.eval = some y) :
    (binary op l r).eval = op.apply x y := by
  rw [eval, hl, hr]
  rfl

theorem eval_fill (t : Arith α) {value : Int} (h : value.natAbs < bound) :
    (t.fill value bound).eval = some value := by
  induction t generalizing value bound with
  | column c => rfl
  | neg t ih =>
    rw [fill, eval, ih (by rwa [Int.natAbs_neg])]
    exact congrArg some (Int.neg_neg value)
  | binary op l r ihl ihr =>
    have hunit := op.natAbs_unit_lt (Nat.zero_lt_of_lt h)
    rw [fill, eval_binary (ihl h) (ihr hunit)]
    exact op.apply_unit h

/-- Whether a tree has a value, and gives it to an operator in front also where it is regrouped. -/
structure Passes (u : Arith Int) (value : Int) (bound : Nat) : Prop where
  eval : u.eval = some value
  attach : ∀ {op : ArithOp} {t : Arith Int} {x y : Int}, t.eval = some x →
    op.apply x value = some y → y.natAbs < bound → (attach op t u).eval = some y

namespace Passes

variable {op : ArithOp} {l r u : Arith Int} {value : Int} {bound : Nat}

/-- A tree that no operator is regrouped with. -/
theorem ofStrength (hu : u.eval = some value) (hs : ∀ op : ArithOp, op.strength < u.strength) :
    Passes u value bound :=
  { eval := hu
    attach := fun {op} _ _ _ ht hop _ => by
      rw [attach_of_ne (Int32.ne_of_lt (hs op)).symm, eval_binary ht hu, hop] }

variable (hl : Passes l value bound) (hr : Passes r (op.unit bound) (bound + 1))
  (hvalue : value.natAbs < bound)
include hl hr hvalue

theorem binary : Passes (binary op l r) value bound := by
  have hnode : (Arith.binary op l r).eval = some value :=
    (eval_binary hl.eval hr.eval).trans (op.apply_unit hvalue)
  refine ⟨hnode, fun {op' t x y} ht hop hy => ?_⟩
  by_cases heq : op.strength = op'.strength
  · rw [Arith.attach, if_pos heq, eval_binary (hl.attach ht hop hy) hr.eval]
    exact op.apply_unit hy
  · rw [attach_of_ne (by exact heq), eval_binary ht hnode, hop]

theorem regrouped : Passes (Arith.attach op l r) value bound := by
  have hnode : (Arith.attach op l r).eval = some value :=
    hr.attach hl.eval (op.apply_unit hvalue) (Nat.lt_succ_of_lt hvalue)
  refine ⟨hnode, fun {op' t x y} ht hop hy => ?_⟩
  by_cases heq : op.strength = op'.strength
  · rw [attach_attach heq]
    exact hr.attach (hl.attach ht hop hy) (op.apply_unit hy) (Nat.lt_succ_of_lt hy)
  · rw [attach_of_ne (by rw [strength_attach]; exact heq), eval_binary ht hnode, hop]

end Passes

/-- **A filled tree passes its value on**, however its operands are regrouped. -/
theorem passes_fill (t : Arith α) {value : Int} (h : value.natAbs < bound) :
    Passes (t.fill value bound).regroup value bound := by
  induction t generalizing value bound with
  | column c => exact .ofStrength rfl ArithOp.strength_lt_atom
  | neg t ih =>
    have hneg : (-value).natAbs < bound := by rwa [Int.natAbs_neg]
    refine .ofStrength ?_ ArithOp.strength_lt_sign
    rw [fill, regroup, eval, (ih hneg).eval]
    exact congrArg some (Int.neg_neg value)
  | binary op l r ihl ihr =>
    have hr := ihr (op.natAbs_unit_lt (Nat.zero_lt_of_lt h))
    rw [fill, regroup]
    split
    · exact (ihl h).regrouped hr h
    · exact (ihl h).binary hr h

end Arith

/-! ## 2. Values that are told apart -/

/-- Values with different absolute values, both large. -/
structure Distinguished (least : Nat) (x y : Int) : Prop where
  left : least ≤ x.natAbs
  right : least ≤ y.natAbs
  ne : x.natAbs ≠ y.natAbs

theorem natAbs_tmod_pred (n : Nat) (hx : 0 < x.natAbs) (hn : 0 < n) :
    ((x.natAbs * n - 1 : Nat) : Int).tmod x = ((x.natAbs - 1 : Nat) : Int) := by
  have hmod : (x.natAbs * n - 1) % x.natAbs = x.natAbs - 1 := by
    obtain ⟨m, rfl⟩ : ∃ m, n = m + 1 := ⟨n - 1, by omega⟩
    have hsplit : x.natAbs * (m + 1) - 1 = x.natAbs - 1 + x.natAbs * m := by
      rw [Nat.mul_succ]
      omega
    rw [hsplit, Nat.add_mul_mod_self_left, Nat.mod_eq_of_lt (by omega)]
  have hsign : ∀ m : Nat, (m : Int).tmod x = (m : Int).tmod x.natAbs := by
    intro m
    rcases Int.natAbs_eq x with hx | hx
    · exact congrArg _ hx
    · exact (congrArg _ hx).trans (Int.tmod_neg _ _)
  rw [hsign]
  exact congrArg Int.ofNat hmod

/-- Whatever the operator, a left operand can be chosen that keeps two values apart. -/
theorem ArithOp.exists_left (op : ArithOp) {least : Nat} (h : Distinguished (least + 1) x y) :
    ∃ v x' y', op.apply v x = some x' ∧ op.apply v y = some y' ∧ Distinguished least x' y' := by
  have hweak : Distinguished least x y := ⟨Nat.le_of_succ_le h.left, Nat.le_of_succ_le h.right, h.ne⟩
  have hleft := h.left
  have hright := h.right
  have hx : x ≠ 0 := by omega
  have hy : y ≠ 0 := by omega
  cases op with
  | add => exact ⟨0, x, y, congrArg some (Int.zero_add x), congrArg some (Int.zero_add y), hweak⟩
  | sub =>
    refine ⟨0, -x, -y, congrArg some (Int.zero_sub x), congrArg some (Int.zero_sub y), ?_⟩
    exact ⟨by rw [Int.natAbs_neg]; exact hweak.left, by rw [Int.natAbs_neg]; exact hweak.right,
      by rw [Int.natAbs_neg, Int.natAbs_neg]; exact h.ne⟩
  | mul => exact ⟨1, x, y, congrArg some (Int.one_mul x), congrArg some (Int.one_mul y), hweak⟩
  | div =>
    refine ⟨x * y, y, x, (apply_div hx _).trans ?_, (apply_div hy _).trans ?_,
      ⟨hweak.right, hweak.left, h.ne.symm⟩⟩
    · exact congrArg some (Int.mul_tdiv_cancel_left y hx)
    · exact congrArg some (Int.mul_tdiv_cancel x hy)
  | mod =>
    refine ⟨((x.natAbs * y.natAbs - 1 : Nat) : Int), ((x.natAbs - 1 : Nat) : Int),
      ((y.natAbs - 1 : Nat) : Int), (apply_mod hx _).trans ?_, (apply_mod hy _).trans ?_, ?_⟩
    · exact congrArg some (natAbs_tmod_pred y.natAbs (by omega) (by omega))
    · rw [Nat.mul_comm]
      exact congrArg some (natAbs_tmod_pred x.natAbs (by omega) (by omega))
    · have hne := h.ne
      exact ⟨by omega, by omega, by omega⟩
  | bitAnd =>
    refine ⟨-1, x, y, congrArg some ?_, congrArg some ?_, hweak⟩
    · rw [land_comm, land_neg_one]
    · rw [land_comm, land_neg_one]
  | bitOr =>
    refine ⟨0, x, y, congrArg some ?_, congrArg some ?_, hweak⟩
    · rw [lor_comm, lor_zero]
    · rw [lor_comm, lor_zero]

/-- An even number and the next one differ in the last bit only. -/
theorem testBit_even (n i : Nat) :
    (2 * n).testBit i = ((2 * n + 1).testBit i && decide (i ≠ 0)) := by
  cases i with
  | zero => simp
  | succ i =>
    have hhalf : (2 * n + 1) / 2 = 2 * n / 2 := by omega
    rw [Nat.testBit_succ, Nat.testBit_succ, hhalf]
    simp

theorem land_even (n : Nat) :
    Int.land ((2 * n + 1 : Nat) : Int) ((2 * n : Nat) : Int) = ((2 * n : Nat) : Int) := by
  refine congrArg Int.ofNat (Nat.eq_of_testBit_eq fun i => ?_)
  rw [Nat.testBit_and, testBit_even]
  cases (2 * n + 1).testBit i <;> rfl

theorem lor_even (n : Nat) :
    Int.lor ((2 * n : Nat) : Int) ((2 * n + 1 : Nat) : Int) = ((2 * n + 1 : Nat) : Int) := by
  refine congrArg Int.ofNat (Nat.eq_of_testBit_eq fun i => ?_)
  rw [Nat.testBit_or, testBit_even]
  cases (2 * n + 1).testBit i <;> simp

namespace ArithOp

variable {op op' : ArithOp}

/-- The operators that meet without parentheses and do not change places. -/
theorem eq_of_not_regroups (hs : op'.strength = op.strength) (hboth : op.associativity = .both)
    (h : op.regroups op' = false) :
    op = mul ∧ op' = div ∨ op = mul ∧ op' = mod ∨ op = bitAnd ∧ op' = bitOr ∨
      op = bitOr ∧ op' = bitAnd := by
  cases op <;> cases op' <;>
    first
      | exact absurd hs (by decide)
      | exact absurd hboth (by decide)
      | exact absurd h (by decide)
      | simp

/-- Where two operators meet that do not change places, the two groupings can be told apart. -/
theorem exists_meeting (hs : op'.strength = op.strength) (hboth : op.associativity = .both)
    (h : op.regroups op' = false) (least : Nat) :
    ∃ v a b t z x y, op.apply v a = some t ∧ op'.apply t b = some y ∧ op'.apply a b = some z ∧
      op.apply v z = some x ∧ Distinguished least x y := by
  rcases eq_of_not_regroups hs hboth h with ⟨rfl, rfl⟩ | ⟨rfl, rfl⟩ | ⟨rfl, rfl⟩ | ⟨rfl, rfl⟩
  · -- `2n * (3 / 2)` and `2n * 3 / 2`
    refine ⟨2 * (least + 1), 3, 2, 6 * (least + 1), 1, 2 * (least + 1), 3 * (least + 1), ?_, ?_,
      rfl, ?_, ⟨by omega, by omega, by omega⟩⟩
    · exact congrArg some (by ring)
    · have hcancel : (6 * ((least : Int) + 1)) = 3 * (least + 1) * 2 := by ring
      rw [hcancel]
      exact congrArg some (Int.mul_tdiv_cancel _ (by decide))
    · exact congrArg some (Int.mul_one _)
  · -- `(2n + 1) * (1 % (n + 1))` and `(2n + 1) * 1 % (n + 1)`
    have hne : ((least + 2 : Nat) : Int) ≠ 0 := by omega
    refine ⟨((2 * least + 3 : Nat) : Int), 1, ((least + 2 : Nat) : Int),
      ((2 * least + 3 : Nat) : Int), 1, ((2 * least + 3 : Nat) : Int), ((least + 1 : Nat) : Int),
      congrArg some (Int.mul_one _), (apply_mod hne _).trans ?_, (apply_mod hne _).trans ?_,
      congrArg some (Int.mul_one _), ⟨by omega, by omega, by omega⟩⟩
    · have hmod : (2 * least + 3) % (least + 2) = least + 1 := by
        rw [show 2 * least + 3 = least + 1 + (least + 2) by omega, Nat.add_mod_right,
          Nat.mod_eq_of_lt (by omega)]
      exact congrArg (fun m : Nat => some (m : Int)) hmod
    · exact congrArg (fun m : Nat => some (m : Int))
        (Nat.mod_eq_of_lt (show 1 < least + 2 by omega))
  · -- `2n & (-1 | (2n + 1))` and `2n & -1 | (2n + 1)`
    have hor : Int.lor (-1) ((2 * (least + 1) + 1 : Nat) : Int) = -1 :=
      (lor_comm _ _).trans (lor_neg_one _)
    exact ⟨((2 * (least + 1) : Nat) : Int), -1, ((2 * (least + 1) + 1 : Nat) : Int), _, -1, _, _,
      congrArg some (land_neg_one _), congrArg some (lor_even _), congrArg some hor,
      congrArg some (land_neg_one _), ⟨by omega, by omega, by omega⟩⟩
  · -- `(2n + 1) | (0 & 2n)` and `(2n + 1) | 0 & 2n`
    have hand : Int.land 0 ((2 * (least + 1) : Nat) : Int) = 0 :=
      congrArg Int.ofNat (Nat.zero_and _)
    exact ⟨((2 * (least + 1) + 1 : Nat) : Int), 0, ((2 * (least + 1) : Nat) : Int), _, 0, _, _,
      congrArg some (lor_zero _), congrArg some (land_even _), congrArg some hand,
      congrArg some (lor_zero _), ⟨by omega, by omega, by omega⟩⟩

end ArithOp

/-! ## 3. Trees that are told apart -/

namespace Arith

variable {α β : Type}

variable {t : Arith α}

theorem merges_of_shape {u : Arith β} (h : u.shape = t.shape) (op : ArithOp) :
    merges op u = merges op t := by
  rw [← merges_map (fun _ => ()) op u, ← merges_map (fun _ => ()) op t]
  exact congrArg _ h

theorem spine_of_shape {u : Arith β} (h : u.shape = t.shape) (s : Strength) :
    u.regroup.spine s = t.regroup.spine s := by
  rw [← spine_map (fun _ => ()), ← spine_map (fun _ => ()) s t.regroup, ← regroup_map,
    ← regroup_map]
  exact congrArg _ (congrArg _ h)

theorem spine_attach (h : op.strength = s) (t u : Arith α) :
    (attach op t u).spine s = t.spine s ++ op :: u.spine s := by
  induction u with
  | column c | neg u => exact if_pos h
  | binary op' l r ihl ihr =>
    by_cases heq : op'.strength = op.strength
    · rw [attach, if_pos heq, spine, if_pos (heq.trans h), ihl, spine, if_pos (heq.trans h),
        List.append_assoc, List.cons_append]
    · rw [attach, if_neg heq, spine, if_pos h, spine, if_neg (by rwa [← h])]

/-- A tree whose values can be told apart from those of the tree it is read as. -/
def Differs (t : Arith α) : Prop :=
  ∀ least, ∃ u : Arith Int, u.shape = t.shape ∧
    ∃ x y, u.eval = some x ∧ u.regroup.eval = some y ∧ Distinguished least x y

/-- A right operand that can be told apart from what it is regrouped to behind a left operand. -/
def DiffersBehind (op : ArithOp) (r : Arith α) : Prop :=
  ∀ least, ∃ (v : Int) (u : Arith Int), u.shape = r.shape ∧
    ∃ z x y, u.eval = some z ∧ op.apply v z = some x ∧
      (∀ t : Arith Int, t.eval = some v → (attach op t u.regroup).eval = some y) ∧
      Distinguished least x y

/-- The difference goes on through a sign. -/
theorem Differs.neg (h : t.Differs) : (neg t).Differs := by
  intro least
  obtain ⟨u, hshape, x, y, hx, hy, hd⟩ := h least
  refine ⟨.neg u, congrArg Arith.neg hshape, -x, -y, ?_, ?_, ?_⟩
  · rw [eval, hx]
    rfl
  · rw [regroup, eval, hy]
    rfl
  · exact ⟨by rw [Int.natAbs_neg]; exact hd.left, by rw [Int.natAbs_neg]; exact hd.right,
      by rw [Int.natAbs_neg, Int.natAbs_neg]; exact hd.ne⟩

section

variable {op : ArithOp} {l r : Arith α}

/-- The value of a regrouped node whose right operand is filled with the unit of its operator. -/
theorem eval_regroup_unit {u : Arith Int} (hu : u.regroup.eval = some y) (hy : y.natAbs < bound)
    (r : Arith α) : (binary op u (r.fill (op.unit bound) (bound + 1))).regroup.eval = some y := by
  have hr := r.passes_fill (op.natAbs_unit_lt (Nat.zero_lt_of_lt hy))
  rw [regroup]
  split
  · exact hr.attach hu (op.apply_unit hy) (Nat.lt_succ_of_lt hy)
  · exact (eval_binary hu hr.eval).trans (op.apply_unit hy)

/-- The difference goes on from a left operand. -/
theorem Differs.left (h : l.Differs) : (binary op l r).Differs := by
  intro least
  obtain ⟨u, hshape, x, y, hx, hy, hd⟩ := h least
  let bound := max x.natAbs y.natAbs + 1
  have hxb : x.natAbs < bound := Nat.lt_succ_of_le (Nat.le_max_left _ _)
  have hyb : y.natAbs < bound := Nat.lt_succ_of_le (Nat.le_max_right _ _)
  refine ⟨binary op u (r.fill (op.unit bound) (bound + 1)),
    congrArg₂ (binary op) hshape (shape_fill _ _ _), x, y, ?_, eval_regroup_unit hy hyb r, hd⟩
  have hr := r.eval_fill (op.natAbs_unit_lt (Nat.zero_lt_of_lt hxb))
  exact (eval_binary hx hr).trans (op.apply_unit hxb)

/-- The difference goes on from a right operand that is regrouped by laws only. -/
theorem Differs.right (h : r.Differs) (hop : merges op r = true → regroupsWith op r = true) :
    (binary op l r).Differs := by
  intro least
  obtain ⟨u, hshape, x, y, hx, hy, hd⟩ := h (least + 1)
  obtain ⟨v, x', y', hx', hy', hd'⟩ := op.exists_left hd
  have hv : v.natAbs < v.natAbs + 1 := Nat.lt_succ_self _
  have hl := (l.passes_fill hv).eval
  refine ⟨binary op (l.fill v (v.natAbs + 1)) u,
    congrArg₂ (binary op) (shape_fill _ _ _) hshape, x', y', ?_, ?_, hd'⟩
  · exact (eval_binary (l.eval_fill hv) hx).trans hx'
  · rw [regroup, merges_of_shape hshape]
    split
    · next hm =>
      have hspine : ∀ op' ∈ u.regroup.spine op.strength, op.regroups op' = true := by
        rw [spine_of_shape hshape]
        exact List.all_eq_true.1 (hop hm)
      rw [eval_attach hspine]
      exact (eval_binary hl hy).trans hy'
    · exact (eval_binary hl hy).trans hy'

/-- A right operand that differs behind its operator makes the difference. -/
theorem DiffersBehind.node (h : DiffersBehind op r) (hm : merges op r = true) :
    (binary op l r).Differs := by
  intro least
  obtain ⟨v, u, hshape, z, x, y, hz, hx, hy, hd⟩ := h least
  have hv : v.natAbs < v.natAbs + 1 := Nat.lt_succ_self _
  refine ⟨binary op (l.fill v (v.natAbs + 1)) u,
    congrArg₂ (binary op) (shape_fill _ _ _) hshape, x, y, ?_, ?_, hd⟩
  · exact (eval_binary (l.eval_fill hv) hz).trans hx
  · rw [regroup, merges_of_shape hshape, if_pos hm]
    exact hy _ (l.passes_fill hv).eval

end

/-! ## 4. Operators that do not change places -/

theorem strength_of_mem_spine : ∀ op ∈ t.spine s, op.strength = s := by
  induction t with
  | column c | neg t => exact fun _ h => nomatch h
  | binary op l r ihl ihr =>
    intro op' hop'
    rw [spine] at hop'
    split at hop'
    · next h =>
      rcases List.mem_append.1 hop' with hl | hr
      · exact ihl op' hl
      · rwa [List.mem_singleton.1 hr]
    · cases hop'

/-- A left operand in front of a regrouped tree goes in front of its left operand. -/
theorem attach_regroup {op' : ArithOp} (h : op'.strength = op.strength) (t l r : Arith α) :
    attach op t (binary op' l r).regroup =
      if merges op' r then attach op' (attach op t l.regroup) r.regroup
      else binary op' (attach op t l.regroup) r.regroup := by
  rw [regroup]
  split
  · exact attach_attach h _ _ _
  · exact if_pos h

section

variable {op op' : ArithOp} {l r : Arith α}

/-- The operators that a tree is regrouped by. -/
theorem regroupsWith_binary (h : op'.strength = op.strength) :
    regroupsWith op (binary op' l r) =
      (regroupsWith op l && op.regroups op' && (!merges op' r || regroupsWith op r)) := by
  unfold regroupsWith
  rw [regroup]
  split
  · next hm => simp [spine_attach h, hm, Bool.and_assoc]
  · next hm => simp [spine, h, hm]

/-- Two operators that meet and do not change places make the difference. -/
theorem DiffersBehind.meeting (hs : op'.strength = op.strength) (hboth : op.associativity = .both)
    (h : op.regroups op' = false) : DiffersBehind op (binary op' l r) := by
  intro least
  obtain ⟨v, a, b, t, z, x, y, ht, hy, hz, hx, hd⟩ := ArithOp.exists_meeting hs hboth h least
  let bound := max a.natAbs t.natAbs + 1
  let bound' := max b.natAbs y.natAbs + 1
  have ha : a.natAbs < bound := Nat.lt_succ_of_le (Nat.le_max_left _ _)
  have htb : t.natAbs < bound := Nat.lt_succ_of_le (Nat.le_max_right _ _)
  have hb : b.natAbs < bound' := Nat.lt_succ_of_le (Nat.le_max_left _ _)
  have hyb : y.natAbs < bound' := Nat.lt_succ_of_le (Nat.le_max_right _ _)
  have hr := r.passes_fill hb
  refine ⟨v, binary op' (l.fill a bound) (r.fill b bound'),
    congrArg₂ (binary op') (shape_fill _ _ _) (shape_fill _ _ _), z, x, y, ?_, hx, ?_, hd⟩
  · exact (eval_binary (l.eval_fill ha) (r.eval_fill hb)).trans hz
  · intro u hu
    have hl := (l.passes_fill ha).attach hu ht htb
    rw [attach_regroup hs]
    split
    · exact hr.attach hl hy hyb
    · exact (eval_binary hl hr.eval).trans hy

/-- The difference goes on from the left operand of a right operand. -/
theorem DiffersBehind.left (hs : op'.strength = op.strength) (h : DiffersBehind op l) :
    DiffersBehind op (binary op' l r) := by
  intro least
  obtain ⟨v, u, hshape, z, x, y, hz, hx, hy, hd⟩ := h least
  let bound := max z.natAbs y.natAbs + 1
  have hzb : z.natAbs < bound := Nat.lt_succ_of_le (Nat.le_max_left _ _)
  have hyb : y.natAbs < bound := Nat.lt_succ_of_le (Nat.le_max_right _ _)
  have hunit := op'.natAbs_unit_lt (Nat.zero_lt_of_lt hzb)
  have hr := r.passes_fill hunit
  refine ⟨v, binary op' u (r.fill (op'.unit bound) (bound + 1)),
    congrArg₂ (binary op') hshape (shape_fill _ _ _), z, x, y, ?_, hx, ?_, hd⟩
  · exact (eval_binary hz (r.eval_fill hunit)).trans (op'.apply_unit hzb)
  · intro t ht
    rw [attach_regroup hs]
    split
    · exact hr.attach (hy t ht) (op'.apply_unit hyb) (Nat.lt_succ_of_lt hyb)
    · exact (eval_binary (hy t ht) hr.eval).trans (op'.apply_unit hyb)

/-- The difference goes on from the right operand of a right operand with the same operator. -/
theorem DiffersBehind.right (hm : merges op r = true) (h : DiffersBehind op r)
    (hunit : ∀ (bound : Nat) (z : Int), op.apply (op.unit bound) z = some z) :
    DiffersBehind op (binary op l r) := by
  intro least
  obtain ⟨v, u, hshape, z, x, y, hz, hx, hy, hd⟩ := h least
  let bound := v.natAbs + 1
  have hv : v.natAbs < bound := Nat.lt_succ_self _
  have hlt := op.natAbs_unit_lt (Nat.zero_lt_of_lt hv)
  refine ⟨v, binary op (l.fill (op.unit bound) (bound + 1)) u,
    congrArg₂ (binary op) (shape_fill _ _ _) hshape, z, x, y, ?_, hx, ?_, hd⟩
  · exact (eval_binary (l.eval_fill hlt) hz).trans (hunit bound z)
  · intro t ht
    rw [attach_regroup rfl, merges_of_shape hshape, if_pos hm]
    exact hy _ ((l.passes_fill hlt).attach ht (op.apply_unit hv) (Nat.lt_succ_of_lt hv))

end

theorem spine_of_ne (h : t.strength ≠ s) : t.spine s = [] := by
  cases t with
  | column c | neg t => rfl
  | binary op l r => exact if_neg h

/-- An operator that meets one with which it does not change places has a unit on the left, and
    changes places with itself only. -/
theorem unit_left_of_not_regroupsWith {r : Arith α} (hboth : op.associativity = .both)
    (h : regroupsWith op r = false) :
    (∀ (bound : Nat) (z : Int), op.apply (op.unit bound) z = some z) ∧
      ∀ op', op.regroups op' = true → op' = op := by
  obtain ⟨op₁, hmem, hop₁⟩ := List.all_eq_false.1 h
  have hmeet := ArithOp.eq_of_not_regroups (strength_of_mem_spine op₁ hmem) hboth
    (Bool.eq_false_iff.2 hop₁)
  have hop : op = .mul ∨ op = .bitAnd ∨ op = .bitOr := by
    rcases hmeet with h | h | h | h
    · exact .inl h.1
    · exact .inl h.1
    · exact .inr (.inl h.1)
    · exact .inr (.inr h.1)
  rcases hop with rfl | rfl | rfl
  · refine ⟨fun _ z => congrArg some (Int.one_mul z), fun op' h' => ?_⟩
    cases op' <;> first | rfl | cases h'
  · refine ⟨fun _ z => congrArg some ((land_comm _ _).trans (land_neg_one z)), fun op' h' => ?_⟩
    cases op' <;> first | rfl | cases h'
  · refine ⟨fun _ z => congrArg some ((lor_comm _ _).trans (lor_zero z)), fun op' h' => ?_⟩
    cases op' <;> first | rfl | cases h'

theorem differsBehind (hboth : op.associativity = .both) {r : Arith α}
    (h : regroupsWith op r = false) : DiffersBehind op r := by
  induction r with
  | column c | neg r => cases h
  | binary op' l r ihl ihr =>
    by_cases hs : op'.strength = op.strength
    · cases hop : op.regroups op' with
      | false => exact .meeting hs hboth hop
      | true =>
        cases hl : regroupsWith op l with
        | false => exact (ihl hl).left hs
        | true =>
          have huseful := unit_left_of_not_regroupsWith hboth h
          rw [regroupsWith_binary hs, hl, hop, Bool.true_and, Bool.true_and, Bool.or_eq_false_iff,
            Bool.not_eq_false'] at h
          obtain rfl := huseful.2 op' hop
          exact .right h.1 (ihr h.2) huseful.1
    · have hnil : (binary op' l r).regroup.spine op.strength = [] :=
        spine_of_ne (by rw [strength_regroup]; exact hs)
      rw [regroupsWith, hnil] at h
      cases h

/-- **A tree that is not regrouped by laws only is read with other values.** -/
theorem differs (h : t.regroupsSafely = false) : t.Differs := by
  induction t with
  | column c => cases h
  | neg t ih => exact (ih h).neg
  | binary op l r ihl ihr =>
    cases hl : l.regroupsSafely with
    | false => exact (ihl hl).left
    | true =>
      rw [regroupsSafely, hl, Bool.true_and] at h
      cases hm : merges op r with
      | false =>
        rw [hm, Bool.not_false, Bool.true_or, Bool.and_true] at h
        exact (ihr h).right fun h' => absurd (hm.symm.trans h') (by decide)
      | true =>
        rw [hm, Bool.not_true, Bool.false_or] at h
        cases hop : regroupsWith op r with
        | false => exact (differsBehind (associativity_of_merges hm) hop).node hm
        | true =>
          rw [hop, Bool.and_true] at h
          exact (ihr h).right fun _ => hop

/-! ## 5. Numbers for columns -/

theorem map_congr {f g : α → β} (h : ∀ c ∈ t.leaves, f c = g c) : t.map f = t.map g := by
  induction t with
  | column c => exact congrArg column (h c List.mem_cons_self)
  | neg t ih => exact congrArg neg (ih h)
  | binary op l r ihl ihr =>
    exact congrArg₂ (binary op) (ihl fun c hc => h c (List.mem_append_left _ hc))
      (ihr fun c hc => h c (List.mem_append_right _ hc))

/-- Where all columns are different, their values can be chosen leaf by leaf. -/
theorem exists_map_eq [DecidableEq α] (hd : t.leaves.Nodup) {u : Arith Int} (h : u.shape = t.shape) :
    ∃ ρ : α → Int, t.map ρ = u := by
  induction t generalizing u with
  | column c =>
    cases u with
    | column x => exact ⟨fun _ => x, rfl⟩
    | neg u | binary op l r => cases h
  | neg t ih =>
    cases u with
    | column x => cases h
    | neg u =>
      obtain ⟨ρ, hρ⟩ := ih hd (Arith.neg.inj h)
      exact ⟨ρ, congrArg neg hρ⟩
    | binary op l r => cases h
  | binary op l r ihl ihr =>
    cases u with
    | column x | neg u => cases h
    | binary op' l' r' =>
      obtain ⟨rfl, hl, hr⟩ := Arith.binary.inj h
      obtain ⟨hdl, hdr, hdisjoint⟩ := List.nodup_append.1 hd
      obtain ⟨ρ, hρ⟩ := ihl hdl hl
      obtain ⟨σ, hσ⟩ := ihr hdr hr
      refine ⟨fun c => if c ∈ l.leaves then ρ c else σ c, congrArg₂ (binary _) ?_ ?_⟩
      · rw [← hρ]
        exact map_congr fun c hc => if_pos hc
      · rw [← hσ]
        exact map_congr fun c hc => if_neg fun hcl => hdisjoint c hcl c hc rfl

/-- Where all columns are different, a tree is read with its values exactly if it is regrouped by
    laws only. -/
theorem value_regroup_iff [DecidableEq α] (hd : t.leaves.Nodup) :
    (∀ ρ, t.regroup.value ρ = t.value ρ) ↔ t.regroupsSafely = true := by
  constructor
  · intro h
    by_contra hsafe
    obtain ⟨u, hshape, x, y, hx, hy, hne⟩ := differs (Bool.eq_false_iff.2 hsafe) 0
    obtain ⟨ρ, rfl⟩ := exists_map_eq hd hshape
    have hρ := h ρ
    rw [value, value, ← regroup_map, hx, hy] at hρ
    exact hne.ne (congrArg Int.natAbs (Option.some.inj hρ).symm)
  · exact fun h ρ => value_regroup h ρ

end Arith

end QueryPlan
