import QueryPlan.Proofs.Concatenation.Reading

/-!
# Operands of concatenations

A reader groups concatenations and sums from the left. That is harmless as far as it regroups
concatenations that are operands of concatenations, or sums that are operands of sums (`Regroups`).
But a sum that follows on a concatenation sign loses its first operand to what stands before it:
`a + (b - c)`, where the plus sign concatenates, is printed as `a + b - c` and read as
`(a + b) - c`.

`concat_operands_kept_iff` says that this is the only case: the text of a tree is read as a
regrouping of it if and only if no right operand of a concatenation begins with a sum
(`keepsOperands`). For the converse it follows the sums that are operands of concatenations. A
regrouped tree still has them, over the same leaves (`SumAt`), and what is read has no subtree over
these leaves (`HasSpan`).
-/

namespace QueryPlan

variable {α β ω ω' : Type}

variable {left t : OpTree SumOp α} {op : SumOp} {n start : Nat}

/-! ## 1. Regrouping -/

/-- Trees that differ in the grouping of directly nested concatenations and of directly nested sums
    only. -/
inductive Regroups : OpTree SumOp α → OpTree SumOp α → Prop where
  | refl (t : OpTree SumOp α) : Regroups t t
  | symm {t u : OpTree SumOp α} (h : Regroups t u) : Regroups u t
  | trans {t u v : OpTree SumOp α} (h : Regroups t u) (h' : Regroups u v) : Regroups t v
  | node (op : SumOp) {l l' r r' : OpTree SumOp α} (hl : Regroups l l') (hr : Regroups r r') :
      Regroups (.node op l r) (.node op l' r')
  | concat (a b c : OpTree SumOp α) :
      Regroups (.node .concat a (.node .concat b c)) (.node .concat (.node .concat a b) c)
  | sum {op : SumOp} (hop : op ≠ .concat) (a b c : OpTree SumOp α) :
      Regroups (.node .add a (.node op b c)) (.node op (.node .add a b) c)

namespace OpTree

def isSum : OpTree SumOp α → Bool
  | leaf _ => false
  | node op _ _ => op ≠ .concat

/-- Whether a tree is a sum, or a concatenation that begins with one. -/
def beginsWithSum : OpTree SumOp α → Bool
  | leaf _ => false
  | node op l _ => if op = .concat then l.beginsWithSum else true

/-- No right operand of a concatenation begins with a sum. -/
def keepsOperands : OpTree SumOp α → Bool
  | leaf _ => true
  | node op l r =>
    l.keepsOperands && r.keepsOperands && !(decide (op = .concat) && r.beginsWithSum)

theorem beginsWithSum_map (f : α → β) (t : OpTree SumOp α) :
    (t.map f).beginsWithSum = t.beginsWithSum := by
  induction t with
  | leaf a => rfl
  | node op l r ihl ihr => simp only [map, beginsWithSum, ihl]

theorem keepsOperands_map (f : α → β) (t : OpTree SumOp α) :
    (t.map f).keepsOperands = t.keepsOperands := by
  induction t with
  | leaf a => rfl
  | node op l r ihl ihr => simp only [map, keepsOperands, ihl, ihr, beginsWithSum_map]

end OpTree

/-! ## 2. Operands that are kept -/

/-- A right operand that may be read without parentheses, one of its own operands after another. -/
def FollowsOn (op : SumOp) (t : OpTree SumOp α) : Prop :=
  match op, t with
  | _, .leaf _ => True
  | .concat, t => t.beginsWithSum = false
  | .add, .node child _ _ => child ≠ .concat
  | .sub, .node _ _ _ => False

theorem followsOn_of_wraps {l r : OpTree SumOp α} (h : (OpTree.node op l r).keepsOperands = true)
    (hwraps : op.wraps false r = false) : FollowsOn op r := by
  simp only [OpTree.keepsOperands, Bool.and_eq_true, Bool.not_eq_true'] at h
  cases r with
  | leaf a => cases op <;> trivial
  | node child l r =>
    cases op with
    | concat => exact h.2
    | add => exact of_decide_eq_false hwraps
    | sub => simp [SumOp.wraps] at hwraps

/-- What follows on is taken apart at its first operator. -/
theorem FollowsOn.split {child : SumOp} {l r : OpTree SumOp α} (h : FollowsOn op (.node child l r))
    (before : OpTree SumOp α) :
    Regroups (.node op before (.node child l r)) (.node child (.node op before l) r) ∧
      (child.wraps true l = false → FollowsOn op l) := by
  cases op with
  | concat =>
    have hchild : child = .concat := by
      by_contra hne
      simp [FollowsOn, OpTree.beginsWithSum, hne] at h
    subst hchild
    refine ⟨.concat before l r, fun _ => ?_⟩
    cases l with
    | leaf a => trivial
    | node op' l' r' => exact h
  | add =>
    refine ⟨.sum h before l r, fun hwraps => ?_⟩
    cases l with
    | leaf a => trivial
    | node op' l' r' =>
      rintro rfl
      cases child with
      | concat => exact h rfl
      | add | sub => cases hwraps
  | sub => exact h.elim

/-- Where operands are kept, what is read is a regrouping of the tree behind what stands before
    it. -/
theorem regroups_regroup (h : t.keepsOperands = true) :
    Regroups t (t.regroup none) ∧
      ∀ op before, FollowsOn op t →
        Regroups (.node op before t) (t.regroup (some (before, op))) := by
  induction t with
  | leaf a => exact ⟨.refl _, fun op before _ => .refl _⟩
  | node op l r ihl ihr =>
    have hparts := h
    simp only [OpTree.keepsOperands, Bool.and_eq_true] at hparts
    obtain ⟨hl, hlBefore⟩ := ihl hparts.1.1
    obtain ⟨hr, hrBefore⟩ := ihr hparts.1.2
    -- the right operand comes behind whatever its left neighbour has become
    have hright : ∀ front front' : OpTree SumOp α, Regroups front front' →
        Regroups (.node op front r) (r.placed (op.wraps false r) (some (front', op))) := by
      intro front front' hfront
      cases hwraps : op.wraps false r with
      | true => exact .node op hfront hr
      | false =>
        have hfollows := followsOn_of_wraps h hwraps
        exact .trans (.node op hfront (.refl r)) (hrBefore op front' hfollows)
    constructor
    · rw [OpTree.regroup_node]
      refine hright l _ ?_
      cases op.wraps true l <;> exact hl
    · intro op' before hfollows
      obtain ⟨hsplit, hleft⟩ := hfollows.split before
      rw [OpTree.regroup_node]
      refine .trans hsplit (hright _ _ ?_)
      cases hwraps : op.wraps true l with
      | true => exact .node op' (.refl before) hl
      | false => exact hlBefore op' before (hleft hwraps)

/-! ## 3. Sums in regrouped trees -/

namespace OpTree

/-- The number of leaves. -/
def size : OpTree ω α → Nat
  | leaf _ => 1
  | node _ l r => l.size + r.size

theorem size_pos (t : OpTree ω α) : 0 < t.size := by
  induction t with
  | leaf a => exact Nat.one_pos
  | node op l r ihl ihr => exact Nat.add_pos_left ihl _

/-- Whether a tree has a subtree of some size that starts at a leaf. -/
def HasSpan : OpTree ω α → Nat → Nat → Prop
  | leaf _, start, n => start = 0 ∧ n = 1
  | node _ l r, start, n =>
    (start = 0 ∧ n = l.size + r.size) ∨ l.HasSpan start n ∨
      (l.size ≤ start ∧ r.HasSpan (start - l.size) n)

/-- Whether a sum of some size that starts at a leaf is an operand of a concatenation. -/
def SumAt : OpTree SumOp α → Nat → Nat → Prop
  | leaf _, _, _ => False
  | node op l r, start, n =>
    (op = .concat ∧ l.isSum = true ∧ start = 0 ∧ n = l.size) ∨
      (op = .concat ∧ r.isSum = true ∧ start = l.size ∧ n = r.size) ∨
      l.SumAt start n ∨ (l.size ≤ start ∧ r.SumAt (start - l.size) n)

theorem size_mapOp (f : ω → ω') (t : OpTree ω α) : (t.mapOp f).size = t.size := by
  induction t with
  | leaf a => rfl
  | node op l r ihl ihr => simp only [mapOp, size, ihl, ihr]

theorem hasSpan_mapOp (f : ω → ω') (t : OpTree ω α) (start n : Nat) :
    (t.mapOp f).HasSpan start n ↔ t.HasSpan start n := by
  induction t generalizing start with
  | leaf a => rfl
  | node op l r ihl ihr => simp only [mapOp, HasSpan, size_mapOp, ihl, ihr]

theorem HasSpan.bound {t : OpTree ω α} (h : t.HasSpan start n) : start + n ≤ t.size ∧ 0 < n := by
  induction t generalizing start with
  | leaf a =>
    obtain ⟨rfl, rfl⟩ := h
    exact ⟨Nat.le_refl 1, Nat.one_pos⟩
  | node op l r ihl ihr =>
    have hl := l.size_pos
    simp only [size]
    rcases h with ⟨rfl, rfl⟩ | h | ⟨hstart, h⟩
    · omega
    · have hbound := ihl h
      omega
    · have hbound := ihr h
      omega

theorem hasSpan_self (t : OpTree ω α) : t.HasSpan 0 t.size := by
  cases t with
  | leaf a => exact ⟨rfl, rfl⟩
  | node op l r => exact .inl ⟨rfl, rfl⟩

theorem SumAt.hasSpan (h : t.SumAt start n) : t.HasSpan start n := by
  induction t generalizing start with
  | leaf a => exact h.elim
  | node op l r ihl ihr =>
    rcases h with ⟨-, -, rfl, rfl⟩ | ⟨-, -, rfl, rfl⟩ | h | ⟨hstart, h⟩
    · exact .inr (.inl l.hasSpan_self)
    · refine .inr (.inr ⟨Nat.le_refl _, ?_⟩)
      rw [Nat.sub_self]
      exact r.hasSpan_self
    · exact .inr (.inl (ihl h))
    · exact .inr (.inr ⟨hstart, ihr h⟩)

end OpTree

/-- Regrouping keeps the sums that are operands of concatenations, over the same leaves. -/
theorem Regroups.invariant {u : OpTree SumOp α} (h : Regroups t u) :
    t.size = u.size ∧ t.isSum = u.isSum ∧ ∀ start n, t.SumAt start n ↔ u.SumAt start n := by
  induction h with
  | refl t => exact ⟨rfl, rfl, fun _ _ => .rfl⟩
  | symm _ ih => exact ⟨ih.1.symm, ih.2.1.symm, fun start n => (ih.2.2 start n).symm⟩
  | trans _ _ ih ih' =>
    exact ⟨ih.1.trans ih'.1, ih.2.1.trans ih'.2.1,
      fun start n => (ih.2.2 start n).trans (ih'.2.2 start n)⟩
  | node op _ _ ihl ihr =>
    refine ⟨?_, rfl, fun start n => ?_⟩
    · rw [OpTree.size, OpTree.size, ihl.1, ihr.1]
    · simp only [OpTree.SumAt, ihl.1, ihl.2.1, ihl.2.2, ihr.1, ihr.2.1, ihr.2.2]
  | concat a b c =>
    refine ⟨(Nat.add_assoc _ _ _).symm, rfl, fun start n => ?_⟩
    have hconcat : ∀ l r : OpTree SumOp α, (OpTree.node .concat l r).isSum = false :=
      fun _ _ => rfl
    simp only [OpTree.SumAt, hconcat, OpTree.size]
    grind
  | sum hop a b c =>
    refine ⟨(Nat.add_assoc _ _ _).symm, by simp [OpTree.isSum, hop], fun start n => ?_⟩
    simp only [OpTree.SumAt, OpTree.size, hop]
    grind

/-! ## 4. Subtrees of what is read -/

/-- The number of leaves before an operand. -/
def Before.size (before : Before ω α) : Nat :=
  match before with
  | none => 0
  | some (left, _) => left.size

namespace OpTree

theorem size_attach (before : Before ω α) (t : OpTree ω α) :
    (before.attach t).size = before.size + t.size := by
  cases before with
  | none => exact (Nat.zero_add _).symm
  | some x => rfl

theorem size_placed (h : ∀ before : Before SumOp α, (t.regroup before).size = before.size + t.size)
    (wrapped : Bool) (before : Before SumOp α) :
    (t.placed wrapped before).size = before.size + t.size := by
  cases wrapped with
  | true =>
    have hinside : (t.regroup none).size = t.size := (h none).trans (Nat.zero_add _)
    exact (size_attach before _).trans (congrArg _ hinside)
  | false => exact h before

theorem size_regroup (before : Before SumOp α) (t : OpTree SumOp α) :
    (t.regroup before).size = before.size + t.size := by
  induction t generalizing before with
  | leaf a => exact size_attach before (leaf a)
  | node op l r ihl ihr =>
    rw [regroup_node, size_placed ihr, Before.size, size_placed ihl, size, Nat.add_assoc]

/-- Behind its first leaf, what stands before an operand keeps its subtrees and the operand has its
    own. -/
theorem HasSpan.of_attach {left t : OpTree ω α} {op : ω} (h : (node op left t).HasSpan start n)
    (hpos : 0 < start) :
    (start < left.size → left.HasSpan start n) ∧
      (left.size ≤ start → t.HasSpan (start - left.size) n) := by
  rcases h with ⟨rfl, -⟩ | h | ⟨hstart, h⟩
  · exact absurd hpos (Nat.lt_irrefl 0)
  · refine ⟨fun _ => h, fun hle => ?_⟩
    have hbound := h.bound
    omega
  · exact ⟨fun hlt => by omega, fun _ => h⟩

theorem HasSpan.of_placed
    (h : ∀ {left op start n}, (t.regroup (some (left, op))).HasSpan start n → 0 < start →
      start < left.size → left.HasSpan start n) {wrapped : Bool}
    (hspan : (t.placed wrapped (some (left, op))).HasSpan start n) (hpos : 0 < start)
    (hstart : start < left.size) : left.HasSpan start n := by
  cases wrapped with
  | true => exact (HasSpan.of_attach hspan hpos).1 hstart
  | false => exact h hspan hpos hstart

/-- What is read later adds no subtree behind the first leaf of what was read before. -/
theorem HasSpan.of_regroup (h : (t.regroup (some (left, op))).HasSpan start n) (hpos : 0 < start)
    (hstart : start < left.size) : left.HasSpan start n := by
  induction t generalizing left op start n with
  | leaf a => exact (HasSpan.of_attach h hpos).1 hstart
  | node op' l r ihl ihr =>
    rw [regroup_node] at h
    have hsize := size_placed (fun before => size_regroup before l) (op'.wraps true l)
      (some (left, op))
    have hlarger : start < (l.placed (op'.wraps true l) (some (left, op))).size := by
      rw [hsize]
      exact Nat.lt_add_right _ hstart
    exact HasSpan.of_placed ihl (HasSpan.of_placed ihr h hpos hlarger) hpos hstart

/-! ## 5. Operands that are not kept -/

/-- The number of leaves of the first operand that a reader comes to. -/
def firstSize : OpTree SumOp α → Nat
  | leaf _ => 1
  | node op l _ => if op.wraps true l then l.size else l.firstSize

theorem firstSize_le_size (t : OpTree SumOp α) : t.firstSize ≤ t.size := by
  induction t with
  | leaf a => exact Nat.le_refl 1
  | node op l r ihl ihr =>
    rw [firstSize, size]
    split
    · exact Nat.le_add_right _ _
    · exact Nat.le_trans ihl (Nat.le_add_right _ _)

/-- Where a tree follows on something, no subtree starts that has more than its first operand. -/
theorem HasSpan.le_firstSize (h : (t.regroup (some (left, op))).HasSpan left.size n) :
    n ≤ t.firstSize := by
  have hpos := left.size_pos
  induction t generalizing n with
  | leaf a =>
    have hleaf := (HasSpan.of_attach h hpos).2 (Nat.le_refl _)
    exact Nat.le_of_eq hleaf.2
  | node op' l r ihl ihr =>
    have hsize := size_placed (fun before => size_regroup before l) (op'.wraps true l)
      (some (left, op))
    have hlarger : left.size < (l.placed (op'.wraps true l) (some (left, op))).size := by
      rw [hsize]
      exact Nat.lt_add_of_pos_right l.size_pos
    rw [regroup_node] at h
    have hfront := HasSpan.of_placed (fun h => h.of_regroup) h hpos hlarger
    rw [firstSize]
    cases hwraps : op'.wraps true l with
    | true =>
      rw [hwraps] at hfront
      have hinside := ((HasSpan.of_attach hfront hpos).2 (Nat.le_refl _)).bound.1
      rw [size_regroup, Before.size] at hinside
      rw [if_pos rfl]
      omega
    | false =>
      rw [hwraps] at hfront
      exact ihl hfront

theorem wraps_concat (isLeft : Bool) (t : OpTree SumOp α) :
    SumOp.concat.wraps isLeft t = false := by
  cases t <;> rfl

/-- A tree that begins with a sum is one, or has one as an operand of a concatenation, which has
    more leaves than the first operand that a reader comes to. -/
theorem exists_of_beginsWithSum (h : t.beginsWithSum = true) :
    ∃ n, t.firstSize < n ∧ (t.isSum = true ∧ n = t.size ∨ t.SumAt 0 n) := by
  induction t with
  | leaf a => cases h
  | node op l r ihl ihr =>
    have hr := r.size_pos
    by_cases hop : op = .concat
    · subst hop
      obtain ⟨n, hn, hsum⟩ := ihl h
      have hfirst : (node .concat l r).firstSize = l.firstSize := by
        rw [firstSize, wraps_concat, if_neg Bool.false_ne_true]
      refine ⟨n, hfirst ▸ hn, .inr ?_⟩
      rcases hsum with ⟨hsum, rfl⟩ | hsum
      · exact .inl ⟨rfl, hsum, rfl, rfl⟩
      · exact .inr (.inr (.inl hsum))
    · refine ⟨(node op l r).size, ?_, .inl ⟨by simp [isSum, hop], rfl⟩⟩
      have hfirst := l.firstSize_le_size
      rw [firstSize, size]
      split
      · omega
      · omega

/-- A subtree that the front lacks behind its first leaf does not come with what is read later. -/
theorem not_hasSpan_placed {front : OpTree SumOp α} {wrapped : Bool} (h : ¬front.HasSpan start n)
    (hpos : 0 < start) (hstart : start < front.size) :
    ¬(t.placed wrapped (some (front, op))).HasSpan start n :=
  fun hspan => h (HasSpan.of_placed (fun h => h.of_regroup) hspan hpos hstart)

/-- Behind the first leaf, an operand in parentheses has the subtrees that it has alone. -/
theorem not_hasSpan_attach {before : Before SumOp α} (h : ¬t.HasSpan start n) (hpos : 0 < start) :
    ¬(before.attach t).HasSpan (before.size + start) n := by
  cases before with
  | none =>
    rw [Before.size, Nat.zero_add]
    exact h
  | some x =>
    intro hspan
    have hinside := (HasSpan.of_attach hspan (Nat.lt_of_lt_of_le hpos (Nat.le_add_left _ _))).2
      (Nat.le_add_right _ _)
    rw [Before.size, Nat.add_sub_cancel_left] at hinside
    exact h hinside

theorem not_hasSpan_of_placed (hpos : 0 < start)
    (h : ∀ before : Before SumOp α, ¬(t.regroup before).HasSpan (before.size + start) n)
    (wrapped : Bool) (before : Before SumOp α) :
    ¬(t.placed wrapped before).HasSpan (before.size + start) n := by
  cases wrapped with
  | true =>
    have hinside := h none
    rw [Before.size, Nat.zero_add] at hinside
    exact not_hasSpan_attach hinside hpos
  | false => exact h before

/-- **A sum is lost**: where operands are not kept, some sum is an operand of a concatenation, and
    what is read has no subtree over its leaves, whatever stands before. -/
theorem exists_lost_sum (h : t.keepsOperands = false) :
    ∃ start n, 0 < start ∧ t.SumAt start n ∧
      ∀ before : Before SumOp α, ¬(t.regroup before).HasSpan (before.size + start) n := by
  induction t with
  | leaf a => cases h
  | node op l r ihl ihr =>
    have hfront := fun before => size_placed (fun before => size_regroup before l) (op.wraps true l)
      before
    by_cases hl : l.keepsOperands = false
    · -- a sum of the left operand is lost before the right operand is read
      obtain ⟨start, n, hpos, hsum, hlost⟩ := ihl hl
      refine ⟨start, n, hpos, .inr (.inr (.inl hsum)), fun before => ?_⟩
      rw [regroup_node]
      refine not_hasSpan_placed (not_hasSpan_of_placed hpos hlost _ before) (by omega) ?_
      have hbound := hsum.hasSpan.bound
      rw [hfront]
      omega
    by_cases hr : r.keepsOperands = false
    · obtain ⟨start, n, hpos, hsum, hlost⟩ := ihr hr
      refine ⟨l.size + start, n, by omega, .inr (.inr (.inr ⟨by omega, ?_⟩)), fun before => ?_⟩
      · rw [Nat.add_sub_cancel_left]
        exact hsum
      · have hplaced := not_hasSpan_of_placed hpos hlost (op.wraps false r)
          (some (l.placed (op.wraps true l) before, op))
        rw [Before.size, hfront, Nat.add_assoc] at hplaced
        rw [regroup_node]
        exact hplaced
    · -- the right operand of this concatenation begins with a sum
      have hhere : op = .concat ∧ r.beginsWithSum = true := by
        simpa [keepsOperands, hl, hr] using h
      obtain ⟨rfl, hbegins⟩ := hhere
      obtain ⟨n, hn, hsum⟩ := exists_of_beginsWithSum hbegins
      refine ⟨l.size, n, l.size_pos, ?_, fun before hspan => ?_⟩
      · rcases hsum with ⟨hsum, rfl⟩ | hsum
        · exact .inr (.inl ⟨rfl, hsum, rfl, rfl⟩)
        · refine .inr (.inr (.inr ⟨Nat.le_refl _, ?_⟩))
          rw [Nat.sub_self]
          exact hsum
      · rw [regroup_node, wraps_concat false, ← hfront] at hspan
        have hle := HasSpan.le_firstSize hspan
        omega

end OpTree

/-! ## 6. What is read -/

/-- A tree is read as a regrouping of it if and only if its operands are kept. -/
theorem regroups_iff_keepsOperands (t : OpTree SumOp α) :
    (∃ u, Regroups t u ∧ u.spelled = (t.regroup none).spelled) ↔ t.keepsOperands = true := by
  constructor
  · rintro ⟨u, hu, hspelled⟩
    by_contra hnot
    obtain ⟨start, n, -, hsum, hlost⟩ := OpTree.exists_lost_sum (eq_false_of_ne_true hnot)
    have hspan : u.spelled.HasSpan start n :=
      (OpTree.hasSpan_mapOp SumOp.sign u start n).2 ((hu.invariant.2.2 start n).1 hsum).hasSpan
    rw [hspelled] at hspan
    refine hlost none ?_
    rw [Before.size, Nat.zero_add]
    exact (OpTree.hasSpan_mapOp SumOp.sign _ start n).1 hspan
  · intro h
    exact ⟨t.regroup none, (regroups_regroup h).1, rfl⟩

/-- **Operands of concatenations are kept unless they begin with a sum on the right.** In SQL
    Server, every tree of columns, concatenations and sums is printed, and its text can be read.
    What is read is the tree, with both plus signs spelled alike, up to the grouping of nested
    concatenations and of nested sums, if and only if no right operand of a concatenation begins
    with a sum. -/
theorem concat_operands_kept_iff (s : Setting) (c : Context) (t : OpTree SumOp ColumnRef)
    (hs : s.dialect = .msSql) (hc : c.NamesByPaths s.dialect) :
    ∃ f u, t.toExpr.render s c = .ok (f, c) ∧ readSum f.text = some u ∧
      ((∃ t', Regroups (t.map (columnText s c)) t' ∧ t'.spelled = u) ↔ t.keepsOperands = true) := by
  have hpaths : ∀ ref ∈ (t.map (columnText s c)).leaves, Dialect.msSql.IsPath ref := by
    intro ref href
    rw [OpTree.leaves_map] at href
    obtain ⟨column, -, rfl⟩ := List.mem_map.1 href
    exact hs ▸ isPath_columnText hc column
  refine ⟨_, _, render_sums hs c t, readSum_printed hpaths, ?_⟩
  rw [regroups_iff_keepsOperands, OpTree.keepsOperands_map]

/-- `a + (b - c)`, where the plus sign concatenates. -/
def joinedDifference : OpTree SumOp ColumnRef :=
  .node .concat (.leaf ⟨"", "a", none⟩)
    (.node .sub (.leaf ⟨"", "b", none⟩) (.leaf ⟨"", "c", none⟩))

/-- The difference is not kept as an operand. -/
theorem concat_operands_kept_here :
    ∃ f u, joinedDifference.toExpr.render (.ofOptions .msSql {}) (.start .named) =
        .ok (f, .start .named) ∧ readSum f.text = some u ∧
      ¬∃ t',
        Regroups (joinedDifference.map (columnText (.ofOptions .msSql {}) (.start .named))) t' ∧
        t'.spelled = u := by
  obtain ⟨f, u, hrender, hread, hiff⟩ := concat_operands_kept_iff (.ofOptions .msSql {})
    (.start .named) joinedDifference rfl (Context.namesByPaths_start _ _)
  refine ⟨f, u, hrender, hread, fun h => ?_⟩
  exact absurd (hiff.1 h) (by decide)

example :
    (joinedDifference.toExpr.render (.ofOptions .msSql {}) (.start .named)).toOption.map
      (fun x => x.1.text) = some "a + b - c" := by
  decide +kernel

end QueryPlan
