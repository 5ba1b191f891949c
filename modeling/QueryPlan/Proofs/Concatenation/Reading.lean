import QueryPlan.Proofs.Concatenation.Printing

/-!
# Reading sums

A reader that has plus and minus on one level, groups from the left, and knows parentheses
(`readSum`). It takes one piece after another, and keeps what was read before each open parenthesis.

Read from the left, the operands of a tree come behind what is already there unless they stand in
parentheses. `OpTree.regroup` is the tree with its operators grouped in this way, and
`readSum_printed` says that its spelling is what is read for the text of a tree.
-/

namespace QueryPlan

/-! ## 1. The reader -/

/-- What stands before an operand, if anything does: a tree, and an operator behind it. -/
abbrev Before (ω α : Type) := Option (OpTree ω α × ω)

/-- An operand behind what stands before it. -/
def Before.attach {ω α : Type} : Before ω α → OpTree ω α → OpTree ω α
  | none, t => t
  | some (left, op), t => .node op left t

/-- A state of the reader. -/
inductive SumReader where
  /-- An operand has to follow. -/
  | expecting (outer : List (Before SumSign String)) (before : Before SumSign String)
  /-- An operand has been read, and put behind what was before it. -/
  | holding (outer : List (Before SumSign String)) (tree : OpTree SumSign String)

namespace SumReader

/-- What the reader does with a mark behind an operand. -/
def onMark (outer : List (Before SumSign String)) (tree : OpTree SumSign String) (c : Char) :
    Option SumReader :=
  if c = '+' then some (expecting outer (some (tree, .plus)))
  else if c = '-' then some (expecting outer (some (tree, .minus)))
  else if c = ')' then
    match outer with
    | [] => none
    | before :: outer => some (holding outer (before.attach tree))
  else none

def step : SumReader → Piece → Option SumReader
  | expecting outer before, .word ref => some (holding outer (before.attach (.leaf ref)))
  | expecting outer before, .mark c =>
    if c = '(' then some (expecting (before :: outer) none) else none
  | holding outer tree, .mark c => onMark outer tree c
  | holding _ _, .word _ => none

/-- What has been read at the end of a text. -/
def result : SumReader → Option (OpTree SumSign String)
  | holding [] tree => some tree
  | _ => none

end SumReader

/-- Reads a sum. -/
def readSum (text : String) : Option (OpTree SumSign String) :=
  ((sumCutter.pieces text).foldlM SumReader.step (.expecting [] none)).bind SumReader.result

/-! ## 2. Grouping from the left -/

namespace OpTree

variable {α : Type}

/-- A tree behind what stands before it, with its operators grouped as a reader groups them. -/
def regroup (before : Before SumOp α) : OpTree SumOp α → OpTree SumOp α
  | leaf a => before.attach (leaf a)
  | node op l r =>
    let front := if op.wraps true l then before.attach (l.regroup none) else l.regroup before
    if op.wraps false r then node op front (r.regroup none) else r.regroup (some (front, op))

/-- An operand behind what stands before it, in parentheses or not. -/
def placed (wrapped : Bool) (before : Before SumOp α) (t : OpTree SumOp α) : OpTree SumOp α :=
  if wrapped then before.attach (t.regroup none) else t.regroup before

theorem regroup_node (before : Before SumOp α) (op : SumOp) (l r : OpTree SumOp α) :
    (node op l r).regroup before =
      r.placed (op.wraps false r) (some (l.placed (op.wraps true l) before, op)) :=
  rfl

/-- The tree as it is spelled. -/
def spelled (t : OpTree SumOp α) : OpTree SumSign α :=
  t.mapOp SumOp.sign

end OpTree

/-- What stands before an operand, as it is spelled. -/
def Before.spelled {α : Type} (before : Before SumOp α) : Before SumSign α :=
  before.map fun (left, op) => (left.spelled, op.sign)

theorem spelled_attach {α : Type} (before : Before SumOp α) (t : OpTree SumOp α) :
    (before.attach t).spelled = before.spelled.attach t.spelled := by
  cases before <;> rfl

/-! ## 3. Reading back -/

/-- A sign goes on behind an operand. -/
theorem step_sign (outer : List (Before SumSign String)) (front : OpTree SumOp String)
    (op : SumOp) :
    (SumReader.holding outer front.spelled).step (.mark op.sign.char) =
      some (.expecting outer (Before.spelled (some (front, op)))) := by
  cases op <;> rfl

/-- What stands in parentheses is read on a level of its own. -/
theorem run_placed {ps : List Piece} {t : OpTree SumOp String}
    (h : ∀ outer before, ps.foldlM SumReader.step (.expecting outer (Before.spelled before)) =
      some (.holding outer (t.regroup before).spelled))
    (wrapped : Bool) (outer : List (Before SumSign String)) (before : Before SumOp String) :
    (if wrapped then parenthesized ps else ps).foldlM SumReader.step
        (.expecting outer before.spelled) =
      some (.holding outer (t.placed wrapped before).spelled) := by
  cases wrapped with
  | false => exact h outer before
  | true =>
    have hinside := h (before.spelled :: outer) none
    simp only [if_true, parenthesized, List.cons_append, List.foldlM_cons, OpTree.placed]
    change List.foldlM SumReader.step (.expecting (before.spelled :: outer) none) _ = _
    rw [List.foldlM_append, spelled_attach]
    change Option.bind (List.foldlM SumReader.step
      (.expecting (before.spelled :: outer) (Before.spelled none)) ps) _ = _
    rw [hinside]
    rfl

/-- **The pieces of a tree are read as its regrouping.** -/
theorem run_pieces (t : OpTree SumOp String) (outer : List (Before SumSign String))
    (before : Before SumOp String) :
    t.pieces.foldlM SumReader.step (.expecting outer before.spelled) =
      some (.holding outer (t.regroup before).spelled) := by
  induction t generalizing outer before with
  | leaf ref =>
    rw [OpTree.regroup, spelled_attach]
    rfl
  | node op l r ihl ihr =>
    rw [OpTree.pieces, OpTree.regroup_node, List.foldlM_append, run_placed ihl]
    generalize l.placed (op.wraps true l) before = front
    change List.foldlM SumReader.step (.holding outer front.spelled) _ = _
    rw [List.foldlM_cons, step_sign]
    exact run_placed ihr (op.wraps false r) outer (some (front, op))

/-- What is read for the text of a tree. -/
theorem readSum_printed {t : OpTree SumOp String}
    (h : ∀ ref ∈ t.leaves, Dialect.msSql.IsPath ref) :
    readSum t.printed.text = some (t.regroup none).spelled := by
  have hrun := run_pieces t [] none
  rw [readSum, Cutter.pieces_of_cuts (OpTree.cuts_printed h)]
  change (List.foldlM SumReader.step (.expecting [] (Before.spelled none)) t.pieces).bind _ = _
  rw [hrun]
  rfl

end QueryPlan
