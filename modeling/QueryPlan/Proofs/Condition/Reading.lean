import QueryPlan.Proofs.Condition.Basic
import QueryPlan.Proofs.Lexical.Words
import QueryPlan.Text.Case

/-!
# Reading conditions

A reader of conditions, in which `NOT` binds more than `AND`, `AND` more than `OR`, and predicates
more than all three (`readCondition`). It takes one piece after another.

* A predicate is a run of pieces up to the next `AND`, `OR` or closing parenthesis of its level. The
  parentheses within a predicate belong to it, and so does the `AND` of a `BETWEEN`.
* An operand is a predicate or stands in parentheses, with any number of `NOT` in front of it.
* On each level of parentheses the reader keeps a disjunction of conjunctions of operands.

What the reader makes of a text follows from what it makes of its parts: `ReadsOperand`, `ReadsRow`
and `ReadsRows` say that a part is read as an operand, as a conjunction, or as a disjunction of
them, and are closed under negation, `AND`, `OR` and parentheses.
-/

namespace QueryPlan

/-- What is read: a formula over the pieces of predicates. -/
abbrev ReadFormula := Formula (List Piece)

variable {ps qs : List Piece}

/-! ## 1. Predicates -/

/-- Whether a word is a keyword, in any case. -/
def isKey (key word : String) : Bool :=
  lowerAscii word == key

/-- Where a reader stands in a predicate: how many parentheses are open, and whether a `BETWEEN` has
    not come to its `AND`. -/
structure PredicateState where
  depth : Nat
  between : Bool

/-- The state behind a piece of a predicate, or nothing if the piece does not belong to it. -/
def PredicateState.next (q : PredicateState) : Piece → Option PredicateState
  | .word w =>
    if q.depth ≠ 0 then some q
    else if isKey "and" w then if q.between then some ⟨0, false⟩ else none
    else if isKey "or" w then none
    else if isKey "between" w then some ⟨0, true⟩
    else some q
  | .mark c =>
    if c = '(' then some ⟨q.depth + 1, q.between⟩
    else if q.depth = 0 then none
    else if c = ')' then some ⟨q.depth - 1, q.between⟩
    else some q

/-- A condition without operands as a predicate. -/
def constantPredicates : List (List Piece × Conjunction) :=
  [([.word "TRUE"], .and), ([.word "FALSE"], .or),
    ([.word "1", .word "=", .word "1"], .and), ([.word "1", .word "=", .word "0"], .or)]

/-- A predicate as a formula. -/
def ofPredicate (ps : List Piece) : ReadFormula :=
  match constantPredicates.lookup ps with
  | some op => .conditions op []
  | none => .leaf ps

/-! ## 2. The reader -/

/-- What has been read on a level of parentheses: conjunctions that are complete, the operands of
    one that is not, and the negations before the next operand. -/
structure ConditionLevel where
  rows : List (List ReadFormula)
  row : List ReadFormula
  nots : Nat

/-- What the reader does: it expects an operand, is within a predicate, or has read an operand in
    parentheses. -/
inductive ReadingMode where
  | expecting
  | within (ps : List Piece) (q : PredicateState)
  | holding (operand : ReadFormula)

/-- The operand that has been read, if one is complete. -/
def ReadingMode.operand? : ReadingMode → Option ReadFormula
  | expecting => none
  | within ps q => if q.depth = 0 ∧ q.between = false then some (ofPredicate ps) else none
  | holding operand => some operand

structure ConditionReader where
  outer : List ConditionLevel
  level : ConditionLevel
  mode : ReadingMode

/-- A formula with some negations in front of it. -/
def negated : Nat → ReadFormula → ReadFormula
  | 0, f => f
  | n + 1, f => .not (negated n f)

namespace ConditionReader

def start : ConditionReader :=
  ⟨[], ⟨[], [], 0⟩, .expecting⟩

/-- What has been read on the innermost level, if it may end here. -/
def row? (r : ConditionReader) : Option (List ReadFormula) :=
  r.mode.operand?.map fun operand => r.level.row ++ [negated r.level.nots operand]

def rows? (r : ConditionReader) : Option (List (List ReadFormula)) :=
  r.row?.map fun row => r.level.rows ++ [row]

/-- What the reader does before an operand. -/
def before (r : ConditionReader) : Piece → Option ConditionReader
  | .word w =>
    if isKey "not" w then some { r with level.nots := r.level.nots + 1 }
    else if isKey "and" w || isKey "or" w then none
    else some { r with mode := .within [.word w] ⟨0, false⟩ }
  | .mark c =>
    if c = '(' then some ⟨r.level :: r.outer, ⟨[], [], 0⟩, .expecting⟩ else none

/-- What the reader does behind an operand. -/
def behind (r : ConditionReader) : Piece → Option ConditionReader
  | .word w =>
    if isKey "and" w then r.row?.map fun row => ⟨r.outer, ⟨r.level.rows, row, 0⟩, .expecting⟩
    else if isKey "or" w then r.rows?.map fun rows => ⟨r.outer, ⟨rows, [], 0⟩, .expecting⟩
    else none
  | .mark c =>
    if c = ')' then
      match r.outer with
      | [] => none
      | level :: outer => r.rows?.map fun rows => ⟨outer, level, .holding (.ofRows rows)⟩
    else none

def step (r : ConditionReader) (p : Piece) : Option ConditionReader :=
  match r.mode with
  | .expecting => r.before p
  | .within ps q =>
    match q.next p with
    | some q => some { r with mode := .within (ps ++ [p]) q }
    | none => r.behind p
  | .holding _ => r.behind p

def result (r : ConditionReader) : Option ReadFormula :=
  if r.outer.isEmpty then r.rows?.map .ofRows else none

end ConditionReader

def conditionMarks : List Char :=
  ['(', ')', ',']

/-- Cuts by parentheses and commas. -/
def conditionCutter (kind : DialectKind) : Cutter :=
  kind.dialect.cutter conditionMarks

/-- Reads a condition. -/
def readCondition (kind : DialectKind) (text : String) : Option ReadFormula :=
  (((conditionCutter kind).pieces text).foldlM ConditionReader.step .start).bind
    ConditionReader.result

/-! ## 3. Parts of a condition -/

/-- Pieces that are read as an operand, also behind negations. -/
def ReadsOperand (ps : List Piece) (operand : ReadFormula) : Prop :=
  ∀ outer rows row nots, ∃ r,
    ps.foldlM ConditionReader.step ⟨outer, ⟨rows, row, nots⟩, .expecting⟩ = some r ∧
      r.outer = outer ∧ r.level.rows = rows ∧ r.row? = some (row ++ [negated nots operand])

/-- Pieces that are read as some operands of a conjunction. -/
def ReadsRow (ps : List Piece) (operands : List ReadFormula) : Prop :=
  ∀ outer rows row, ∃ r, ps.foldlM ConditionReader.step ⟨outer, ⟨rows, row, 0⟩, .expecting⟩ =
    some r ∧ r.outer = outer ∧ r.level.rows = rows ∧ r.row? = some (row ++ operands)

/-- Pieces that are read as some conjunctions of a disjunction. -/
def ReadsRows (ps : List Piece) (rows : List (List ReadFormula)) : Prop :=
  ∀ outer before, ∃ r, ps.foldlM ConditionReader.step ⟨outer, ⟨before, [], 0⟩, .expecting⟩ =
    some r ∧ r.outer = outer ∧ r.rows? = some (before ++ rows)

theorem ReadsOperand.row {operand : ReadFormula} (h : ReadsOperand ps operand) :
    ReadsRow ps [operand] :=
  fun outer rows row => h outer rows row 0

theorem ReadsRow.rows {row : List ReadFormula} (h : ReadsRow ps row) : ReadsRows ps [row] := by
  intro outer before
  obtain ⟨r, hrun, houter, hrows, hrow⟩ := h outer before []
  refine ⟨r, hrun, houter, ?_⟩
  rw [ConditionReader.rows?, hrow, hrows]
  rfl

/-- A key word that has to come behind an operand is taken as such, as it is no part of a
    predicate that is complete. -/
theorem step_behind {r : ConditionReader} {row : List ReadFormula} (h : r.row? = some row)
    {p : Piece} (hp : PredicateState.next ⟨0, false⟩ p = none) : r.step p = r.behind p := by
  obtain ⟨operand, hoperand, -⟩ := Option.map_eq_some_iff.1 h
  unfold ConditionReader.step
  cases hmode : r.mode with
  | expecting =>
    rw [hmode] at hoperand
    cases hoperand
  | within ps q =>
    rw [hmode, ReadingMode.operand?] at hoperand
    split at hoperand
    · next hq =>
      obtain ⟨depth, between⟩ := q
      obtain ⟨rfl, rfl⟩ := hq
      dsimp only
      rw [hp]
    · cases hoperand
  | holding operand => rfl

theorem ReadsRow.and {row row' : List ReadFormula} (h : ReadsRow ps row) (h' : ReadsRow qs row') :
    ReadsRow (ps ++ .word "AND" :: qs) (row ++ row') := by
  intro outer rows front
  obtain ⟨r, hrun, houter, hrows, hrow⟩ := h outer rows front
  obtain ⟨r', hrun', houter', hrows', hrow'⟩ := h' outer rows (front ++ row)
  refine ⟨r', ?_, houter', hrows', ?_⟩
  · have hstep : r.step (.word "AND") = some ⟨outer, ⟨rows, front ++ row, 0⟩, .expecting⟩ := by
      rw [step_behind hrow (by decide)]
      change r.row?.map _ = _
      rw [hrow, houter, hrows]
      rfl
    rw [List.foldlM_append, hrun]
    change List.foldlM ConditionReader.step r (.word "AND" :: qs) = _
    rw [List.foldlM_cons, hstep]
    exact hrun'
  · rw [hrow', List.append_assoc]

theorem ReadsRows.or {rows rows' : List (List ReadFormula)} (h : ReadsRows ps rows)
    (h' : ReadsRows qs rows') : ReadsRows (ps ++ .word "OR" :: qs) (rows ++ rows') := by
  intro outer front
  obtain ⟨r, hrun, houter, hrows⟩ := h outer front
  obtain ⟨r', hrun', houter', hrows'⟩ := h' outer (front ++ rows)
  refine ⟨r', ?_, houter', ?_⟩
  · obtain ⟨row, hrow, -⟩ := Option.map_eq_some_iff.1 hrows
    have hstep : r.step (.word "OR") = some ⟨outer, ⟨front ++ rows, [], 0⟩, .expecting⟩ := by
      rw [step_behind hrow (by decide)]
      change r.rows?.map _ = _
      rw [hrows, houter]
      rfl
    rw [List.foldlM_append, hrun]
    change List.foldlM ConditionReader.step r (.word "OR" :: qs) = _
    rw [List.foldlM_cons, hstep]
    exact hrun'
  · rw [hrows', List.append_assoc]

theorem negated_not (n : Nat) (f : ReadFormula) : negated n (.not f) = negated (n + 1) f := by
  induction n with
  | zero => rfl
  | succ n ih => exact congrArg Formula.not ih

theorem ReadsOperand.not {operand : ReadFormula} (h : ReadsOperand ps operand) :
    ReadsOperand (.word "NOT" :: ps) (.not operand) := by
  intro outer rows row nots
  rw [negated_not, List.foldlM_cons]
  exact h outer rows row (nots + 1)

theorem ReadsRows.parenthesized {rows : List (List ReadFormula)} (h : ReadsRows ps rows) :
    ReadsOperand (parenthesized ps) (.ofRows rows) := by
  intro outer before row nots
  obtain ⟨r, hrun, houter, hrows⟩ := h (⟨before, row, nots⟩ :: outer) []
  obtain ⟨last, hlast, -⟩ := Option.map_eq_some_iff.1 hrows
  have hstep : r.step (.mark ')') =
      some ⟨outer, ⟨before, row, nots⟩, .holding (.ofRows rows)⟩ := by
    rw [step_behind hlast (by decide)]
    unfold ConditionReader.behind
    dsimp only
    rw [if_pos rfl, houter]
    dsimp only
    rw [hrows]
    rfl
  refine ⟨⟨outer, ⟨before, row, nots⟩, .holding (.ofRows rows)⟩, ?_, rfl, rfl, rfl⟩
  rw [QueryPlan.parenthesized, List.cons_append, List.foldlM_cons]
  change List.foldlM ConditionReader.step
    ⟨⟨before, row, nots⟩ :: outer, ⟨[], [], 0⟩, .expecting⟩ _ = _
  rw [List.foldlM_append, hrun]
  change List.foldlM ConditionReader.step r [.mark ')'] = _
  rw [List.foldlM_cons, hstep]
  rfl

/-- What is read for a text, by its pieces. -/
theorem readCondition_of_cuts {kind : DialectKind} {text : String} {rows : List (List ReadFormula)}
    (hcuts : (conditionCutter kind).Cuts text ps) (h : ReadsRows ps rows) :
    readCondition kind text = some (.ofRows rows) := by
  obtain ⟨r, hrun, houter, hrows⟩ := h [] []
  rw [readCondition, Cutter.pieces_of_cuts hcuts]
  change (List.foldlM ConditionReader.step ⟨[], ⟨[], [], 0⟩, .expecting⟩ ps).bind _ = _
  rw [hrun, Option.bind_some, ConditionReader.result, houter, hrows]
  rfl

/-! ## 4. Predicates as operands -/

/-- The pieces of a predicate: a word that is not taken for something else, and what belongs to
    it. -/
def IsPredicate (ps : List Piece) : Prop :=
  ∃ w rest, ps = .word w :: rest ∧
    (isKey "not" w = false ∧ isKey "and" w = false ∧ isKey "or" w = false) ∧
    rest.foldlM PredicateState.next ⟨0, false⟩ = some ⟨0, false⟩

/-- What belongs to a predicate is taken into it. -/
theorem run_within {q q' : PredicateState} (h : ps.foldlM PredicateState.next q = some q')
    (outer : List ConditionLevel) (level : ConditionLevel) (front : List Piece) :
    ps.foldlM ConditionReader.step ⟨outer, level, .within front q⟩ =
      some ⟨outer, level, .within (front ++ ps) q'⟩ := by
  induction ps generalizing q front with
  | nil =>
    cases h
    rw [List.append_nil]
    rfl
  | cons p ps ih =>
    rw [List.foldlM_cons] at h
    obtain ⟨q₁, hnext, h⟩ := Option.bind_eq_some_iff.1 h
    have hstep : ConditionReader.step ⟨outer, level, .within front q⟩ p =
        some ⟨outer, level, .within (front ++ [p]) q₁⟩ := by
      unfold ConditionReader.step
      dsimp only
      rw [hnext]
    rw [List.foldlM_cons, hstep]
    change List.foldlM ConditionReader.step ⟨outer, level, .within (front ++ [p]) q₁⟩ ps = _
    rw [ih h, List.append_assoc]
    rfl

theorem IsPredicate.readsOperand (h : IsPredicate ps) : ReadsOperand ps (ofPredicate ps) := by
  obtain ⟨w, rest, rfl, ⟨hnot, hand, hor⟩, hrun⟩ := h
  intro outer rows row nots
  have hstep : ConditionReader.step ⟨outer, ⟨rows, row, nots⟩, .expecting⟩ (.word w) =
      some ⟨outer, ⟨rows, row, nots⟩, .within [.word w] ⟨0, false⟩⟩ := by
    simp [ConditionReader.step, ConditionReader.before, hnot, hand, hor]
  refine ⟨⟨outer, ⟨rows, row, nots⟩, .within (.word w :: rest) ⟨0, false⟩⟩, ?_, rfl, rfl, rfl⟩
  rw [List.foldlM_cons, hstep]
  exact run_within hrun outer ⟨rows, row, nots⟩ [.word w]

end QueryPlan
