import QueryPlan.Proofs.Condition.Predicates

/-!
# Conditions can be read back

What is read for the text of a condition has the value of the condition, whatever the values of its
tests are (`condition_read_back`). The formula that is read need not be the condition itself: nested
conjunctions and disjunctions are flattened, and a condition with one operand is that operand.

The proof follows the strengths of fragments (`ReadsAsRows`): a text that binds as `NOT` or more is
read as one operand, one that binds as `AND` or more as one conjunction, and any text as a
disjunction of conjunctions. An operand that binds less than what is around it gets parentheses, and
is one operand again.
-/

namespace QueryPlan

variable {kind : DialectKind} {α : Type} {b : α → ReadFormula}

/-! ## 1. Fragments -/

/-- A fragment that is read as a disjunction of conjunctions of formulas, with what is read for
    their leaves, and as less where it binds more. -/
structure ReadsAsRows (kind : DialectKind) (b : α → ReadFormula) (f : Fragment)
    (rows : List (List (Formula α))) : Prop where
  start : StartsPlain f.text
  pieces : ∃ ps, (conditionCutter kind).Cuts f.text ps ∧
    ReadsRows ps (rows.map (List.map (Formula.bind b))) ∧
    (¬f.strength < Conjunction.and.strength →
      ∃ row, rows = [row] ∧ ReadsRow ps (row.map (Formula.bind b))) ∧
    (¬f.strength < notStrength → ∃ x, rows = [[x]] ∧ ReadsOperand ps (x.bind b))

theorem ReadsAsRows.ofOperand {f : Fragment} {x : Formula α}
    (h : ReadsAsOperand kind f.text (x.bind b)) : ReadsAsRows kind b f [[x]] := by
  obtain ⟨hstart, ps, hcuts, hreads⟩ := h
  exact ⟨hstart, ps, hcuts, hreads.row.rows, fun _ => ⟨[x], rfl, hreads.row⟩,
    fun _ => ⟨x, rfl, hreads⟩⟩

theorem needsParens_both (f : Fragment) (isLeft : Bool) (parent : Strength) :
    needsParens f isLeft parent .both = decide (f.strength < parent) := by
  unfold needsParens
  split
  · next h => simp [h]
  · next h => split <;> simp [h]

section

variable {f : Fragment} {rows : List (List (Formula α))} (h : ReadsAsRows kind b f rows)
  (isLeft : Bool)
include h

/-- The pieces of an operand: those of the fragment, between parentheses if it binds less. -/
theorem ReadsAsRows.asOperand (parent : Strength) : ∃ ps,
    (conditionCutter kind).Cuts (f.asOperand isLeft parent .both).text
      (if f.strength < parent then parenthesized ps else ps) ∧
    ReadsOperand (parenthesized ps) ((Formula.ofRows rows).bind b) ∧
    ReadsRows ps (rows.map (List.map (Formula.bind b))) ∧
    (¬f.strength < Conjunction.and.strength →
      ∃ row, rows = [row] ∧ ReadsRow ps (row.map (Formula.bind b))) ∧
    (¬f.strength < notStrength → ∃ x, rows = [[x]] ∧ ReadsOperand ps (x.bind b)) := by
  obtain ⟨hstart, ps, hcuts, hrows, hrow, hoperand⟩ := h
  have hparen := cuts_asOperand (isApart_conditionCutter kind) rfl rfl hcuts hstart isLeft parent
    .both
  rw [needsParens_both] at hparen
  refine ⟨ps, by simpa using hparen, ?_, hrows, hrow, hoperand⟩
  rw [Formula.bind_ofRows]
  exact hrows.parenthesized

/-- As an operand of `NOT`, a fragment is read as one operand. -/
theorem ReadsAsRows.underNot : ∃ ps,
    (conditionCutter kind).Cuts (f.asOperand isLeft notStrength .both).text ps ∧
      ReadsOperand ps ((Formula.ofRows rows).bind b) := by
  obtain ⟨ps, hcuts, hparen, -, -, hoperand⟩ := h.asOperand isLeft notStrength
  by_cases hweak : f.strength < notStrength
  · rw [if_pos hweak] at hcuts
    exact ⟨_, hcuts, hparen⟩
  · rw [if_neg hweak] at hcuts
    obtain ⟨x, rfl, hx⟩ := hoperand hweak
    exact ⟨ps, hcuts, hx⟩

/-- As an operand of `AND`, a fragment is read as a conjunction of the same value. -/
theorem ReadsAsRows.underAnd : ∃ ps row,
    (conditionCutter kind).Cuts (f.asOperand isLeft Conjunction.and.strength .both).text ps ∧
      ReadsRow ps (row.map (Formula.bind b)) ∧
      ∀ ρ, Formula.rowValue ρ row = Formula.rowsValue ρ rows := by
  obtain ⟨ps, hcuts, hparen, -, hrow, -⟩ := h.asOperand isLeft Conjunction.and.strength
  by_cases hweak : f.strength < Conjunction.and.strength
  · rw [if_pos hweak] at hcuts
    refine ⟨_, [Formula.ofRows rows], hcuts, hparen.row, fun ρ => ?_⟩
    rw [← Formula.value_ofRows]
    exact Truth.join_singleton .and _
  · rw [if_neg hweak] at hcuts
    obtain ⟨row, rfl, hreads⟩ := hrow hweak
    exact ⟨ps, row, hcuts, hreads, fun ρ => (Truth.join_singleton .or _).symm⟩

/-- As an operand of `OR`, a fragment is read as a disjunction of the same value. -/
theorem ReadsAsRows.underOr : ∃ ps rows',
    (conditionCutter kind).Cuts (f.asOperand isLeft Conjunction.or.strength .both).text ps ∧
      ReadsRows ps (rows'.map (List.map (Formula.bind b))) ∧
      ∀ ρ, Formula.rowsValue ρ rows' = Formula.rowsValue ρ rows := by
  obtain ⟨ps, hcuts, hparen, hrows, -, -⟩ := h.asOperand isLeft Conjunction.or.strength
  by_cases hweak : f.strength < Conjunction.or.strength
  · rw [if_pos hweak] at hcuts
    refine ⟨_, [[Formula.ofRows rows]], hcuts, hparen.row.rows, fun ρ => ?_⟩
    rw [← Formula.value_ofRows ρ rows]
    exact (Truth.join_singleton .or _).trans (Truth.join_singleton .and _)
  · rw [if_neg hweak] at hcuts
    exact ⟨ps, rows, hcuts, hrows, fun ρ => rfl⟩

end

/-! ## 2. Negations and conditions -/

/-- A fragment that is read as a formula with some value. -/
def ReadsWithValue (kind : DialectKind) (b : α → ReadFormula) (f : Fragment)
    (v : (α → Truth) → Truth) : Prop :=
  ∃ rows, ReadsAsRows kind b f rows ∧ ∀ ρ, Formula.rowsValue ρ rows = v ρ

theorem ReadsWithValue.ofOperand {f : Fragment} {x : Formula α}
    (h : ReadsAsOperand kind f.text (x.bind b)) : ReadsWithValue kind b f (x.value ·) :=
  ⟨[[x]], .ofOperand h, fun _ => (Truth.join_singleton .or _).trans (Truth.join_singleton .and _)⟩

theorem ReadsWithValue.not {f : Fragment} {v : (α → Truth) → Truth}
    (h : ReadsWithValue kind b f v) :
    ReadsWithValue kind b (printedNot f) fun ρ => (v ρ).not := by
  obtain ⟨rows, hreads, hvalue⟩ := h
  have hword : (conditionCutter kind).Splits "NOT " [.word "NOT"] := splits_unquoted kind rfl rfl
  have hstart : StartsPlain "NOT " := ⟨'N', _, rfl, by decide⟩
  obtain ⟨ps, hcuts, hoperand⟩ := hreads.underNot false
  have hnot : ReadsWithValue kind b (printedNot f) ((Formula.not (.ofRows rows)).value ·) :=
    .ofOperand ⟨hstart.append _, .word "NOT" :: ps, hword.append_cuts hcuts, hoperand.not⟩
  have hvalues : (fun ρ => (v ρ).not) = ((Formula.not (.ofRows rows)).value ·) := by
    funext ρ
    rw [← hvalue, ← Formula.value_ofRows]
    rfl
  rw [hvalues]
  exact hnot

theorem readsAsOperand_empty (op : Conjunction) :
    ReadsAsOperand kind (printedEmpty kind op).text (.conditions op []) := by
  have htext : isUnquoted (printedEmpty kind op).text = true := by
    cases kind <;> cases op <;> rfl
  have hpredicate : IsPredicate (Cutter.plainPieces conditionMarks (printedEmpty kind op).text) := by
    cases kind <;> cases op <;> exact ⟨_, _, rfl, by decide, rfl⟩
  have hconstant : ofPredicate (Cutter.plainPieces conditionMarks (printedEmpty kind op).text) =
      .conditions op [] := by
    cases kind <;> cases op <;> rfl
  rw [← hconstant, ← pieces_unquoted kind htext]
  rw [← pieces_unquoted kind htext] at hpredicate
  refine ⟨?_, _, cuts_unquoted kind htext, hpredicate.readsOperand⟩
  cases kind <;> cases op <;> exact ⟨_, _, rfl, by decide⟩

section

variable {ι : Type} {list : List ι} {f : ι → Fragment} {v : ι → (α → Truth) → Truth}
  (h : ∀ x ∈ list, ReadsWithValue kind b (f x) (v x))
include h

/-- Operands with `AND` or `OR` between them are read as one list. Its value is that of the
    operands, as both are associative. -/
theorem reads_joined (hne : list ≠ []) {γ : Type} {op : Conjunction}
    (Reads : List Piece → List γ → Prop) {w : (α → Truth) → γ → Truth}
    (hjoin : ∀ {ps qs : List Piece} {xs ys : List γ}, Reads ps xs → Reads qs ys →
      Reads (ps ++ .word (Worded.keyword op) :: qs) (xs ++ ys))
    (hunder : ∀ {f : Fragment} {rows : List (List (Formula α))}, ReadsAsRows kind b f rows →
      ∃ ps ys, (conditionCutter kind).Cuts (f.asOperand true op.strength .both).text ps ∧
        Reads ps ys ∧ ∀ ρ, Truth.join op (ys.map (w ρ)) = Formula.rowsValue ρ rows) :
    ∃ ps ys, (conditionCutter kind).Cuts ((" " ++ Worded.keyword op ++ " ").intercalate
      ((list.map f).map fun f => (f.asOperand true op.strength .both).text)) ps ∧ Reads ps ys ∧
      ∀ ρ, Truth.join op (ys.map (w ρ)) = Truth.join op (list.map fun x => v x ρ) := by
  have hsep : (conditionCutter kind).Splits (" " ++ Worded.keyword op ++ " ")
      [.word (Worded.keyword op)] := by
    cases op <;> exact splits_unquoted kind rfl rfl
  induction list with
  | nil => exact absurd rfl hne
  | cons x list ih =>
    obtain ⟨rows, hrows, hrowsValue⟩ := h x List.mem_cons_self
    obtain ⟨ps, xs, hcuts, hreads, hvalue⟩ := hunder hrows
    cases list with
    | nil =>
      refine ⟨ps, xs, ?_, hreads, fun ρ => ?_⟩
      · rw [List.map_singleton, List.map_singleton, String.intercalate_singleton]
        exact hcuts
      · rw [hvalue, hrowsValue, List.map_singleton, Truth.join_singleton]
    | cons y list =>
      obtain ⟨qs, ys, hcuts', hreads', hvalue'⟩ :=
        ih (fun z hz => h z (List.mem_cons_of_mem x hz)) (List.cons_ne_nil y list)
      refine ⟨ps ++ .word (Worded.keyword op) :: qs, xs ++ ys, ?_, hjoin hreads hreads',
        fun ρ => ?_⟩
      · rw [List.map_cons, List.map_cons, List.map_cons, List.map_cons,
          String.intercalate_cons_cons, String.append_assoc]
        exact hcuts.append (hsep.append_cuts hcuts') (((startsApart_words kind _).append _).append _)
      · rw [List.map_append, Truth.join_append, hvalue, hvalue', hrowsValue]
        rfl

/-- A condition is read with the value that its operands give, however many they are. -/
theorem ReadsWithValue.conditions (op : Conjunction) :
    ReadsWithValue kind b (printedConditions kind op (list.map f)) fun ρ =>
      Truth.join op (list.map fun x => v x ρ) := by
  cases list with
  | nil => exact .ofOperand (x := .conditions op []) (readsAsOperand_empty op)
  | cons x rest =>
    obtain ⟨rows, hreads, hvalue⟩ := h x List.mem_cons_self
    cases rest with
    | nil => exact ⟨rows, hreads, fun ρ => (hvalue ρ).trans (Truth.join_singleton op _).symm⟩
    | cons y rest =>
      have hstart : StartsPlain (printedConditions kind op ((x :: y :: rest).map f)).text := by
        change StartsPlain (String.intercalate _ (_ :: _ :: _))
        rw [String.intercalate_cons_cons]
        exact ((hreads.start.asOperand true op.strength .both).append _).append _
      cases op with
      | and =>
        obtain ⟨ps, row, hcuts, hrow, hvalue⟩ := reads_joined h (List.cons_ne_nil x _)
          (fun ps row => ReadsRow ps (row.map (Formula.bind b)))
          (fun hxs hys => List.map_append ▸ hxs.and hys) fun h => h.underAnd true
        have hweak : Conjunction.and.strength < notStrength := by decide
        refine ⟨[row], ⟨hstart, ps, hcuts, hrow.rows, fun _ => ⟨row, rfl, hrow⟩, ?_⟩, fun ρ => ?_⟩
        · exact fun hstrong => absurd hweak hstrong
        · exact (Truth.join_singleton .or _).trans (hvalue ρ)
      | or =>
        obtain ⟨ps, rows, hcuts, hrows, hvalue⟩ := reads_joined h (List.cons_ne_nil x _)
          (fun ps rows => ReadsRows ps (rows.map (List.map (Formula.bind b))))
          (fun hxs hys => List.map_append ▸ hxs.or hys) fun h => h.underOr true
        have hweak : Conjunction.or.strength < Conjunction.and.strength := by decide
        have hweaker : Conjunction.or.strength < notStrength := by decide
        refine ⟨rows, ⟨hstart, ps, hcuts, hrows, ?_, ?_⟩, hvalue⟩
        · exact fun hstrong => absurd hweak hstrong
        · exact fun hstrong => absurd hweaker hstrong

end

/-! ## 3. What is read -/

section

variable {ref : ColumnRef → String} (href : ∀ column, kind.dialect.IsPath (ref column))
include href

/-- The text of a condition is read with the value of the condition. -/
theorem reads_printed (t : Formula ColumnTest) :
    ReadsWithValue kind (ColumnTest.read kind ref) (t.printed kind ref) (t.value ·) := by
  induction t with
  | leaf test => exact .ofOperand (x := .leaf test) (reads_test href test)
  | not operand ih => exact ih.not
  | conditions op operands ih =>
    have hvalue : ((Formula.conditions op operands).value ·) = fun ρ : ColumnTest → Truth =>
        Truth.join op (operands.map fun t => t.value ρ) := by
      funext ρ
      exact Formula.value_conditions ρ op operands
    rw [Formula.printed_conditions, hvalue]
    exact .conditions ih op

end

/-- **Conditions can be read back.** In every built-in dialect, a condition is an error in strict
    mode if the dialect lacks one of its tests, and otherwise its text is read as a formula over
    what is read for tests. Whatever values the tests have, that formula has the value of the
    condition. -/
theorem condition_read_back (s : Setting) (c : Context) (kind : DialectKind)
    (t : Formula ColumnTest) (hs : s.dialect = kind.dialect) (hc : c.NamesByPaths s.dialect) :
    if s.strict && t.isLacking kind then t.toExpr.render s c = .error (Error.unsupported "~")
    else ∃ (f : Fragment) (u : Formula ColumnTest), t.toExpr.render s c = .ok (f, c) ∧
      readCondition kind f.text = some (u.bind (ColumnTest.read kind (columnText s c))) ∧
      ∀ ρ, u.value ρ = t.value ρ := by
  have href : ∀ column, kind.dialect.IsPath (columnText s c column) :=
    fun column => hs ▸ isPath_columnText hc column
  rw [render_condition hs hc t]
  split
  · rfl
  · obtain ⟨rows, ⟨-, ps, hcuts, hrows, -⟩, hvalue⟩ := reads_printed href t
    refine ⟨_, .ofRows rows, rfl, ?_, fun ρ => ?_⟩
    · rw [readCondition_of_cuts hcuts hrows, Formula.bind_ofRows]
    · rw [Formula.value_ofRows, hvalue]

/-- A conjunction of a negated disjunction and a disjunction, with a conjunction of nothing. -/
def nestedTests : Formula ColumnTest :=
  .conditions .and [
    .not (.conditions .or [
      .leaf (.compare .isDistinctFrom ⟨"o", "paid", none⟩ ⟨"i", "total", none⟩),
      .conditions .and []]),
    .conditions .or [
      .leaf (.between ⟨"o", "paid", none⟩ ⟨"i", "low", none⟩ ⟨"i", "total", none⟩ false),
      .leaf (.isNull ⟨"i", "total", none⟩ true)]]

/-- Within a query over some tables. -/
def Context.overTables (tables : List String) : Context :=
  { Context.start .named with
    scopes := [Scope.ofSources [] (tables.map fun name => .table ⟨none, name, name, []⟩) []] }

theorem nestedTests_read_back :
    ∃ (f : Fragment) (u : Formula ColumnTest),
      nestedTests.toExpr.render (.ofOptions .mySql {}) (.overTables ["o", "i"]) =
        .ok (f, .overTables ["o", "i"]) ∧
      readCondition .mySql f.text = some (u.bind (ColumnTest.read .mySql
        (columnText (.ofOptions .mySql {}) (.overTables ["o", "i"])))) ∧
      ∀ ρ, u.value ρ = nestedTests.value ρ :=
  condition_read_back (.ofOptions .mySql {}) (.overTables ["o", "i"]) .mySql nestedTests rfl
    ((Context.namesByPaths_start _ _).enter (Scope.namesByPaths_ofSources _ _ _ _))

example :
    (nestedTests.toExpr.render (.ofOptions .mySql {}) (.overTables ["o", "i"])).toOption.map
      (fun x => x.1.text) =
      some ("NOT (NOT (o.paid <=> i.total) OR TRUE) AND " ++
        "(o.paid BETWEEN i.low AND i.total OR i.total IS NOT NULL)") := by
  decide +kernel

end QueryPlan
