import QueryPlan.Compile.Output
import QueryPlan.Proofs.Compile.References
import QueryPlan.Proofs.Scope.Simplification

/-!
# Output names beside columns

In the clauses that are evaluated after the projection an engine takes an unqualified name for an
output column before it looks among the sources. A column that stands there without its qualifier is
read as itself if the output column of its name, if there is one, is the column.

A scope notes the output names that are no columns under their own names, and a column of a noted
name keeps its qualifier. It does not note of which source an output column is. So another column of
the same name can be an output column, but only if the scope has no such column: a correlated one,
of a source of an outer statement, or one that its source is known not to have
(`captured_by_absent_columns_only`).
-/

namespace QueryPlan

variable {label name : String}

/-- A column of a source, as a plan refers to it. The source may be left open. -/
def Expr.IsColumnOf (label name : String) (e : Expr) : Prop :=
  ∃ source type, e = .field source name type ∧ (source = label ∨ source = "")

/-- No source of this label has a column of the name. -/
def Absent (frames : List Frame) (list : List Source) (label name : String) : Prop :=
  ∀ s ∈ list, s.label = label → ∃ columns, HasColumns frames s columns ∧ name ∉ columns

/-- The scope of a statement in which the names of the projection are visible or not. -/
def Scope.seeing (post : Bool) (scope : Scope) : Scope :=
  { scope with postProjection := post }

/-! ## 1. Output columns under their own names -/

theorem isOwnName_iff {p : Projection} :
    p.isOwnName = true ↔ ∃ source type, p.expr = .field source p.label type := by
  unfold Projection.isOwnName
  constructor
  · intro h
    split at h
    · next source name type he =>
      rw [he, ← beq_iff_eq.1 h]
      exact ⟨source, type, rfl⟩
    · cases h
  · rintro ⟨source, type, he⟩
    rw [he]
    exact beq_self_eq_true p.label

theorem not_shadows_iff {projection : List Projection} :
    ¬Shadows projection name ↔
      ∀ p ∈ projection, p.label = name → ∃ source type, p.expr = .field source name type := by
  constructor
  · rintro h p hp rfl
    refine isOwnName_iff.1 (eq_true_of_ne_false fun hown => ?_)
    exact h ⟨p, hp, hown, rfl⟩
  · rintro h ⟨p, hp, hown, rfl⟩
    rw [isOwnName_iff.2 (h p hp rfl)] at hown
    cases hown

/-- Where a column has one owner, no source of another label has it. -/
theorem OwnedBy.absent {frames : List Frame} {list : List Source} {s : Source}
    (h : OwnedBy frames list s name) (hne : label ≠ s.label) : Absent frames list label name := by
  obtain ⟨hall, before, after, -, hlist, -, -, hothers⟩ := h
  intro x hx hlabel
  obtain ⟨columns, hcolumns⟩ := hall x hx
  have hother : x ∈ before ++ after := by
    rw [hlist] at hx
    rcases List.mem_append.1 hx with hx | hx
    · exact List.mem_append_left after hx
    · rcases List.mem_cons.1 hx with rfl | hx
      · exact absurd hlabel.symm hne
      · exact List.mem_append_right before hx
  exact ⟨columns, hcolumns, hothers x hother columns hcolumns⟩

/-- Beside a column that can stand without its qualifier, no source of another label has one of its
    name. -/
theorem absent_of_canSimplify {frames : List Frame} {list : List Source}
    (hlabel : ∃ s ∈ list, s.label = label)
    (h : list.length = 1 ∨ ∃ s ∈ list, s.label = label ∧ OwnedBy frames list s name)
    {source : String} (hne : source ≠ label) : Absent frames list source name := by
  rcases h with hone | ⟨s, -, rfl, howned⟩
  · obtain ⟨only, rfl⟩ := List.length_eq_one_iff.1 hone
    obtain ⟨s, hs, rfl⟩ := hlabel
    rw [List.mem_singleton.1 hs] at hne
    intro x hx hx'
    rw [List.mem_singleton.1 hx] at hx'
    exact absurd hx'.symm hne
  · exact howned.absent hne

/-! ## 2. Columns without a qualifier after the projection -/

theorem unqualified_iff_qualifierIn {σ : Setting} {c : Context} :
    Compile.qualifier label name σ c = .ok (none, c) ↔ qualifierIn σ c label name = none := by
  rw [qualifier_run, Except.ok.injEq, Prod.mk.injEq, and_iff_left rfl]

/-- The names of the projection only ever add a qualifier. -/
theorem qualifierIn_seeing {σ : Setting} {c : Context} {scope : Scope} {outer : List Scope} :
    qualifierIn σ { c with scopes := scope.seeing true :: outer } label name = none ↔
      qualifierIn σ { c with scopes := scope.seeing false :: outer } label name = none ∧
        scope.shadowing.contains name = false := by
  have hplain : qualifier? σ.dialect σ.simplifyReferences (scope.seeing true :: outer) label name =
        none ↔
      qualifier? σ.dialect σ.simplifyReferences (scope.seeing false :: outer) label name = none ∧
        scope.shadowing.contains name = false := by
    rw [qualifier?_eq_none, qualifier?_eq_none, and_assoc]
    refine and_congr_right fun _ => ?_
    simp only [Scope.canSimplify, Scope.seeing, Scope.allKnown, Scope.owners, Bool.and_eq_true,
      Bool.true_and, Bool.false_and, Bool.not_eq_true', Bool.not_false, and_true]
    tauto
  unfold qualifierIn
  cases c.outputTable with
  | none => exact hplain
  | some x =>
    by_cases h : x.1 == label
    · simp [h]
    · simpa [h] using hplain

/-- **An output name captures a column only by being an absent one.** Where the names of the
    projection are visible, a column stands without its qualifier if and only if it does so where
    they are not and each output column of its name is a column of that name; and then each of them
    is the column itself, or one that the sources of the scope do not have. -/
theorem captured_by_absent_columns_only (σ : Setting) (frames : List Frame) (list : List Source)
    (projection : List Projection) (printedAs : List (String × String)) (force : Bool)
    (windows : List NamedWindow) (outer : List Scope) (c before after : Context)
    (label name : String) (scope : Scope)
    (hscope : scope = { Scope.ofSources frames list projection with
      printedAs := printedAs, forceQualified := force, windows := windows })
    (hbefore : before = { c with scopes := scope.seeing false :: outer })
    (hafter : after = { c with scopes := scope.seeing true :: outer }) :
    (Compile.qualifier label name σ after = .ok (none, after) ↔
      Compile.qualifier label name σ before = .ok (none, before) ∧
        ∀ p ∈ projection, p.label = name → ∃ source type, p.expr = .field source name type) ∧
    (Compile.qualifier label name σ after = .ok (none, after) →
      ∀ p ∈ projection, p.label = name → p.expr.IsColumnOf label name ∨
        ∃ source type, p.expr = .field source name type ∧ Absent frames list source name) := by
  have hshadow : scope.shadowing.contains name = false ↔
      ∀ p ∈ projection, p.label = name → ∃ source type, p.expr = .field source name type := by
    rw [← not_shadows_iff, hscope, ← Bool.not_eq_true]
    refine not_congr ?_
    simp [Scope.ofSources, Shadows, and_assoc]
  have hmain : Compile.qualifier label name σ after = .ok (none, after) ↔
      Compile.qualifier label name σ before = .ok (none, before) ∧
        ∀ p ∈ projection, p.label = name → ∃ source type, p.expr = .field source name type := by
    rw [unqualified_iff_qualifierIn, unqualified_iff_qualifierIn, hafter, hbefore,
      qualifierIn_seeing, hshadow]
  refine ⟨hmain, fun h p hp hname => ?_⟩
  obtain ⟨source, type, hexpr⟩ := (hmain.1 h).2 p hp hname
  by_cases hsource : source = label
  · exact .inl ⟨source, type, hexpr, .inl hsource⟩
  · refine .inr ⟨source, type, hexpr, ?_⟩
    have hplain := qualifier?_of_qualifierIn (unqualified_iff_qualifierIn.1 h)
    rw [hafter, hscope] at hplain
    obtain ⟨hlabel, hsimplify⟩ := qualifier?_eq_none.1 hplain
    obtain ⟨-, -, -, hlist⟩ := canSimplify_iff.1 hsimplify
    refine absent_of_canSimplify ?_ hlist hsource
    simpa [Scope.labels, Scope.ofSources, Scope.seeing] using hlabel

/-- `SELECT id, (SELECT o.total FROM items AS l ORDER BY l.total LIMIT 1) AS best`
    `FROM orders AS o` -/
def bestTotals : Statement :=
  .select { Select.empty with
    projection := [⟨"id", .field "o" "id" none⟩,
      ⟨"best", .query (.select { Select.empty with
        projection := [⟨"total", .field "o" "total" none⟩]
        sources := [.table ⟨none, "items", "l", []⟩]
        orderBy := [⟨.field "l" "total" none, .asc, none⟩]
        limit := some 1
        shape := .value })⟩]
    sources := [.table ⟨none, "orders", "o", []⟩] }

/-- The scope of the sub-query of `bestTotals`. -/
def bestTotals.inner : Scope :=
  Scope.ofSources [] [.table ⟨none, "items", "l", []⟩] [⟨"total", .field "o" "total" none⟩]

/-- A state in the sub-query of `bestTotals`, behind its projection or not. -/
def bestTotals.sorting (post : Bool) : Context :=
  { Context.start .numbered with
    scopes := [bestTotals.inner.seeing post,
      Scope.ofSources [] [.table ⟨none, "orders", "o", []⟩] []] }

/-- There `total` stands for `l.total`, and the output column of this name is the column of the
    outer statement. -/
theorem captured_by_absent_columns_here :
    Compile.qualifier "l" "total" (.ofOptions .postgres {}) (bestTotals.sorting true) =
      .ok (none, bestTotals.sorting true) ∧
    ¬(Expr.field "o" "total" none).IsColumnOf "l" "total" ∧
    Absent [] [.table ⟨none, "items", "l", []⟩] "o" "total" := by
  have hmain := captured_by_absent_columns_only (.ofOptions .postgres {}) []
    [.table ⟨none, "items", "l", []⟩] [⟨"total", .field "o" "total" none⟩] [] false []
    [Scope.ofSources [] [.table ⟨none, "orders", "o", []⟩] []] (.start .numbered)
    (bestTotals.sorting false) (bestTotals.sorting true) "l" "total" bestTotals.inner rfl rfl rfl
  have hfree : Compile.qualifier "l" "total" (.ofOptions .postgres {}) (bestTotals.sorting true) =
      .ok (none, bestTotals.sorting true) := by
    refine hmain.1.2 ⟨rfl, fun p hp _ => ?_⟩
    rw [List.mem_singleton.1 hp]
    exact ⟨"o", none, rfl⟩
  have hnot : ¬(Expr.field "o" "total" none).IsColumnOf "l" "total" := by
    rintro ⟨source, type, ⟨⟩, h | h⟩
    · exact absurd h (by decide)
    · exact absurd h (by decide)
  refine ⟨hfree, hnot, ?_⟩
  rcases hmain.2 hfree _ List.mem_cons_self rfl with h | ⟨source, type, ⟨⟩, habsent⟩
  · exact absurd h hnot
  · exact habsent

/-- The exception is there: the rows are sorted by the total of the order. -/
example :
    (compileWith bestTotals .postgres {}).map Compiled.sql =
      .ok ("SELECT id, (SELECT o.total FROM items AS l ORDER BY total LIMIT 1) AS best " ++
        "FROM orders AS o") := by
  decide +kernel

end QueryPlan
