import QueryPlan.Compile.Output
import QueryPlan.Proofs.Compile.Throughout
import QueryPlan.Proofs.Dialect.Quoting

/-!
# Captured qualifiers

A qualifier is found by the label of a source, innermost scope first, and so does an engine find the
source again when it reads the qualifier. Both find the same source as long as the qualifier is the
label; but the target of a change is printed by its table name, so that a source of this name in a
sub-query of the change comes first: `only_targets_captured` says that this is the only case.
-/

namespace QueryPlan

/-! ## 1. Printed qualifiers -/

theorem labels_scope (d : Dialect) (o : Opened) : (o.scope d).labels = o.labels := by
  simp [Scope.labels, Opened.scope, Statement.scope, Scope.ofSources, Opened.labels]

/-- A label that inner scopes do not have is printed as the innermost scope that has it says. -/
theorem qualifier?_eq_printed {d : Dialect} {simplify : Bool} {label name q : String}
    {inner outer : List Scope} {scope : Scope} (hscope : label ∈ scope.labels)
    (hinner : ∀ s ∈ inner, label ∉ s.labels)
    (h : qualifier? d simplify (inner ++ scope :: outer) label name = some q) :
    q = scope.printed d label := by
  have hlabel : ∀ s : Scope, s.hasLabel label = true ↔ label ∈ s.labels :=
    fun s => List.contains_iff_mem
  have hhas : scope.hasLabel label = true := (hlabel scope).2 hscope
  cases inner with
  | nil =>
    rw [List.nil_append, qualifier?, if_pos hhas] at h
    split at h
    · cases h
    · exact (Option.some.inj h).symm
  | cons first rest =>
    have hnot : ∀ s ∈ first :: rest, ¬s.hasLabel label = true :=
      fun s hs h => hinner s hs ((hlabel s).1 h)
    have hfind : (first :: rest ++ scope :: outer).find? (fun s => s.hasLabel label) = some scope := by
      rw [List.find?_append, List.find?_eq_none.2 hnot, Option.none_or]
      exact List.find?_cons_of_pos hhas
    rw [List.cons_append, qualifier?, if_neg (hnot first List.mem_cons_self), ← List.cons_append,
      hfind] at h
    exact (Option.some.inj h).symm

/-- The target of a change is printed by its name, and every other source by its label. -/
theorem printed_scope (d : Dialect) (o : Opened) (label : String) :
    (∃ t, o.statement.target? = some t ∧ t.label = label ∧
      (o.scope d).printed d label = d.tableName t) ∨
    (∀ t, o.statement.target? = some t → t.label ≠ label) ∧
      (o.scope d).printed d label = d.quoteIdent label := by
  have hprinted : (o.scope d).printedAs =
      o.statement.target?.toList.map fun t => (t.label, d.tableName t) := rfl
  unfold Scope.printed
  rw [hprinted]
  cases ht : o.statement.target? with
  | none => exact .inr ⟨nofun, rfl⟩
  | some t =>
    rw [Option.toList_some, List.map_singleton, Fields.get?_cons]
    by_cases h : label = t.label
    · rw [if_pos h]
      exact .inl ⟨t, rfl, h.symm, rfl⟩
    · rw [if_neg h]
      refine .inr ⟨?_, rfl⟩
      rintro _ ⟨⟩ h'
      exact h h'.symm

/-! ## 2. Capture -/

/-- A source in an inner scope is taken for the one that a qualifier means if that is the target of
    a change, printed by the name that is the label of the inner one. -/
theorem quoteIdent_eq_printed_iff {d : Dialect} (hd : d.QuotesApart) {o : Opened}
    {label other : String} (hne : other ≠ label) :
    d.quoteIdent other = (o.scope d).printed d label ↔
      ∃ t, o.statement.target? = some t ∧ t.label = label ∧ t.schema = none ∧ t.name = other := by
  rcases printed_scope d o label with ⟨t, ht, hlabel, hprinted⟩ | ⟨hother, hprinted⟩
  · rw [hprinted, Dialect.tableName]
    constructor
    · intro h
      cases hschema : t.schema with
      | none =>
        rw [hschema] at h
        exact ⟨t, ht, hlabel, hschema, (quoteIdent_injective hd h).symm⟩
      | some schema =>
        rw [hschema] at h
        exact absurd h (quoteIdent_ne_dotted hd other schema t.name)
    · rintro ⟨t', ht', -, hschema, rfl⟩
      rw [ht] at ht'
      cases ht'
      rw [hschema]
  · rw [hprinted]
    constructor
    · exact fun h => absurd (quoteIdent_injective hd h) hne
    · rintro ⟨t, ht, hlabel, -⟩
      exact absurd hlabel (hother t ht)

/-- Of the qualifiers that are printed in a place only those of targets are captured: if a label is
    found in one scope and printed as `q`, then a source in a scope further inside is written like
    `q` if and only if the label is that of the target of a change, the target has no schema, and
    its name is the label of the inner source. -/
def Place.CapturesTargetsOnly (k : Place) (σ : Setting) (c : Context) : Prop :=
  ∀ label name q, Compile.qualifier label name σ c = .ok (some q, c) →
    ∀ inner o outer, k.opened = inner ++ o :: outer → label ∈ o.labels →
      (∀ i ∈ inner, label ∉ i.labels) → ∀ i ∈ inner, ∀ other ∈ i.labels,
        (σ.dialect.quoteIdent other = q ↔ ∃ t, o.statement.target? = some t ∧ t.label = label ∧
          t.schema = none ∧ t.name = other)

theorem Place.Fits.capturesTargetsOnly {k : Place} {σ : Setting} {c : Context}
    (hd : σ.dialect.QuotesApart) (hc : k.Fits σ.dialect c) (hout : c.outputTable = none) :
    k.CapturesTargetsOnly σ c := by
  intro label name q hq inner o outer hopened hlabel hinner i hi other hother
  rw [Compile.qualifier_run hout, hc.scopes, Place.scopes, hopened, List.map_append,
    List.map_cons] at hq
  have hprinted : q = (o.scope σ.dialect).printed σ.dialect label := by
    refine qualifier?_eq_printed ?_ ?_ (congrArg Prod.fst (Except.ok.inj hq))
    · rw [labels_scope]
      exact hlabel
    · intro s hs
      obtain ⟨i, hi, rfl⟩ := List.mem_map.1 hs
      rw [labels_scope]
      exact hinner i hi
  have hne : other ≠ label := by
    rintro rfl
    exact hinner i hi hother
  rw [hprinted, quoteIdent_eq_printed_iff hd hne]

/-- **Only the target of a change can be captured.** Throughout a compilation the state is that of a
    place, and outside of output clauses a printed qualifier is captured by a source further inside
    only if it is the name of a change's target. In particular no qualifier in a query is. -/
theorem only_targets_captured (s : Statement) (d : Dialect) (hd : d.QuotesApart) (o : Options) :
    s.Throughout (.ofOptions d o) (.start d.placeholder) fun p c =>
      ∃ k, Reaches (.ofOptions d o) s p k ∧ k.Fits d c ∧
        (c.outputTable = none → k.CapturesTargetsOnly (.ofOptions d o) c) := by
  refine s.throughout_of_reaches (fun p k c hp hc => ⟨k, hp, hc, ?_⟩) _
  exact hc.capturesTargetsOnly (σ := .ofOptions d o) hd

/-- `SELECT 1 AS one FROM users WHERE users.parent = u.id` -/
def childrenOfU : Statement :=
  .select { Select.empty with
    projection := [⟨"one", .raw "1"⟩]
    sources := [.table ⟨none, "users", "users", []⟩]
    predicates := [.binaryPredicate .eq (.field "users" "parent" none) (.field "u" "id" none)] }

/-- `DELETE FROM users AS u WHERE EXISTS (SELECT 1 AS one FROM users WHERE users.parent = u.id)`,
    which is printed without the label. -/
def deleteParents : Statement :=
  .delete ⟨[], ⟨none, "users", "u", []⟩, [], [.rowsExist childrenOfU false], [], none, [], .rows⟩

/-- The reference to `u.id` is captured: the target of the change has this label and the sub-query
    has not, and the qualifier is printed like the label of the source in the sub-query. -/
theorem only_targets_captured_here :
    Dialect.generic.QuotesApart ∧
    (deleteParents.Throughout (.ofOptions .generic {}) (.start Dialect.generic.placeholder)
      fun p c => ∃ k, Reaches (.ofOptions .generic {}) deleteParents p k ∧ k.Fits .generic c ∧
        (c.outputTable = none → k.CapturesTargetsOnly (.ofOptions .generic {}) c)) ∧
    ∃ k inner o, Reaches (.ofOptions .generic {}) deleteParents (.expr (.field "u" "id" none)) k ∧
      k.opened = [inner, o] ∧ inner.labels = ["users"] ∧ o.labels = ["u"] ∧
      ∀ c, k.Fits .generic c → c.outputTable = none →
        Compile.qualifier "u" "id" (.ofOptions .generic {}) c =
          .ok (some (Dialect.generic.quoteIdent "users"), c) := by
  have hquotes : Dialect.generic.QuotesApart := DialectKind.quotesApart .generic
  refine ⟨hquotes, only_targets_captured deleteParents .generic hquotes {}, ?_⟩
  refine ⟨(Place.start.inClauses deleteParents false false).inClauses childrenOfU false false, _, _,
    ?_, rfl, rfl, rfl, ?_⟩
  · have hquery : Reaches (.ofOptions .generic {}) deleteParents (.statement childrenOfU)
        (Place.start.inClauses deleteParents false false) :=
      (Reaches.start.step (.clause (.tail _ (.head _)) false false)).step
        (.inner (e := .rowsExist childrenOfU false) (.head _))
    exact (hquery.step (.clause (.tail _ (.head _)) false false)).step
      (.inner (e := .binaryPredicate .eq (.field "users" "parent" none) (.field "u" "id" none))
        (.tail _ (.head _)))
  · intro c hc hout
    rw [Compile.qualifier_run hout, hc.scopes]
    rfl

/-- The exception is there: `users.id` was to be a column of the deleted row. -/
example :
    (compileWith deleteParents .generic {}).map Compiled.sql =
      .ok "DELETE FROM users WHERE EXISTS (SELECT 1 AS one FROM users WHERE parent = users.id)" := by
  decide +kernel

end QueryPlan
