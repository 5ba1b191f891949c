import QueryPlan.Compile.Statement
import QueryPlan.Proofs.Compile.Run

/-!
# References to columns

What is written for a column depends on the scopes around it and on nothing else in the state of a
compilation (`columnText`, `field_run`). It is a path of identifiers (`Dialect.IsPath`), provided
that the names that stand for tables are (`Context.NamesByPaths`). A compilation starts in such a
state, and the scopes of queries are of this kind (`namesByPaths_ofSources`).
-/

namespace QueryPlan

open Compile

/-! ## 1. What is written for a column -/

/-- A column of a plan. -/
structure ColumnRef where
  source : String
  name : String
  type : Option DataType

def ColumnRef.toExpr (ref : ColumnRef) : Expr :=
  .field ref.source ref.name ref.type

/-- The qualifier of a column in a state. -/
def qualifierIn (s : Setting) (c : Context) (label name : String) : Option String :=
  let plain := qualifier? s.dialect s.simplifyReferences c.scopes label name
  match c.outputTable with
  | some (target, pseudo) => if target == label then some pseudo else plain
  | none => plain

/-- The reference to a column in a state. -/
def columnText (s : Setting) (c : Context) (ref : ColumnRef) : String :=
  let column := s.dialect.quoteIdent ref.name
  if ref.source == "" then column
  else
    match qualifierIn s c ref.source ref.name with
    | some qualifier => qualifier ++ "." ++ column
    | none => column

theorem qualifier_run (s : Setting) (c : Context) (label name : String) :
    qualifier label name s c = .ok (qualifierIn s c label name, c) := by
  unfold qualifier qualifierIn
  rw [bind_run get_run, bind_run dialect_run, bind_run read_run]
  cases c.outputTable <;> rfl

theorem field_run (s : Setting) (c : Context) (ref : ColumnRef) :
    Renderer.field ref.source ref.name s c = .ok (columnText s c ref, c) := by
  have hquote : quote ref.name s c = .ok (s.dialect.quoteIdent ref.name, c) := rfl
  unfold Renderer.field columnText
  rw [bind_run hquote]
  dsimp only
  split
  · rfl
  · change (qualifier ref.source ref.name >>= _) s c = _
    rw [bind_run (qualifier_run s c ref.source ref.name)]
    cases qualifierIn s c ref.source ref.name <;> rfl

/-- A qualifier is left out only where the scopes alone allow it. -/
theorem qualifier?_of_qualifierIn {s : Setting} {c : Context} {label name : String}
    (h : qualifierIn s c label name = none) :
    qualifier? s.dialect s.simplifyReferences c.scopes label name = none := by
  unfold qualifierIn at h
  split at h
  · split at h
    · cases h
    · exact h
  · exact h

/-! ## 2. Names that stand for tables -/

section Names

variable {P : String → Prop} {s : Setting} {c : Context}
  (hident : ∀ ident, P (s.dialect.quoteIdent ident))
include hident

theorem forall_mem_qualifier? {simplify : Bool} {scopes : List Scope}
    (hscopes : ∀ scope ∈ scopes, ∀ x ∈ scope.printedAs, P x.2) (label name : String) :
    ∀ q ∈ qualifier? s.dialect simplify scopes label name, P q := by
  have hprinted : ∀ scope ∈ scopes, P (scope.printed s.dialect label) := by
    intro scope hscope
    unfold Scope.printed
    cases hf : Fields.get? scope.printedAs label with
    | none => exact hident label
    | some t => exact hscopes scope hscope _ (Fields.mem_of_get? hf)
  intro q hq
  unfold qualifier? at hq
  split at hq
  · cases hq
    exact hident label
  · split at hq
    · split at hq
      · cases hq
      · cases hq
        exact hprinted _ List.mem_cons_self
    · split at hq
      · next outer hfind =>
        cases hq
        exact hprinted outer (List.mem_of_find?_eq_some hfind)
      · cases hq
        exact hident label

theorem forall_mem_qualifierIn (hscopes : ∀ scope ∈ c.scopes, ∀ x ∈ scope.printedAs, P x.2)
    (houtput : ∀ x ∈ c.outputTable, P x.2) (label name : String) :
    ∀ q ∈ qualifierIn s c label name, P q := by
  intro q hq
  unfold qualifierIn at hq
  cases ho : c.outputTable with
  | none =>
    rw [ho] at hq
    exact forall_mem_qualifier? hident hscopes label name q hq
  | some x =>
    rw [ho] at hq
    dsimp only at hq
    split at hq
    · cases hq
      exact houtput x ho
    · exact forall_mem_qualifier? hident hscopes label name q hq

variable (hdotted : ∀ front ident, P front → P (front ++ "." ++ s.dialect.quoteIdent ident))
include hdotted

/-- **What holds of identifiers and of paths, and of the names that stand for tables, holds of all
    references to columns.** -/
theorem columnText_of_names (hscopes : ∀ scope ∈ c.scopes, ∀ x ∈ scope.printedAs, P x.2)
    (houtput : ∀ x ∈ c.outputTable, P x.2) (ref : ColumnRef) : P (columnText s c ref) := by
  unfold columnText
  dsimp only
  split
  · exact hident ref.name
  · split
    · next q hq => exact hdotted q _ (forall_mem_qualifierIn hident hscopes houtput _ _ q hq)
    · exact hident ref.name

/-- The scope of a change prints its target by the name of the table. -/
theorem printedAs_targetScope {target : Table} {sources : List Source}
    {returning : List Projection} {scope : Scope} {c' : Context}
    (h : Compile.targetScope target sources returning s c = .ok (scope, c')) :
    ∀ x ∈ scope.printedAs, P x.2 := by
  unfold Compile.targetScope Compile.tableName at h
  obtain ⟨name, c₁, hname, h⟩ := bind_eq_ok.1 h
  obtain ⟨plain, c₂, -, h⟩ := bind_eq_ok.1 h
  cases h
  intro x hx
  rw [List.mem_singleton.1 hx]
  obtain ⟨own, c₁, hown, hname⟩ := bind_eq_ok.1 hname
  cases hown
  cases hschema : target.schema with
  | none =>
    rw [hschema] at hname
    cases hname
    exact hident target.name
  | some schema =>
    rw [hschema] at hname
    obtain ⟨qualifier, c₂, hqualifier, hname⟩ := bind_eq_ok.1 hname
    cases hqualifier
    cases hname
    exact hdotted _ _ (hident schema)

end Names

/-! ## 3. Paths -/

/-- A path of identifiers, as it is written: one identifier, or more with dots between them. -/
inductive Dialect.IsPath (d : Dialect) : String → Prop where
  | ident (name : String) : d.IsPath (d.quoteIdent name)
  | dotted {front : String} (hfront : d.IsPath front) (name : String) :
      d.IsPath (front ++ "." ++ d.quoteIdent name)

/-- A scope in which every name that stands for a table is a path. -/
def Scope.NamesByPaths (d : Dialect) (scope : Scope) : Prop :=
  ∀ x ∈ scope.printedAs, d.IsPath x.2

/-- A state in which every name that stands for a table is a path. -/
structure Context.NamesByPaths (d : Dialect) (c : Context) : Prop where
  scopes : ∀ scope ∈ c.scopes, scope.NamesByPaths d
  outputTable : ∀ x ∈ c.outputTable, d.IsPath x.2

theorem Context.namesByPaths_start (d : Dialect) (style : PlaceholderStyle) :
    (Context.start style).NamesByPaths d := by
  constructor
  · intro scope h
    exact absurd h List.not_mem_nil
  · intro x h
    cases h

theorem Context.NamesByPaths.enter {d : Dialect} {c : Context} (hc : c.NamesByPaths d)
    {scope : Scope} (h : scope.NamesByPaths d) :
    Context.NamesByPaths d { c with scopes := scope :: c.scopes } := by
  refine ⟨fun other ho => ?_, hc.outputTable⟩
  rcases List.mem_cons.1 ho with rfl | ho
  · exact h
  · exact hc.scopes other ho

/-- The scope of a query prints its tables by their labels. -/
theorem Scope.namesByPaths_ofSources (d : Dialect) (frames : List Frame) (sources : List Source)
    (projection : List Projection) :
    (Scope.ofSources frames sources projection).NamesByPaths d := by
  intro x h
  exact absurd h List.not_mem_nil

/-- **A column is written as a path.** -/
theorem isPath_columnText {s : Setting} {c : Context} (hc : c.NamesByPaths s.dialect)
    (ref : ColumnRef) : s.dialect.IsPath (columnText s c ref) :=
  columnText_of_names .ident (fun _ ident hfront => .dotted hfront ident) hc.scopes hc.outputTable ref

end QueryPlan
