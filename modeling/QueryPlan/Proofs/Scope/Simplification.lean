import QueryPlan.Proofs.Compile.Run

/-!
# Columns without a qualifier

A column may stand without its qualifier if its scope has one source only, or if the columns of all
sources are known and just one source has a column of that name, once. This module says what the
columns of a source are (`HasColumns`), apart from how a scope looks them up, and that a qualifier is
left out under exactly these conditions (`unqualified_iff`).

* Two sources under one label, or one source with a column twice, keep the qualifier.
* A source whose columns are not known keeps the qualifiers of all sources beside it.
-/

namespace QueryPlan

variable {frames : List Frame} {label name : String}

/-! ## 1. The columns of a source -/

/-- The columns of a source behind some frames of common table expressions, innermost first. -/
inductive HasColumns : List Frame → Source → List String → Prop where
  | declared {frames : List Frame} {t : Table} (ht : t.columns ≠ []) :
      HasColumns frames (.table t) (t.columns.map Column.name)
  /-- A table that declares no columns has those of the innermost common table expression of its
      name. -/
  | cte {inner outer : List Frame} {frame : Frame} {t : Table} {columns : List String}
      (ht : t.columns = []) (hinner : ∀ f ∈ inner, Fields.get? f t.name = none)
      (hframe : Fields.get? frame t.name = some (some columns)) :
      HasColumns (inner ++ frame :: outer) (.table t) columns
  | derived {frames : List Frame} {label : String} {s : Statement} (hs : s.projection ≠ []) :
      HasColumns frames (.derived label s) (s.projection.map Projection.label)
  | values {frames : List Frame} {label : String} {columns : List String} {rows : List (List Expr)} :
      HasColumns frames (.values label columns rows) columns
  /-- What is joined is not looked up among the common table expressions. -/
  | join {frames : List Frame} {kind : JoinKind} {s : Source} {condition : Option Expr}
      {columns : List String} (hs : HasColumns [] s columns) :
      HasColumns frames (.join kind s condition) columns

/-- A common table expression is looked up in the innermost frame that has its name. -/
theorem findCte_eq_some {columns : List String} :
    findCte frames name = some columns ↔
      ∃ inner frame outer, frames = inner ++ frame :: outer ∧
        (∀ f ∈ inner, Fields.get? f name = none) ∧ Fields.get? frame name = some (some columns) := by
  unfold findCte
  rw [Option.join_eq_some_iff, List.findSome?_eq_some_iff]
  constructor
  · rintro ⟨inner, frame, outer, hframes, hframe, hinner⟩
    exact ⟨inner, frame, outer, hframes, hinner, hframe⟩
  · rintro ⟨inner, frame, outer, hframes, hinner, hframe⟩
    exact ⟨inner, frame, outer, hframes, hframe, hinner⟩

theorem knownColumns_nil (s : Source) : knownColumns [] s = s.exposedColumns? := by
  cases s <;> rfl

/-- The columns that a scope knows of a source are its columns. -/
theorem knownColumns_eq_some : {frames : List Frame} → (s : Source) → {columns : List String} →
    (knownColumns frames s = some columns ↔ HasColumns frames s columns)
  | frames, .table t, columns => by
    by_cases ht : t.columns = []
    · have hknown : knownColumns frames (.table t) = findCte frames t.name := by
        rw [knownColumns, ht]
        rfl
      rw [hknown, findCte_eq_some]
      constructor
      · rintro ⟨inner, frame, outer, rfl, hinner, hframe⟩
        exact .cte ht hinner hframe
      · intro h
        cases h with
        | declared hne => exact absurd ht hne
        | cte _ hinner hframe => exact ⟨_, _, _, rfl, hinner, hframe⟩
    · have hknown : knownColumns frames (.table t) = some (t.columns.map Column.name) := by
        rw [knownColumns, if_neg (by simpa using ht)]
      rw [hknown]
      constructor
      · rintro ⟨⟩
        exact .declared ht
      · intro h
        cases h with
        | declared _ => rfl
        | cte hempty => exact absurd hempty ht
  | frames, .derived label s, columns => by
    by_cases hs : s.projection = []
    · have hknown : knownColumns frames (.derived label s) = none := by
        simp [knownColumns, Source.exposedColumns?, hs]
      rw [hknown]
      constructor
      · exact nofun
      · intro h
        cases h with
        | derived hne => exact absurd hs hne
    · have hknown : knownColumns frames (.derived label s) =
          some (s.projection.map Projection.label) := by
        simp [knownColumns, Source.exposedColumns?, hs]
      rw [hknown]
      constructor
      · rintro ⟨⟩
        exact .derived hs
      · rintro ⟨⟩
        rfl
  | frames, .values label columns rows, columns' => by
    constructor
    · rintro ⟨⟩
      exact .values
    · rintro ⟨⟩
      rfl
  | frames, .join kind s condition, columns => by
    have hinner : knownColumns frames (.join kind s condition) = knownColumns [] s :=
      (knownColumns_nil s).symm
    rw [hinner, knownColumns_eq_some s]
    constructor
    · exact .join
    · intro h
      cases h with
      | join hs => exact hs

/-! ## 2. The owners of a column -/

/-- A list that repeats the labels of some items is a single label if just one item is repeated,
    once. -/
theorem flatMap_replicate_eq_singleton {α : Type} {label : α → String} {times : α → Nat}
    {list : List α} {a : String} :
    (list.flatMap fun x => List.replicate (times x) (label x)) = [a] ↔
      ∃ before x after, list = before ++ x :: after ∧ label x = a ∧ times x = 1 ∧
        ∀ y ∈ before ++ after, times y = 0 := by
  have hnone : ∀ rest : List α, (rest.flatMap fun x => List.replicate (times x) (label x)) = [] ↔
      ∀ y ∈ rest, times y = 0 := by
    intro rest
    simp [List.flatMap_eq_nil_iff, List.replicate_eq_nil_iff]
  induction list with
  | nil => simp
  | cons y rest ih =>
    rw [List.flatMap_cons]
    constructor
    · intro h
      match hy : times y with
      | 0 =>
        rw [hy, List.replicate_zero, List.nil_append] at h
        obtain ⟨before, x, after, rfl, hx, hone, hothers⟩ := ih.1 h
        refine ⟨y :: before, x, after, rfl, hx, hone, fun z hz => ?_⟩
        rcases List.mem_cons.1 hz with rfl | hz
        · exact hy
        · exact hothers z hz
      | 1 =>
        rw [hy] at h
        simp only [List.replicate_one, List.singleton_append, List.cons.injEq] at h
        exact ⟨[], y, rest, rfl, h.1, hy, (hnone rest).1 h.2⟩
      | n + 2 =>
        rw [hy] at h
        simp [List.replicate_succ] at h
    · rintro ⟨before, x, after, hlist, hx, hone, hothers⟩
      cases before with
      | nil =>
        cases hlist
        rw [hone, hx, (hnone rest).2 hothers]
        rfl
      | cons z before =>
        cases hlist
        rw [hothers y List.mem_cons_self, List.replicate_zero, List.nil_append]
        refine ih.2 ⟨before, x, after, rfl, hx, hone, fun w hw => ?_⟩
        exact hothers w (List.mem_cons_of_mem y hw)

/-- The owners of a column are the sources that have it, as often as they have it. -/
theorem owners_ofSources (frames : List Frame) (list : List Source) (projection : List Projection)
    (name : String) :
    (Scope.ofSources frames list projection).owners name =
      list.flatMap fun s =>
        List.replicate (((knownColumns frames s).getD []).count name) s.label := by
  simp only [Scope.owners, Scope.ofSources, List.flatMap_map]
  congr
  funext s
  rw [List.map_const', List.count_eq_length_filter]

/-- **A column has one owner**: one source has it, once, and no other has it. -/
def OwnedBy (frames : List Frame) (list : List Source) (s : Source) (name : String) : Prop :=
  (∀ x ∈ list, ∃ columns, HasColumns frames x columns) ∧
    ∃ before after columns, list = before ++ s :: after ∧ HasColumns frames s columns ∧
      columns.count name = 1 ∧
      ∀ x ∈ before ++ after, ∀ columns, HasColumns frames x columns → name ∉ columns

theorem ownedBy_iff {list : List Source} {projection : List Projection} :
    ((Scope.ofSources frames list projection).allKnown = true ∧
      (Scope.ofSources frames list projection).owners name = [label]) ↔
      ∃ s ∈ list, s.label = label ∧ OwnedBy frames list s name := by
  have hknown : (Scope.ofSources frames list projection).allKnown = true ↔
      ∀ x ∈ list, ∃ columns, HasColumns frames x columns := by
    simp only [Scope.allKnown, Scope.ofSources, List.all_map, List.all_eq_true, Function.comp_apply,
      Option.isSome_iff_exists, knownColumns_eq_some]
  rw [hknown, owners_ofSources, flatMap_replicate_eq_singleton]
  constructor
  · rintro ⟨hall, before, s, after, hlist, hlabel, hone, hothers⟩
    have hs : s ∈ list := by
      rw [hlist]
      simp
    refine ⟨s, hs, hlabel, hall, ?_⟩
    obtain ⟨columns, hcolumns⟩ := hall s hs
    rw [(knownColumns_eq_some s).2 hcolumns] at hone
    refine ⟨before, after, columns, hlist, hcolumns, hone, fun x hx columns hcolumns => ?_⟩
    have hzero := hothers x hx
    rw [(knownColumns_eq_some x).2 hcolumns] at hzero
    exact List.count_eq_zero.1 hzero
  · rintro ⟨s, -, hlabel, hall, before, after, columns, hlist, hcolumns, hone, hothers⟩
    refine ⟨hall, before, s, after, hlist, hlabel, ?_, fun x hx => ?_⟩
    · rw [(knownColumns_eq_some s).2 hcolumns]
      exact hone
    · have hmem : x ∈ list := by
        rw [hlist]
        simp only [List.mem_append, List.mem_cons] at hx ⊢
        tauto
      obtain ⟨columns, hcolumns⟩ := hall x hmem
      rw [(knownColumns_eq_some x).2 hcolumns]
      exact List.count_eq_zero.2 (hothers x hx columns hcolumns)

/-! ## 3. Qualifiers -/

theorem qualifier?_eq_none {d : Dialect} {simplify : Bool} {scope : Scope} {outer : List Scope} :
    qualifier? d simplify (scope :: outer) label name = none ↔
      label ∈ scope.labels ∧ scope.canSimplify simplify label name = true := by
  have hlabel : scope.hasLabel label = true ↔ label ∈ scope.labels := List.contains_iff_mem
  rw [← hlabel]
  simp only [qualifier?]
  split
  · next h => split <;> simp_all
  · next h => split <;> simp_all

/-- A name of the projection that would capture a column of this name. -/
def Shadows (projection : List Projection) (name : String) : Prop :=
  ∃ p ∈ projection, p.isOwnName = false ∧ p.label = name

theorem canSimplify_iff {list : List Source} {projection : List Projection}
    {printedAs : List (String × String)} {post force : Bool} {windows : List NamedWindow}
    {simplify : Bool} :
    Scope.canSimplify { Scope.ofSources frames list projection with
        printedAs := printedAs, postProjection := post, forceQualified := force, windows := windows }
      simplify label name = true ↔
      simplify = true ∧ force = false ∧ ¬(post = true ∧ Shadows projection name) ∧
        (list.length = 1 ∨ ∃ s ∈ list, s.label = label ∧ OwnedBy frames list s name) := by
  have hshadow : (Scope.ofSources frames list projection).shadowing.contains name = true ↔
      Shadows projection name := by
    simp [Scope.ofSources, Shadows, and_assoc]
  have hlength : (Scope.ofSources frames list projection).sources.length = list.length :=
    List.length_map ..
  have howned := @ownedBy_iff frames label name list projection
  rw [← howned, ← hshadow, ← hlength]
  unfold Scope.canSimplify
  simp only [Bool.and_eq_true, Bool.not_eq_true', Bool.or_eq_true, beq_iff_eq, and_assoc,
    ← Bool.not_eq_true (_ && _)]
  rfl

/-- **A column stands without its qualifier under exactly these conditions**: references are
    simplified, and the scope does not forbid it; no visible name of the projection would capture
    the column; and the label is that of the only source, or of the only source that has the column,
    once, where the columns of all sources are known. A label that no source of the innermost scope
    has is always printed. -/
theorem unqualified_iff (σ : Setting) (frames : List Frame) (list : List Source)
    (projection : List Projection) (printedAs : List (String × String)) (post force : Bool)
    (windows : List NamedWindow) (outer : List Scope) (c : Context) (label name : String)
    (hscopes : c.scopes = { Scope.ofSources frames list projection with
      printedAs := printedAs, postProjection := post, forceQualified := force,
      windows := windows } :: outer)
    (hout : c.outputTable = none) :
    (Compile.qualifier label name σ c = .ok (none, c) ↔
      σ.simplifyReferences = true ∧ force = false ∧ ¬(post = true ∧ Shadows projection name) ∧
        ∃ s ∈ list, s.label = label ∧ (list = [s] ∨ OwnedBy frames list s name)) ∧
    (label ∉ list.map Source.label →
      ∃ q, Compile.qualifier label name σ c = .ok (some q, c)) := by
  have hlabels : label ∈ (Scope.ofSources frames list projection).labels ↔
      ∃ s ∈ list, s.label = label := by
    simp [Scope.labels, Scope.ofSources]
  rw [Compile.qualifier_run hout, hscopes]
  constructor
  · rw [Except.ok.injEq, Prod.mk.injEq, and_iff_left rfl, qualifier?_eq_none, canSimplify_iff]
    constructor
    · rintro ⟨hlabel, hsimplify, hforce, hpost, hone | howned⟩
      · obtain ⟨s, rfl⟩ := List.length_eq_one_iff.1 hone
        obtain ⟨s', hs, hlabel⟩ := hlabels.1 hlabel
        rw [List.mem_singleton.1 hs] at hlabel
        exact ⟨hsimplify, hforce, hpost, s, List.mem_singleton_self s, hlabel, .inl rfl⟩
      · obtain ⟨s, hs, hlabel, howned⟩ := howned
        exact ⟨hsimplify, hforce, hpost, s, hs, hlabel, .inr howned⟩
    · rintro ⟨hsimplify, hforce, hpost, s, hs, hlabel, hcase⟩
      refine ⟨hlabels.2 ⟨s, hs, hlabel⟩, hsimplify, hforce, hpost, ?_⟩
      rcases hcase with rfl | howned
      · exact .inl rfl
      · exact .inr ⟨s, hs, hlabel, howned⟩
  · intro hlabel
    obtain ⟨q, hq⟩ : ∃ q, qualifier? σ.dialect σ.simplifyReferences
        ({ Scope.ofSources frames list projection with
          printedAs := printedAs, postProjection := post, forceQualified := force,
          windows := windows } :: outer) label name = some q := by
      refine Option.ne_none_iff_exists'.1 fun hnone => hlabel ?_
      obtain ⟨s, hs, hs'⟩ := hlabels.1 (qualifier?_eq_none.1 hnone).1
      exact List.mem_map.2 ⟨s, hs, hs'⟩
    exact ⟨q, by rw [hq]⟩

/-- A table that declares its columns, beside a common table expression. -/
def ordersAndRecent : List Source :=
  [.table ⟨none, "orders", "o", [⟨"id", none⟩, ⟨"total", none⟩]⟩, .table ⟨none, "recent", "r", []⟩]

/-- A state in which both are read, and the columns of the common table expression are known. -/
def readingBoth : Context :=
  { Context.start .positional with
    scopes := [Scope.ofSources [[("recent", some ["id", "day"])]] ordersAndRecent []]
    frames := [[("recent", some ["id", "day"])]] }

/-- Of the two sources only `o` has `total`; and a label that neither has is printed. -/
theorem unqualified_here :
    Compile.qualifier "o" "total" (.ofOptions .generic {}) readingBoth = .ok (none, readingBoth) ∧
    ∃ q, Compile.qualifier "x" "total" (.ofOptions .generic {}) readingBoth =
      .ok (some q, readingBoth) := by
  have hmain := fun label => unqualified_iff (.ofOptions .generic {}) readingBoth.frames
    ordersAndRecent [] [] false false [] [] readingBoth label "total" rfl rfl
  have horders : HasColumns readingBoth.frames
      (.table ⟨none, "orders", "o", [⟨"id", none⟩, ⟨"total", none⟩]⟩) ["id", "total"] :=
    .declared (by decide)
  have hrecent : HasColumns ([] ++ [("recent", some ["id", "day"])] :: [])
      (.table ⟨none, "recent", "r", []⟩) ["id", "day"] := .cte rfl nofun rfl
  constructor
  · refine (hmain "o").1.2 ⟨rfl, rfl, nofun, _, List.mem_cons_self, rfl, .inr ⟨?_, ?_⟩⟩
    · intro x hx
      rcases List.mem_cons.1 hx with rfl | hx
      · exact ⟨_, horders⟩
      · rw [List.mem_singleton.1 hx]
        exact ⟨_, hrecent⟩
    · refine ⟨[], _, _, rfl, horders, by decide, fun x hx columns hcolumns => ?_⟩
      rw [List.mem_singleton.1 hx] at hcolumns
      cases (knownColumns_eq_some _).2 hcolumns
      decide
  · exact (hmain "x").2 (by decide)

end QueryPlan
