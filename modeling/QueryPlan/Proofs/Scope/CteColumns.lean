import Mathlib.Data.List.Induction
import QueryPlan.Compile.Output
import QueryPlan.Proofs.Compile.Throughout

/-!
# Tables and common table expressions

A table that declares no columns may be a common table expression. The compiler looks it up by its
name among the common table expressions that it has noted, innermost list first, and takes its
columns from there.

By the rules of SQL a name denotes a common table expression if it has no schema, and if the
expression is visible: declared by a statement around the table, or earlier in the same list, or
around the table itself and recursive (`denoted?`). The compiler notes an expression before it writes
its body, recursive or not, and does not look at the schema (`noted?`). `tables_take_noted_columns`
says what follows for every scope that is opened along a compilation.
-/

namespace QueryPlan

/-! ## 1. Names of common table expressions -/

/-- The last common table expression of a name in a list. -/
def lastOf (list : List Cte) (name : String) : Option Cte :=
  list.reverse.find? fun c => c.label == name

/-- The common table expression that the compiler has noted under a name. -/
def noted? (levels : List Level) (name : String) : Option Cte :=
  levels.findSome? fun l => lastOf l.noted name

/-- The common table expressions of a list that are visible from a place by the rules of SQL. -/
def Level.visible (l : Level) : List Cte :=
  l.before ++ (l.inside.filter Cte.recursive).toList

/-- The common table expression that a table denotes by the rules of SQL. -/
def denoted? (levels : List Level) (t : Table) : Option Cte :=
  if t.schema = none then levels.findSome? fun l => lastOf l.visible t.name else none

/-- A table in the body of a common table expression of its own name that is not recursive. -/
def InOwnBody (levels : List Level) (t : Table) : Prop :=
  ∃ l ∈ levels, ∃ c ∈ l.inside, c.label = t.name ∧ c.recursive = false

theorem lastOf_append (list : List Cte) (c : Cte) (name : String) :
    lastOf (list ++ [c]) name = if c.label = name then some c else lastOf list name := by
  unfold lastOf
  rw [List.reverse_append, List.reverse_singleton, List.singleton_append, List.find?_cons]
  by_cases h : c.label = name
  · rw [if_pos h, beq_iff_eq.2 h]
  · rw [if_neg h, beq_false_of_ne h]

/-- A frame has the columns of the last common table expression of a name. -/
theorem get?_frame (l : Level) (name : String) :
    Fields.get? l.frame name = (lastOf l.noted name).map Cte.columns? := by
  unfold Level.frame
  generalize l.noted = list
  induction list using List.reverseRecOn with
  | nil => rfl
  | append_singleton list c ih =>
    rw [List.foldl_append, List.foldl_cons, List.foldl_nil, Frame.note, Fields.get?_insert, ih,
      lastOf_append]
    by_cases h : c.label = name
    · rw [if_pos h, if_pos h.symm]
      rfl
    · rw [if_neg h, if_neg fun h' => h h'.symm]

/-- What the compiler finds under a name are the columns of what it has noted. -/
theorem findCte_frames (levels : List Level) (name : String) :
    findCte (levels.map Level.frame) name = (noted? levels name).bind Cte.columns? := by
  unfold findCte noted?
  induction levels with
  | nil => rfl
  | cons l rest ih =>
    rw [List.map_cons, List.findSome?_cons, List.findSome?_cons, get?_frame]
    cases lastOf l.noted name with
    | none => exact ih
    | some c => rfl

theorem label_of_lastOf {list : List Cte} {name : String} {c : Cte} (h : lastOf list name = some c) :
    c ∈ list ∧ c.label = name := by
  refine ⟨List.mem_reverse.1 (List.mem_of_find?_eq_some h), ?_⟩
  simpa using List.find?_some h

/-- What is noted has the name, and it is declared in front of the table or around it. -/
theorem declared_of_noted? {levels : List Level} {name : String} {c : Cte}
    (h : noted? levels name = some c) :
    c.label = name ∧ ∃ l ∈ levels, c ∈ l.before ∨ l.inside = some c := by
  obtain ⟨l, hl, hlast⟩ := List.exists_of_findSome?_eq_some h
  obtain ⟨hmem, hlabel⟩ := label_of_lastOf hlast
  refine ⟨hlabel, l, hl, ?_⟩
  rcases List.mem_append.1 hmem with hmem | hmem
  · exact .inl hmem
  · exact .inr (Option.mem_toList.1 hmem)

/-- What a table denotes by the rules of SQL is noted, unless the table is in the body of a common
    table expression of its name that is not recursive. -/
theorem noted?_eq_denoted? {levels : List Level} {t : Table} (hschema : t.schema = none)
    (hbody : ¬InOwnBody levels t) : noted? levels t.name = denoted? levels t := by
  have hlevel : ∀ l ∈ levels, lastOf l.noted t.name = lastOf l.visible t.name := by
    intro l hl
    unfold Level.noted Level.visible
    cases hinside : l.inside with
    | none => rfl
    | some c =>
      cases hrecursive : c.recursive with
      | true => simp [Option.filter, hrecursive]
      | false =>
        have hlabel : c.label ≠ t.name := fun h => hbody ⟨l, hl, c, hinside, h, hrecursive⟩
        simp [Option.filter, hrecursive, lastOf_append, hlabel]
  rw [denoted?, if_pos hschema, noted?]
  induction levels with
  | nil => rfl
  | cons l rest ih =>
    rw [List.findSome?_cons, List.findSome?_cons, hlevel l List.mem_cons_self]
    cases lastOf l.visible t.name with
    | some c => rfl
    | none =>
      refine ih (fun h => hbody ?_) fun l hl => hlevel l (List.mem_cons_of_mem _ hl)
      obtain ⟨l, hl, h⟩ := h
      exact ⟨l, List.mem_cons_of_mem _ hl, h⟩

/-! ## 2. The columns of tables in a scope -/

/-- The table that a source joins. -/
def Source.joinedTable? : Source → Option Table
  | .join _ (.table t) _ => some t
  | .join _ s _ => s.joinedTable?
  | _ => none

/-- A source whose columns are not known keeps the columns of the whole scope unknown. -/
theorem allKnown_eq_false {d : Dialect} {o : Opened} {s : Source}
    (hs : s ∈ o.statement.scopeSources) (h : knownColumns o.frames s = none) :
    (o.scope d).allKnown = false := by
  have hmem : (s.label, knownColumns o.frames s) ∈ (o.scope d).sources :=
    List.mem_map_of_mem hs
  rw [h] at hmem
  exact List.all_eq_false.2 ⟨_, hmem, nofun⟩

/-- What a table that declares no columns is taken for in a scope. -/
structure TakesNoted (d : Dialect) (o : Opened) (t : Table) : Prop where
  /-- It has the columns of what is noted under its name, whether it has a schema or not. -/
  columns : (t.label, (noted? o.levels t.name).bind Cte.columns?) ∈ (o.scope d).sources
  /-- Without such columns the scope is not fully known. -/
  unknown : (noted? o.levels t.name).bind Cte.columns? = none → (o.scope d).allKnown = false
  /-- What is noted is declared by a statement around the table, in front of it or around it. -/
  declared : ∀ c, noted? o.levels t.name = some c →
    c.label = t.name ∧ ∃ l ∈ o.levels, c ∈ l.before ∨ l.inside = some c
  /-- It is what the table denotes, if the table has no schema and is not in the body of a common
      table expression of its own name that is not recursive. -/
  denoted : t.schema = none → ¬InOwnBody o.levels t →
    noted? o.levels t.name = denoted? o.levels t

theorem takesNoted {d : Dialect} {o : Opened} {t : Table}
    (ht : .table t ∈ o.statement.scopeSources) (hcolumns : t.columns = []) :
    TakesNoted d o t := by
  have hknown : knownColumns o.frames (.table t) = (noted? o.levels t.name).bind Cte.columns? := by
    rw [knownColumns, hcolumns, ← findCte_frames]
    rfl
  refine ⟨?_, fun hnone => ?_, fun c hc => declared_of_noted? hc, noted?_eq_denoted?⟩
  · rw [← hknown]
    exact List.mem_map_of_mem (f := fun s : Source => (s.label, knownColumns o.frames s)) ht
  · rw [← hknown] at hnone
    exact allKnown_eq_false ht hnone

/-- A joined table is not looked up at all. -/
theorem knownColumns_joined (frames : List Frame) {t : Table} (ht : t.columns = []) :
    (s : Source) → s.joinedTable? = some t → knownColumns frames s = none
  | .join _ (.table u) _, h => by
    cases h
    simp [knownColumns, Source.exposedColumns?, ht]
  | .join _ (.join kind s condition) _, h =>
    knownColumns_joined frames ht (.join kind s condition) h

/-! ## 3. Throughout a compilation -/

/-- The statements whose scopes are open at a phrase, with the one that the phrase is about to
    open. -/
def Phrase.openedAt (p : Phrase) (k : Place) : List Opened :=
  match p with
  | .expr _ => k.opened
  | .statement s => ⟨s, (k.behind s.ctes).levels, false, false⟩ :: k.opened

/-- **What a table without columns is taken for.** Throughout a compilation, the state is that of a
    place, and in every scope that is open there or about to be opened:

    * a table that declares no columns has the columns of the common table expression that is noted
      under its name, with or without a schema;
    * if it has no schema and is not in the body of a common table expression of its own name that
      is not recursive, this is the one that it denotes by the rules of SQL;
    * in all other cases, and if it is joined, its columns are unknown, and so is the scope. -/
theorem tables_take_noted_columns (s : Statement) (d : Dialect) (o : Options) :
    s.Throughout (.ofOptions d o) (.start d.placeholder) fun p c =>
      ∃ k, Reaches (.ofOptions d o) s p k ∧ k.Fits d c ∧ ∀ x ∈ p.openedAt k,
        (∀ t, .table t ∈ x.statement.scopeSources → t.columns = [] → TakesNoted d x t) ∧
        ∀ source ∈ x.statement.scopeSources, ∀ t, source.joinedTable? = some t → t.columns = [] →
          (source.label, none) ∈ (x.scope d).sources ∧ (x.scope d).allKnown = false := by
  refine s.throughout_of_reaches (fun p k c hp hc => ⟨k, hp, hc, fun x _ => ⟨?_, ?_⟩⟩) _
  · exact fun t ht hcolumns => takesNoted ht hcolumns
  · intro source hsource t ht hcolumns
    have hknown := knownColumns_joined x.frames hcolumns source ht
    refine ⟨?_, allKnown_eq_false hsource hknown⟩
    rw [← hknown]
    exact List.mem_map_of_mem (f := fun s : Source => (s.label, knownColumns x.frames s)) hsource

/-- A query that reads a table of another schema which has the name of a common table expression:
    the table gets its columns, and the reference to one of them loses its qualifier. -/
example :
    (compileWith
      (.select { Select.empty with
        ctes := [⟨"recent", .select { Select.empty with
          projection := [⟨"total", .field "o" "total" none⟩]
          sources := [.table ⟨none, "orders", "o", []⟩] }, false⟩]
        projection := [⟨"total", .field "recent" "total" none⟩]
        sources := [.table ⟨some "main", "recent", "recent", []⟩,
          .table ⟨none, "users", "users", [⟨"id", none⟩]⟩] })
      .generic {}).map Compiled.sql =
    .ok "WITH recent AS (SELECT total FROM orders AS o) SELECT total FROM main.recent, users" := by
  decide +kernel

end QueryPlan
