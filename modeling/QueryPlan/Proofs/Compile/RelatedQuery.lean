import QueryPlan.Proofs.Compile.RelatedExpr

/-!
# Related queries

The pieces that write sources and queries, with one lemma of its name for each, as for expressions.
A statement leaves the states in which it is asked for twice: it goes behind its common table
expressions, one after the other, and from there into the scope of its clauses (`Interior`). It has
the marks of its common table expressions.
-/

namespace QueryPlan

variable {rows : List (List Expr)} {s : Statement} {list : List Source}

/-- The step of a statement that plans where its returned columns are written. -/
def Statement.planReturning (d : Dialect) : Statement → Compile (Option Returning)
  | .insert i => Compile.planReturning i.returning d.insertOrder .inserted
  | .update u => Compile.planReturning u.returning d.updateOrder .inserted
  | .delete c => Compile.planReturning c.returning d.deleteOrder .deleted
  | .select _ | .setOp _ => pure none

/-- A nested query that ends as JSON: it is no single value and no change, and the dialect folds
    queries by a clause and not by functions. -/
structure Setting.EndsAsJson (σ : Setting) (s : Statement) : Prop where
  shape : s.shape ≠ .value
  query : s.isMutation = false
  functions : σ.dialect.has .jsonFunctions = false
  clause : σ.dialect.selectOrder.contains .forJson = true

namespace StepRelation

variable {σ : Setting} {R : StepRelation σ} {k k' : States σ} {r r' : Renderer}
  {m n : Bool}

namespace Keep

/-! ## 1. Steps that ask for nothing -/

theorem tableName (t : Table) : R.Keep k (Compile.tableName t) (Compile.tableName t) := by
  unfold Compile.tableName
  refine (quote t.name).bind fun name => ?_
  cases t.schema with
  | none => exact .pure trivial
  | some schema => exact .map _ (quote schema)

theorem table (t : Table) : R.Keep k (Compile.table t) (Compile.table t) := by
  refine (tableName t).bind fun name => .ite (fun _ => .pure trivial) fun _ => ?_
  exact .map _ (quote t.label)

theorem checkRows (label : String) (columns : List String) (rows : List (List Expr)) :
    R.Keep k (Compile.checkRows label columns rows) (Compile.checkRows label columns rows) := by
  unfold Compile.checkRows
  refine guard (fun _ => .fault _) ?_
  cases rows.find? fun row => row.length != columns.length with
  | none => exact .pure trivial
  | some row => exact .fault _

theorem checkClauses (order : List Clause) (used : List (Clause × Bool)) :
    R.Keep k (Compile.checkClauses order used) (Compile.checkClauses order used) :=
  forM fun _ _ => .ite (fun _ => missing _) fun _ => .pure trivial

theorem forJson (json : Option Bool) :
    R.Keep k (Renderer.forJson json) (Renderer.forJson json) := by
  cases json with
  | none => exact .pure trivial
  | some single => exact .map _ (keyword _ _)

theorem jsonColumn (label : String) (p : Projection) :
    R.Keep k (Renderer.jsonColumn label p) (Renderer.jsonColumn label p) := by
  unfold Renderer.jsonColumn
  refine (quote p.label).bind fun column => ?_
  cases p.jsonKey? with
  | none => exact .pure trivial
  | some key => exact write _ key _

theorem jsonObject (projection : List Projection) (columns : List String) :
    R.Keep k (Renderer.jsonObject projection columns) (Renderer.jsonObject projection columns) := by
  refine bind (mapM fun _ _ => ?_) fun pairs => write _ _ _
  exact .known (fun _ _ => rfl) (write _ _ _)

theorem jsonRows (shape : Shape) (projection : List Projection) (columns : List String) :
    R.Keep k (Renderer.jsonRows shape projection columns)
      (Renderer.jsonRows shape projection columns) := by
  unfold Renderer.jsonRows
  split
  · exact write _ _ _
  · refine (jsonObject projection columns).bind fun object => ?_
    exact .ite (fun _ => .pure trivial) fun _ => write _ _ _

/-! ## 2. Steps around others -/

theorem inOrder {order : List Clause} {w w' : Clause → Bool → Compile (Option String)}
    (h : ∀ clause isFirst, R.Keep k (w clause isFirst) (w' clause isFirst)) :
    R.Keep k (Compile.inOrder order w) (Compile.inOrder order w') :=
  .map _ (mapM fun i _ => h i.1 i.2)

theorem headed (key : Keyword) {x x' : Compile String} (h : R.Keep k x x') :
    R.Keep k (Compile.headed key x) (Compile.headed key x') :=
  (keyword key []).bind fun _ => .map _ h

theorem placed (order : List Clause) (clause : Clause) {x x' : Compile (Option String)}
    (h : R.Keep k x x') :
    R.Keep k (Compile.placed order clause x) (Compile.placed order clause x') :=
  .ite (fun _ => h) fun _ => .pure trivial

end Keep

namespace On

/-! ## 3. Sources -/

theorem unionRows (columns : List String) (h : R.On k r r' (rows.flatMap exprPhrases)) :
    R.Keep k (r.unionRows columns rows) (r'.unionRows columns rows) := by
  refine .mapM fun i hi => ?_
  obtain ⟨row, index⟩ := i
  have hrow : R.On k r r' (exprPhrases row) := h.of_mem (List.fst_mem_of_mem_zipIdx hi)
  refine .map _ (.mapM fun j hj => ?_)
  obtain ⟨e, column⟩ := j
  exact .map _ (text (hrow.of_mem_map (f := id) (List.of_mem_zip hj).1))

theorem valuesTable (label : String) (columns : List String)
    (h : R.On k r r' (rows.flatMap exprPhrases)) :
    R.Keep k (r.valuesTable label columns rows) (r'.valuesTable label columns rows) := by
  refine Keep.bind (.mapM fun row hrow => ?_) fun texts => .known (fun _ _ => rfl) (.pure trivial)
  exact (list (h.of_mem hrow)).bind fun _ => Keep.keyword _ _

theorem values (label : String) (columns : List String) (h : R.On k r r' (rows.flatMap exprPhrases)) :
    R.Keep k (r.values label columns rows) (r'.values label columns rows) := by
  refine (Keep.checkRows label columns rows).bind fun _ => ?_
  refine (Keep.quote label).bind fun label => ?_
  refine Keep.bind (.mapM fun column _ => Keep.quote column) fun columns => ?_
  refine .known (fun _ _ => rfl) (.ite (fun _ => valuesTable label columns h) fun _ => ?_)
  exact .map _ (unionRows columns h)

theorem joined (kind : JoinKind) (source : String) {condition : Option Expr}
    (h : R.On k r r' (exprPhrases condition.toList)) :
    R.Keep k (r.joined kind source condition) (r'.joined kind source condition) := by
  refine Keep.bind ?_ fun params => Keep.write _ _ _
  cases condition with
  | none => exact .pure trivial
  | some condition => exact .map _ (text h.expr)

theorem source : (s : Source) → R.On k r r' s.phrases → R.Keep k (r.source s) (r'.source s)
  | .table t, _ => Keep.table t
  | .derived label _, h => h.statement.bind fun _ => .map _ (.quote label)
  | .values label columns _, h => values label columns h
  | .join kind inner _, h => (source inner h.left).bind fun text => joined kind text h.right

theorem sources (h : R.On k r r' (sourcePhrases list)) :
    R.Keep k (r.sources list) (r'.sources list) :=
  .map _ (.mapM fun s hs => source s (h.of_mem hs))

theorem joins (h : R.On k r r' (sourcePhrases list)) : R.Keep k (r.joins list) (r'.joins list) := by
  refine .map _ (.mapM fun s hs => ?_)
  have hsource := source s (h.of_mem hs)
  cases s with
  | join kind inner condition => exact hsource
  | _ => exact hsource.bind fun text => joined .cross text fun p hp => absurd hp List.not_mem_nil

/-- The sources in front of the first join, and those from there on. -/
theorem split (h : R.On k r r' (sourcePhrases list)) :
    R.On k r r' (sourcePhrases (splitSources list).1) ∧
      R.On k r r' (sourcePhrases (splitSources list).2) := by
  have hsub : ∀ {part : List Source}, part ⊆ list → R.On k r r' (sourcePhrases part) := by
    intro part hpart p hp
    obtain ⟨s, hs, hp⟩ := List.mem_flatMap.1 hp
    exact h.of_mem (hpart hs) p hp
  obtain ⟨hplain, hjoins⟩ := splitSources_subset list
  exact ⟨hsub hplain, hsub hjoins⟩

/-! ## 4. Common table expressions -/

theorem cte {c : Cte}
    (hnote : R.Rel false k k' (fun _ => True) (Compile.registerCte c.label c.columns?)
      (Compile.registerCte c.label c.columns?))
    (h : R.Rel m k' k' (fun _ => True) (r.statement c.statement) (r'.statement c.statement)) :
    R.Rel m k k' (fun _ => True) (r.cte c) (r'.cte c) := by
  refine (Keep.has .mutationCte).bind fun _ => Keep.guard (fun _ => Keep.missing _) ?_
  exact hnote.bind fun _ _ => h.follow fun body _ => .map _ (.quote c.label)

/-- A list of common table expressions leaves the compilation behind it. It is marked if the
    statement of one of them is. -/
theorem ctes {list : List Cte} {mark : Cte → Bool} (behind : List Cte → States σ)
    (hnote : ∀ before c, R.Rel false (behind before) (behind (before ++ [c])) (fun _ => True)
      (Compile.registerCte c.label c.columns?) (Compile.registerCte c.label c.columns?))
    (h : ∀ before c after, list = before ++ c :: after →
      R.Rel (mark c) (behind (before ++ [c])) (behind (before ++ [c])) (fun _ => True)
        (r.statement c.statement) (r'.statement c.statement)) :
    R.Rel (list.any mark) (behind []) (behind list) (fun _ => True) (r.ctes list)
      (r'.ctes list) := by
  -- by induction on what is left of the list, as each expression sees those in front of it
  have hitems : ∀ rest before, list = before ++ rest →
      R.Rel (rest.any mark) (behind before) (behind list) (fun _ => True) (rest.mapM r.cte)
        (rest.mapM r'.cte) := by
    intro rest
    induction rest with
    | nil =>
      intro before hlist
      rw [List.mapM_nil, List.mapM_nil, hlist, List.append_nil]
      exact .pure trivial
    | cons c rest ih =>
      intro before hlist
      rw [List.mapM_cons, List.mapM_cons, List.any_cons]
      refine (cte (hnote before c) (h before c rest hlist)).seq fun text _ => ?_
      refine (ih (before ++ [c]) (by rw [hlist]; simp)).follow fun texts _ => ?_
      exact .pure trivial
  cases list with
  | nil => exact .pure trivial
  | cons c rest =>
    refine (hitems (c :: rest) [] rfl).follow fun items _ => ?_
    exact .map _ (.keyword _ _)

/-! ## 5. Projections and orderings -/

theorem projected {p : Projection} (h : R.Keep k (r.expr p.expr) (r'.expr p.expr)) :
    R.Keep k (r.projected p) (r'.projected p) :=
  (text h).bind fun _ => .ite (fun _ => .pure trivial) fun _ => .map _ (.quote p.label)

theorem projection {list : List Projection} (h : R.On k r r' (projectionPhrases list)) :
    R.Keep k (r.projection list) (r'.projection list) :=
  .ite (fun _ => .pure trivial) fun _ => .map _ (.mapM fun _ hp => projected (h.of_mem_map hp))

theorem distinct (L : Interior σ s k k') {d : Option Distinct}
    (h : R.On (L.clauses .projected) r r' (distinctPhrases d)) :
    R.Keep (L.clauses .plain) (r.distinct d) (r'.distinct d) := by
  match d, h with
  | none, _ => exact .pure trivial
  | some .all, _ => exact .map _ (.keyword _ _)
  | some (.on es), h =>
    refine (Keep.has .distinctOn).bind fun _ => .ite (fun _ => ?_) fun _ => ?_
    · exact Keep.bind (L.postProjection (On.list h)) fun _ => .map _ (.keyword _ _)
    · exact (Keep.missing _).bind fun _ => .map _ (.keyword _ _)

theorem orderBy (L : Interior σ s k k') {items : List OrderBy}
    (h : R.On (L.clauses .projected) r r' (orderPhrases items)) :
    R.Keep (L.clauses .plain) (r.orderBy items) (r'.orderBy items) :=
  .ite (fun _ => .pure trivial) fun _ => Keep.headed _ (L.postProjection (ordering h))

theorem windows [Stable k] {list : List NamedWindow} (h : ∀ w ∈ list, R.On k r r' w.spec.phrases) :
    R.Keep k (r.windows list) (r'.windows list) := by
  refine Keep.bind (.mapM fun w hw => ?_) fun items => .map _ (.keyword _ _)
  exact (windowSpec (h w hw)).bind fun _ => .map _ (.quote w.name)

end On

/-! ## 6. Statements -/

/-- Renderers that are related on all that a statement asks for. The common table expressions and
    the step that plans returned columns may be marked. -/
structure Inside (R : StepRelation σ) (m n : Bool) {s : Statement} (L : Interior σ s k k')
    (r r' : Renderer) : Prop where
  ctes : R.Rel m L.front L.behind (fun _ => True) (r.ctes s.ctes) (r'.ctes s.ctes)
  plan : R.Rel n (L.clauses .plain) (L.clauses .plain) (fun _ => True)
    (s.planReturning σ.dialect) (s.planReturning σ.dialect)
  branches : ∀ q, s = .setOp q → ∀ b ∈ q.branches, R.Keep L.behind (r.statement b) (r'.statement b)
  clauses : ∀ mode, R.On (L.clauses mode) r r' s.clausePhrases
  definitions : σ.dialect.has .namedWindows = true → ∀ w ∈ s.windows,
    R.On (L.clauses .plain) r r' w.spec.phrases

namespace Inside

theorem selectClauses {q : Select} {L : Interior σ (.select q) k k'} (h : R.Inside m n L r r')
    (ctes : Option String) (json : Option Bool) :
    R.Keep (L.clauses .plain) (r.selectClauses q ctes json) (r'.selectClauses q ctes json) := by
  have hplain := h.clauses .plain
  have hpost := h.clauses .projected
  have hsources := hplain.left.left.left.left.right.split
  unfold Renderer.selectClauses
  refine .known (fun _ _ => rfl) ?_
  refine (Keep.has .top).bind fun top => ?_
  refine (Keep.paging _ _ _ _).bind fun paging => ?_
  refine .known (a := σ.dialect.has .namedWindows) (fun _ _ => rfl) ?_
  refine (Keep.checkClauses _ _).bind fun _ => Keep.inOrder fun clause isFirst => ?_
  cases clause with
  | select => exact .map _ (.keyword _ _)
  | distinct => exact On.distinct L hpost.left.left.left.left.left.left
  | projection => exact .map _ (On.projection hplain.left.left.left.left.left.right)
  | sources => exact .ite (fun _ => .pure trivial) fun _ => Keep.headed _ (On.sources hsources.1)
  | joins => exact .ite (fun _ => .pure trivial) fun _ => .map _ (On.joins hsources.2)
  | filter =>
    exact .ite (fun _ => .pure trivial) fun _ =>
      Keep.headed _ (On.predicates hplain.left.left.left.right)
  | groupBy =>
    exact .ite (fun _ => .pure trivial) fun _ =>
      Keep.headed _ (L.postProjection (On.list hpost.left.left.right))
  | having =>
    have hhaving := hpost.left.right
    cases he : q.having with
    | none => exact .pure trivial
    | some e =>
      rw [he] at hhaving
      exact Keep.headed _ (L.postProjection (On.text hhaving.expr))
  | windows =>
    refine .ite (fun hnamed => ?_) fun _ => .pure trivial
    exact On.windows (h.definitions (Bool.and_eq_true_iff.1 hnamed).2)
  | orderBy => exact On.orderBy L hpost.right
  | forJson => exact Keep.forJson json
  | _ => exact .pure trivial

theorem select {q : Select} {L : Interior σ (.select q) k k'} (h : R.Inside m n L r r') :
    R.Rel (m || n) (fun c => L.front { c with forJson := none }) L.behind (fun _ => True)
      (r.select q) (r'.select q) := by
  refine Rel.takeForJson.bind fun json _ => h.ctes.seq fun ctes _ => ?_
  exact .scopeOf fun d hd => L.inScope hd (h.plan.follow fun _ _ => h.selectClauses ctes json)

theorem branch [Stable k] (h : R.Keep k (r.statement s) (r'.statement s)) :
    R.Keep k (r.branch s) (r'.branch s) := by
  refine h.bind fun text => .ite (fun _ => .pure trivial) fun _ => ?_
  refine Keep.freshBranchTable.bind fun label => ?_
  refine (Keep.keyword _ _).bind fun select => ?_
  exact (Keep.keyword _ _).bind fun sources => .map _ (.quote label)

theorem setOperationTail {q : SetOperation} {L : Interior σ (.setOp q) k k'}
    (h : R.Inside m n L r r') (json : Option Bool) :
    R.Keep (L.clauses .plain) (r.setOperationTail q json) (r'.setOperationTail q json) := by
  refine .known (fun _ _ => rfl) ?_
  refine (Keep.paging _ _ _ _).bind fun paging => ?_
  refine (Keep.checkClauses _ _).bind fun _ => ?_
  refine (Keep.placed _ _ (On.orderBy L (h.clauses .projected))).bind fun orderPart => ?_
  refine (Keep.placed _ _ (.pure trivial)).bind fun pagingPart => ?_
  exact .map _ (Keep.placed _ _ (Keep.forJson json))

theorem setOperation {q : SetOperation} {L : Interior σ (.setOp q) k k'} (h : R.Inside m n L r r') :
    R.Rel (m || n) (fun c => L.front { c with forJson := none }) L.behind (fun _ => True)
      (r.setOperation q) (r'.setOperation q) := by
  refine Rel.takeForJson.bind fun json _ => h.ctes.seq fun ctes _ => ?_
  refine Keep.bind (.forM fun i _ => .ite (fun _ => .fault _) fun _ => .pure trivial) fun _ => ?_
  refine (branch (h.branches q rfl q.first List.mem_cons_self)).bind fun first => ?_
  refine Keep.bind (.mapM fun i hi => ?_) fun rest => ?_
  · have hmem : i.2 ∈ q.branches := List.mem_cons_of_mem _ (List.mem_map_of_mem hi)
    exact (Keep.write _ _ _).bind fun word => .map _ (branch (h.branches q rfl i.2 hmem))
  · refine .scopeOf fun d hd => ?_
    have htail := h.plan.follow fun _ _ => h.setOperationTail json
    exact (L.inScope hd htail).follow fun _ _ => .pure trivial

end Inside

/-! ## 7. Nested queries -/

namespace On

variable [Stable k]

theorem jsonFunctions {shape : Shape}
    (h : R.Keep k (r.statement (limitToFirst shape s)) (r'.statement (limitToFirst shape s))) :
    R.Keep k (r.jsonFunctions s shape) (r'.jsonFunctions s shape) := by
  refine h.bind fun inner => Keep.freshJsonTable.bind fun label => ?_
  refine (Keep.quote label).bind fun label => ?_
  refine Keep.bind (.mapM fun p _ => Keep.jsonColumn label p) fun columns => ?_
  exact .map _ (Keep.jsonRows _ _ _)

/-- A nested query, whether it is handed out to be ended as JSON or not. -/
theorem query (hplain : ¬σ.EndsAsJson s → R.On k r r' (Expr.query s).phrases)
    (hfolded : σ.EndsAsJson s →
      R.Keep k (Compile.inForJson (decide (s.shape = .first)) (r.statement (limitToFirst s.shape s)))
        (Compile.inForJson (decide (s.shape = .first)) (r'.statement (limitToFirst s.shape s)))) :
    R.Keep k (r.query s) (r'.query s) := by
  refine .ite (fun hvalue => ?_) fun hshape => Keep.guard (fun _ => .fault _) ?_
  · exact .map _ (hplain fun h => h.shape hvalue).statement
  refine .known (fun _ _ => rfl) (.ite (fun hfunctions => ?_) fun hfunctions => ?_)
  · refine jsonFunctions (hplain fun h => ?_).tail.statement
    exact absurd hfunctions (by rw [h.functions]; exact Bool.false_ne_true)
  refine .known (fun _ _ => rfl) (.ite (fun hclause => ?_) fun hclause => ?_)
  · unfold Renderer.jsonClause
    refine .ite (fun _ => .fault _) fun hquery => ?_
    have hends : σ.EndsAsJson s :=
      ⟨hshape, Bool.eq_false_iff.2 hquery, Bool.eq_false_iff.2 hfunctions, hclause⟩
    exact (hfolded hends).bind fun inner => .map _ (.write _ _ _)
  · exact (Keep.missing _).bind fun _ => .map _ (hplain fun h => hclause h.clause).statement

end On

end StepRelation

end QueryPlan
