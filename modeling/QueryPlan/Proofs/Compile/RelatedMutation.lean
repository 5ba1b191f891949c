import QueryPlan.Proofs.Compile.RelatedQuery

/-!
# Related changes and statements

The pieces that write inserts, updates and deletes, with one lemma of its name for each. Plans that
are made for a change (its conflict clause, its further sources) bring nothing to write that is not
among the phrases of its clauses. A change takes over the mark of the step that plans its returned
columns.

At the end the pieces are put together: two renderers are related one step up on a phrase if they
are on all that it asks for in the places where it does (`expr_deeper`, `statement_deeper`).
-/

namespace QueryPlan

variable {s : Statement} {i : Insert}

/-! ## 1. Plans -/

/-- The assignments of a conflict clause. -/
def Upsert.assignments : Upsert → List Assignment
  | .onConflict _ assignments => assignments.getD []
  | .onDuplicateKey assignments => assignments

/-- What the clauses of an update or delete can be made of. -/
def changePhrases (sources : List Source) (predicates : List Expr) : List Phrase :=
  existsPhrase sources predicates :: sourcePhrases sources ++ exprPhrases predicates

/-- Detaching a join brings nothing new to write. -/
theorem detached_subset (sources : List Source) :
    sourcePhrases (detached sources).1 ⊆ sourcePhrases sources ∧
      exprPhrases (detached sources).2 ⊆ sourcePhrases sources := by
  match sources with
  | .join kind source condition :: rest =>
    constructor
    · intro p hp
      rcases List.mem_append.1 hp with hp | hp
      · exact List.mem_append_left _ (List.mem_append_left _ hp)
      · exact List.mem_append_right _ hp
    · intro p hp
      exact List.mem_append_left _ (List.mem_append_right _ hp)
  | [] | .table _ :: _ | .derived _ _ :: _ | .values _ _ _ :: _ =>
    exact ⟨List.Subset.refl _, List.nil_subset _⟩

namespace StepRelation

variable {σ : Setting} {R : StepRelation σ} {k k' : States σ} {r r' : Renderer} {m n : Bool}

namespace Keep

theorem planSources (sources : List Source) (feature : Feature) (clause : Clause)
    (order : List Clause) :
    R.Keep k (Compile.planSources sources feature clause order)
      (Compile.planSources sources feature clause order) := by
  unfold Compile.planSources
  refine .ite (fun _ => .pure trivial) fun _ => (has feature).bind fun _ => ?_
  refine .ite (fun _ => .pure trivial) fun _ => (has .multiTableMutation).bind fun _ => ?_
  exact .ite (fun _ => .pure trivial) fun _ => .pure trivial

/-- Where returned columns are written, in a relation that does not mark it. -/
theorem planReturning [Stable k] (hnote : ∀ c : Context, R.Change c { c with droppedReturning := true })
    (returning : List Projection) (order : List Clause) (pseudo : Keyword) :
    R.Keep k (Compile.planReturning returning order pseudo)
      (Compile.planReturning returning order pseudo) := by
  unfold Compile.planReturning
  refine .ite (fun _ => .pure trivial) fun _ => (has .returning).bind fun _ => ?_
  refine .ite (fun _ => .pure trivial) fun _ => .ite (fun _ => .pure trivial) fun _ => ?_
  exact (missing _).bind fun _ =>
    bind (.changing (fun _ => Stable.droppedReturning) hnote) fun _ => .pure trivial

/-- The plan of a statement for its returned columns. -/
theorem planned [Stable k] (hnote : ∀ c : Context, R.Change c { c with droppedReturning := true })
    (s : Statement) : R.Keep k (s.planReturning σ.dialect) (s.planReturning σ.dialect) := by
  cases s with
  | select q | setOp q => exact .pure trivial
  | insert i | update u | delete d => exact planReturning hnote _ _ _

theorem columnList (columns : List String) :
    R.Keep k (Compile.columnList columns) (Compile.columnList columns) :=
  .ite (fun _ => .pure trivial) fun _ => .map _ (mapM fun column _ => quote column)

theorem insertPriority (priority : Option InsertPriority) :
    R.Keep k (Compile.insertPriority priority) (Compile.insertPriority priority) := by
  cases priority with
  | none => exact .pure trivial
  | some priority =>
    refine (has .insertPriority).bind fun _ => .ite (fun _ => .map _ (keyword _ _)) fun _ => ?_
    exact (missing _).bind fun _ => .pure trivial

theorem insertModifiers (priority : List String) (ignore : Bool) :
    R.Keep k (Compile.insertModifiers priority ignore) (Compile.insertModifiers priority ignore) :=
  .map _ (.ite (fun _ => .map _ (keyword _ _)) fun _ => .pure trivial)

end Keep

namespace Rel

theorem planIgnore (ignore : Bool) :
    R.Rel false k k (fun x => ∀ u ∈ x.2, u.assignments = []) (Compile.planIgnore ignore)
      (Compile.planIgnore ignore) := by
  unfold Compile.planIgnore
  have hnone : ∀ u ∈ (none : Option Upsert), u.assignments = [] := fun _ hu => nomatch hu
  refine (Keep.has .onConflict).bind fun _ => (Keep.has .insertIgnore).bind fun _ => ?_
  refine .ite (fun _ => .pure hnone) fun _ => .ite (fun _ => .pure hnone) fun _ => ?_
  refine .ite (fun _ => .pure fun u hu => ?_) fun _ => (Keep.missing _).bind fun _ => .pure hnone
  cases hu
  rfl

/-- A conflict clause has no assignments but those of the insert. -/
theorem planConflict (i : Insert) :
    R.Rel false k k (fun x => ∀ u ∈ x.2, assignmentPhrases u.assignments ⊆ conflictPhrases i.onConflict)
      (Compile.planConflict i) (Compile.planConflict i) := by
  unfold Compile.planConflict
  refine (Keep.has .onConflict).bind fun _ => (Keep.has .insertIgnore).bind fun _ => ?_
  refine (planIgnore i.ignore).bind fun ignoring hignoring => ?_
  have hi : ∀ u ∈ ignoring.2, assignmentPhrases u.assignments ⊆ conflictPhrases i.onConflict := by
    intro u hu
    rw [hignoring u hu]
    exact List.nil_subset _
  match i.onConflict, hi with
  | none, hi => exact .pure hi
  | some ⟨target, .doNothing⟩, hi =>
    refine .ite (fun _ => .pure fun u hu => ?_) fun _ => ?_
    · cases hu
      exact List.nil_subset _
    · exact .ite (fun _ => .pure hi) fun _ => (Keep.missing _).bind fun _ => .pure hi
  | some ⟨target, .doUpdate list⟩, hi =>
    refine .ite (fun _ => .pure fun u hu => ?_) fun _ => (Keep.has .upsertOnDuplicate).bind fun _ => ?_
    · cases hu
      exact List.Subset.refl _
    · refine .ite (fun _ => .pure fun u hu => ?_) fun _ => (Keep.missing _).bind fun _ => .pure hi
      cases hu
      exact List.Subset.refl _

/-- A sub-query is made of the sources without a join in front. -/
theorem detachJoin (sources : List Source) (strategy : SourceStrategy) :
    R.Rel false k k (fun x => x = detached sources ∨ strategy ≠ .subquery ∧ x = (sources, []))
      (Compile.detachJoin sources strategy) (Compile.detachJoin sources strategy) := by
  unfold Compile.detachJoin
  split
  · exact .pure (.inr ⟨nofun, rfl⟩)
  · exact .pure (.inr ⟨nofun, rfl⟩)
  · exact Keep.guard (fun _ => Keep.missing _) (.pure (.inl rfl))
  · next hnone hmulti hjoin =>
    refine .pure (.inl ?_)
    match sources, hjoin with
    | .join kind source condition :: rest, hjoin => exact absurd rfl (hjoin kind source condition rest)
    | [], _ | .table _ :: _, _ | .derived _ _ :: _, _ | .values _ _ _ :: _, _ => rfl

end Rel

theorem Rel.changeParts (strategy : SourceStrategy) (sources : List Source)
    (predicates : List Expr) :
    R.Rel false k k (fun x => sourcePhrases x.1 ⊆ changePhrases sources predicates ∧
        exprPhrases x.2 ⊆ changePhrases sources predicates)
      (Renderer.changeParts strategy sources predicates)
      (Renderer.changeParts strategy sources predicates) := by
  have hsources : sourcePhrases sources ⊆ changePhrases sources predicates := fun p hp =>
    List.mem_append_left _ (List.mem_cons_of_mem _ hp)
  have hpredicates : exprPhrases predicates ⊆ changePhrases sources predicates := fun p hp =>
    List.mem_append_right _ hp
  have hdetached := detached_subset sources
  refine (detachJoin sources strategy).bind fun x hx => .ite (fun hsub => .pure ?_) fun _ => .pure ?_
  · rcases hx with rfl | ⟨hne, _⟩
    · refine ⟨fun p hp => hsources (hdetached.1 hp), fun p hp => ?_⟩
      rw [List.mem_singleton.1 hp]
      exact List.mem_append_left _ List.mem_cons_self
    · exact absurd hsub hne
  · have hx : sourcePhrases x.1 ⊆ sourcePhrases sources ∧ exprPhrases x.2 ⊆ sourcePhrases sources := by
      rcases hx with rfl | ⟨_, rfl⟩
      · exact hdetached
      · exact ⟨List.Subset.refl _, List.nil_subset _⟩
    refine ⟨fun p hp => hsources (hx.1 hp), fun p hp => ?_⟩
    rw [exprPhrases, List.map_append] at hp
    rcases List.mem_append.1 hp with hp | hp
    · exact hsources (hx.2 hp)
    · exact hpredicates hp

/-! ## 2. Clauses -/

namespace On

theorem mono {ps qs : List Phrase} (h : R.On k r r' qs) (hs : ps ⊆ qs) : R.On k r r' ps :=
  fun p hp => h p (hs hp)

theorem assignments {list : List Assignment} (h : R.On k r r' (assignmentPhrases list))
    (target : Option String) : R.Keep k (r.assignments list target) (r'.assignments list target) :=
  .map _ (.mapM fun a ha => (Keep.quote a.column).bind fun _ => .map _ (text (h.of_mem_map ha)))

theorem sourceClause (key : Keyword) {list : List Source}
    (h : R.On k r r' (sourcePhrases list)) :
    R.Keep k (r.sourceClause key list) (r'.sourceClause key list) := by
  refine .ite (fun _ => .pure trivial) fun _ => (Keep.keyword key []).bind fun word => ?_
  refine (sources h.split.1).bind fun text => .ite (fun _ => .pure trivial) fun _ => ?_
  exact .map _ (joins h.split.2)

theorem filter {es : List Expr} (h : R.On k r r' (exprPhrases es)) :
    R.Keep k (r.filter es) (r'.filter es) :=
  .ite (fun _ => .pure trivial) fun _ => Keep.headed _ (predicates h)

theorem returning (L : Interior σ s k k') (clause : Clause) (placement : Option Returning)
    (target : Table) {list : List Projection}
    (h : ∀ mode, R.On (L.clauses mode) r r' (projectionPhrases list)) :
    R.Keep (L.clauses .plain) (r.returning clause placement list target)
      (r'.returning clause placement list target) := by
  unfold Renderer.returning
  split
  · exact Keep.headed _ (projection (h .plain))
  · refine (Keep.keyword _ _).bind fun pseudo => Keep.headed _ (L.inOutput ?_)
    exact projection (h .output)
  · exact .pure trivial

theorem insertSource (h : R.On k r r' i.source.phrases) :
    R.Keep k (r.insertSource i) (r'.insertSource i) := by
  unfold Renderer.insertSource
  match i.source, h with
  | .query s, h => exact h.statement
  | .defaultValues, _ => exact Keep.keyword _ _
  | .values [], _ => exact .fault _
  | .values (first :: rest), h =>
    refine Keep.bind (.mapM fun row hrow => ?_) fun texts => .map _ (.keyword _ _)
    exact Keep.guard (fun _ => .fault _) (.map _ (list (h.of_mem hrow)))

theorem upsert (L : Interior σ s k k') {u : Upsert}
    (h : ∀ mode, R.On (L.clauses mode) r r' (assignmentPhrases u.assignments)) :
    R.Keep (L.clauses .plain) (r.upsert u) (r'.upsert u) := by
  match u, h with
  | .onDuplicateKey list, h =>
    exact ((h .plain).assignments none).bind fun list => Keep.keyword _ _
  | .onConflict target none, _ =>
    refine (Keep.columnList target).bind fun target => ?_
    exact Keep.bind (.pure trivial) fun action => Keep.keyword _ _
  | .onConflict target (some list), h =>
    refine (Keep.columnList target).bind fun target => ?_
    refine Keep.bind (.map _ (L.forceQualified ?_)) fun action => Keep.keyword _ _
    exact (h .qualified).assignments none

theorem joinedTarget (table : String) (strategy : SourceStrategy) {list : List Source}
    (h : R.On k r r' (sourcePhrases list)) :
    R.Keep k (r.joinedTarget table strategy list) (r'.joinedTarget table strategy list) :=
  .ite (fun _ => .map _ (joins h)) fun _ => .pure trivial

end On

/-! ## 3. Statements -/

/-- The scope of a change. -/
theorem Rel.targetScope {β : Type} {Q : β → Prop} {f f' : Scope → Compile β} {t : Table}
    {sources : List Source} {returning : List Projection} (ht : s.target? = some t)
    (hsources : s.scopeSources = .table t :: sources) (hreturning : s.scopeProjection = returning)
    (hwindows : s.windows = [])
    (hf : ∀ d : Context, k d → R.Rel m (fun c => c = d) k' Q (f (s.scope σ.dialect d.frames))
      (f' (s.scope σ.dialect d.frames))) :
    R.Rel m k k' Q (Compile.targetScope t sources returning >>= f)
      (Compile.targetScope t sources returning >>= f') := by
  intro d hd
  have hname : Compile.tableName t σ d = .ok (σ.dialect.tableName t, d) := by
    unfold Compile.tableName Dialect.tableName
    cases t.schema <;> rfl
  have hscope : Compile.targetScope t sources returning σ d =
      .ok (s.scope σ.dialect d.frames, d) := by
    unfold Compile.targetScope
    rw [Compile.bind_run hname, Statement.scope, ht, hsources, hreturning, hwindows]
    rfl
  rw [Compile.bind_run hscope, Compile.bind_run hscope]
  exact hf d hd d rfl

namespace Inside

theorem insertClauses {L : Interior σ (.insert i) k k'} (h : R.Inside m n L r r')
    (ctes : Option String) :
    R.Rel n (L.clauses .plain) (L.clauses .plain) (fun _ => True) (r.insertClauses i ctes)
      (r'.insertClauses i ctes) := by
  unfold Renderer.insertClauses
  refine .known (fun _ _ => rfl) ?_
  refine (Keep.insertPriority _).bind fun priority => ?_
  refine (Rel.planConflict i).bind fun plan hplan => ?_
  refine (Keep.insertModifiers _ _).bind fun modifiers => ?_
  refine h.plan.follow fun returning _ => ?_
  refine (Keep.checkClauses _ _).bind fun _ => Keep.inOrder fun clause isFirst => ?_
  cases clause with
  | ctes => exact .pure trivial
  | insert =>
    refine (Keep.columnList _).bind fun columns => (Keep.tableName _).bind fun table => ?_
    exact .map _ (.keyword _ _)
  | values => exact .map _ (On.insertSource (h.clauses .plain).left.left)
  | upsert =>
    obtain ⟨ignore, u⟩ := plan
    cases u with
    | none => exact .pure trivial
    | some u => exact .map _ (On.upsert L fun mode => (h.clauses mode).left.right.mono (hplan u rfl))
  | _ => exact On.returning L _ _ _ fun mode => (h.clauses mode).right

theorem insert {L : Interior σ (.insert i) k k'} (h : R.Inside m n L r r') :
    R.Rel (m || n) L.front L.behind (fun _ => True) (r.insert i) (r'.insert i) := by
  refine h.ctes.seq fun ctes _ => .targetScope (s := .insert i) rfl rfl rfl rfl fun d hd => ?_
  exact L.inScope hd (h.insertClauses ctes)

theorem updateClauses {u : Update} {L : Interior σ (.update u) k k'} (h : R.Inside m n L r r')
    (ctes : Option String) (strategy : SourceStrategy) :
    R.Rel n (L.clauses .plain) (L.clauses .plain) (fun _ => True)
      (r.updateClauses u ctes strategy) (r'.updateClauses u ctes strategy) := by
  have hplain := h.clauses .plain
  have hchange : changePhrases u.sources u.predicates ⊆ (Statement.update u).clausePhrases := by
    intro p hp
    simp only [changePhrases, Statement.clausePhrases, List.mem_cons, List.mem_append] at hp ⊢
    tauto
  unfold Renderer.updateClauses
  refine .known (fun _ _ => rfl) ?_
  refine (Rel.changeParts strategy u.sources u.predicates).bind fun parts hparts => ?_
  refine h.plan.follow fun returning _ => ?_
  refine (Keep.paging _ _ _ _).bind fun paging => ?_
  refine (Keep.checkClauses _ _).bind fun _ => (Keep.tableName _).bind fun table => ?_
  have hsources := hplain.mono fun p hp => hchange (hparts.1 hp)
  refine Keep.inOrder fun clause isFirst => ?_
  cases clause with
  | ctes | paging => exact .pure trivial
  | update => exact (On.joinedTarget _ _ hsources).bind fun target => .map _ (.keyword _ _)
  | assign =>
    exact (hplain.left.left.left.left.tail.assignments _).bind fun list => .map _ (.keyword _ _)
  | sources => exact .ite (fun _ => On.sourceClause _ hsources) fun _ => .pure trivial
  | filter => exact On.filter (hplain.mono fun p hp => hchange (hparts.2 hp))
  | orderBy => exact On.orderBy L (h.clauses .projected).left.right
  | _ => exact On.returning L _ _ _ fun mode => (h.clauses mode).right

theorem update {u : Update} {L : Interior σ (.update u) k k'} (h : R.Inside m n L r r') :
    R.Rel (m || n) L.front L.behind (fun _ => True) (r.update u) (r'.update u) := by
  unfold Renderer.update
  refine Keep.guard (fun _ => .fault _) ?_
  refine h.ctes.seq fun ctes _ => .known (fun _ _ => rfl) ?_
  refine (Keep.planSources _ _ _ _).bind fun strategy => Keep.guard (fun _ => Keep.missing _) ?_
  refine .targetScope (s := .update u) rfl rfl rfl rfl fun d hd => ?_
  exact L.inScope hd (h.updateClauses ctes strategy)

theorem deleteClauses {d : Delete} {L : Interior σ (.delete d) k k'} (h : R.Inside m n L r r')
    (ctes : Option String) (strategy : SourceStrategy) :
    R.Rel n (L.clauses .plain) (L.clauses .plain) (fun _ => True)
      (r.deleteClauses d ctes strategy) (r'.deleteClauses d ctes strategy) := by
  have hplain := h.clauses .plain
  have hchange : changePhrases d.sources d.predicates ⊆ (Statement.delete d).clausePhrases := by
    intro p hp
    simp only [changePhrases, Statement.clausePhrases, List.mem_cons, List.mem_append] at hp ⊢
    tauto
  unfold Renderer.deleteClauses
  refine .known (fun _ _ => rfl) ?_
  refine (Rel.changeParts strategy d.sources d.predicates).bind fun parts hparts => ?_
  refine h.plan.follow fun returning _ => ?_
  refine (Keep.paging _ _ _ _).bind fun paging => ?_
  refine (Keep.checkClauses _ _).bind fun _ => Keep.inOrder fun clause isFirst => ?_
  have hsources := hplain.mono fun p hp => hchange (hparts.1 hp)
  cases clause with
  | ctes | paging => exact .pure trivial
  | delete =>
    refine (Keep.tableName _).bind fun table => ?_
    exact (On.joinedTarget _ _ hsources).bind fun joined => .map _ (.keyword _ _)
  | «using» => exact .ite (fun _ => On.sourceClause _ hsources) fun _ => .pure trivial
  | filter => exact On.filter (hplain.mono fun p hp => hchange (hparts.2 hp))
  | orderBy => exact On.orderBy L (h.clauses .projected).left.right
  | _ => exact On.returning L _ _ _ fun mode => (h.clauses mode).right

theorem delete {d : Delete} {L : Interior σ (.delete d) k k'} (h : R.Inside m n L r r') :
    R.Rel (m || n) L.front L.behind (fun _ => True) (r.delete d) (r'.delete d) := by
  refine h.ctes.seq fun ctes _ => .known (fun _ _ => rfl) ?_
  refine (Keep.planSources _ _ _ _).bind fun strategy => ?_
  refine .targetScope (s := .delete d) rfl rfl rfl rfl fun c hc => ?_
  exact L.inScope hc (h.deleteClauses ctes strategy)

theorem renderStatement {L : Interior σ s k k'} (h : R.Inside m n L r r') :
    R.Rel (m || n) k k' (fun _ => True) (r.renderStatement s) (r'.renderStatement s) := by
  cases s with
  | select q => exact .inFrame L.enter L.leave h.select
  | setOp q => exact .inFrame L.enter L.leave h.setOperation
  | insert i => exact .inFrame L.enter L.leave h.insert
  | update u => exact .inFrame L.enter L.leave h.update
  | delete d => exact .inFrame L.enter L.leave h.delete

end Inside

/-! ## 4. Phrases -/

/-- An expression. What is asked of nested queries and of constants in place depends on the states
    and on the relation. -/
theorem On.renderExpr [Stable k] {e : Expr} (h : R.On k r r' e.phrases)
    (hquery : ∀ s, e = .query s → R.Keep k (r.query s) (r'.query s))
    (hnamed : ∀ f name spec c, e = .windowed f (.named name) →
      σ.dialect.has .namedWindows = false → k c → findWindow? c.scopes name = some spec →
      R.On k r r' spec.phrases)
    (hliteral : ∀ value type, e = .constant value type →
      ¬(σ.constantsAsParams && !value.isNull) = true →
      R.Keep k (Compile.literal value) (Compile.literal value)) :
    R.Keep k (r.renderExpr e) (r'.renderExpr e) := by
  cases e with
  | constant value type =>
    refine .known (fun _ _ => rfl) (.ite (fun _ => ?_) (hliteral value type rfl))
    exact .map _ (.constant value type)
  | field source name type => exact .map _ (On.field source name)
  | param name type => exact .map _ (.argument name type)
  | function name args type => exact .map _ (On.list h)
  | aggregate kind distinct arg filter => exact On.aggregate kind distinct h.left h.right
  | unary op operand => exact On.operator _ op _ _ h
  | binary op left right | unaryPredicate op operand | binaryPredicate op left right =>
    exact On.operator _ op _ _ h
  | conditions op operands => exact On.conditions op h
  | not operand => exact (On.operand h.expr _ _ _).bind fun _ => .map _ (.keyword _ _)
  | case subject arms otherwise => exact On.case h
  | cast type operand => exact On.cast type h.expr
  | between value low high negated => exact On.between negated h
  | member value list negated => exact On.member negated h.expr h.tail
  | rowsExist q negated => exact On.rowsExist negated h.statement
  | row elements => exact On.row h
  | raw sql => exact .pure trivial
  | default => exact .map _ (.keyword _ _)
  | query s => exact hquery s rfl
  | windowed e window =>
    refine On.windowed h.expr (On.windowRef h.tail fun name spec c hname => ?_)
    exact hnamed e name spec c (by rw [hname])
  | excluded column => exact (Keep.quote column).bind fun _ => .map _ (.keyword _ _)

end StepRelation

/-- A renderer that takes one step of its own and leaves the rest to another. -/
def Renderer.deeper (r : Renderer) : Renderer :=
  ⟨r.renderExpr, r.renderStatement⟩

/-! ## 5. Places -/

namespace StepRelation

variable {σ : Setting} {R : StepRelation σ} {k : Place} {r r' : Renderer} {m n : Bool}

/-- The columns of a common table expression are known in its body, and behind it. -/
theorem Rel.registerCte (before : List Cte) (c : Cte) :
    R.Rel false (k.behind before) (k.behind (before ++ [c])) (fun _ => True)
      (Compile.registerCte c.label c.columns?) (Compile.registerCte c.label c.columns?) := by
  have hframe : Level.frame ⟨before ++ [c], none⟩ =
      Fields.insert (Level.frame ⟨before, none⟩) c.label c.columns? := by
    simp only [Level.frame, Level.noted, Option.toList, List.append_nil, List.foldl_append,
      List.foldl_cons, List.foldl_nil, Frame.note]
  refine changing (fun d hd => ?_) fun d => ?_
  · have hframes : d.frames = Level.frame ⟨before, none⟩ :: k.frames := hd.frames
    simp only [hframes]
    refine ⟨hd.scopes, ?_⟩
    show _ = Level.frame ⟨before ++ [c], none⟩ :: k.frames
    rw [hframe]
  · split <;> exact R.quiet rfl rfl

theorem ctes {list : List Cte} {mark : Cte → Bool}
    (h : ∀ before c after, list = before ++ c :: after →
      R.Rel (mark c) (k.inBody before c) (k.inBody before c) (fun _ => True)
        (r.statement c.statement) (r'.statement c.statement)) :
    R.Rel (list.any mark) (k.behind []) (k.behind list) (fun _ => True) (r.ctes list)
      (r'.ctes list) := by
  refine On.ctes (fun before => k.behind before) Rel.registerCte ?_
  intro before c after hlist
  have hframes : (k.behind (before ++ [c])).frames = (k.inBody before c).frames := by
    simp [Place.frames, Place.inBody, Place.behind, Level.frame, Level.noted]
  have hbody : (k.behind (before ++ [c])).Fits σ.dialect = (k.inBody before c).Fits σ.dialect :=
    funext fun d => propext ⟨fun hd => ⟨hd.scopes, hd.frames.trans hframes⟩,
      fun hd => ⟨hd.scopes, hd.frames.trans hframes.symm⟩⟩
  rw [hbody]
  exact h before c after hlist

section Asked

variable {s : Statement} (h : ∀ p k', Asks σ (.statement s) k p k' → R.At k' r r' p)
include h

theorem ctes_of_asks :
    R.Rel false (k.behind []) (k.behind s.ctes) (fun _ => True) (r.ctes s.ctes) (r'.ctes s.ctes) := by
  have hany : (s.ctes.any fun _ => false) = false := List.any_eq_false.2 fun _ _ => Bool.false_ne_true
  rw [← hany]
  exact ctes fun before c after hs => h _ _ (.cte hs)

theorem Inside.of_asks
    (hctes : R.Rel m (k.behind []) (k.behind s.ctes) (fun _ => True) (r.ctes s.ctes)
      (r'.ctes s.ctes))
    (hplan : ∀ k : Place, R.Rel n k k (fun _ => True) (s.planReturning σ.dialect)
      (s.planReturning σ.dialect)) : R.Inside m n (k.interior σ s) r r' := by
  refine ⟨hctes, hplan _, ?_, fun mode p hp => ?_, ?_⟩
  · rintro q rfl b hb
    exact h _ _ (.branch hb)
  · cases mode <;> exact h _ _ (.clause hp _ _)
  · intro hn w hw p hp
    exact h _ _ (.definition hn hw hp _ _)

end Asked

/-- Renderers that are related on all that an expression asks for are so one step up. -/
theorem expr_deeper {e : Expr} (h : ∀ p k', Asks σ (.expr e) k p k' → R.At k' r r' p)
    (hliteral : ∀ value type, e = .constant value type →
      ¬(σ.constantsAsParams && !value.isNull) = true →
      R.Keep k (Compile.literal value) (Compile.literal value)) :
    R.Keep k (r.deeper.expr e) (r'.deeper.expr e) := by
  have hinner : R.On k r r' e.phrases := fun p hp => h p k (.inner hp)
  refine On.renderExpr hinner ?_ ?_ hliteral
  · rintro s rfl
    refine On.query (fun _ => hinner) fun _ => .inForJson ?_ ?_ hinner.tail.statement
    all_goals exact fun _ hc => ⟨hc.scopes, hc.frames⟩
  · rintro f name spec c rfl hn hc hw p hp
    rw [hc.scopes, k.findWindow?_scopes] at hw
    exact h p k (.window hn hw hp)

/-- Renderers that are related on all that a statement asks for are so one step up, in a relation
    that marks nothing. -/
theorem statement_deeper (h : ∀ p k', Asks σ (.statement s) k p k' → R.At k' r r' p)
    (hnote : ∀ c : Context, R.Change c { c with droppedReturning := true }) :
    R.Keep k (r.deeper.statement s) (r'.deeper.statement s) :=
  Inside.renderStatement (.of_asks h (ctes_of_asks h) fun _ => Keep.planned hnote s)

end StepRelation

end QueryPlan
