import QueryPlan.Proofs.Compile.PairedQuery

/-!
# Corresponding changes

The pieces that write inserts, updates and deletes, each with one lemma of its name. What is planned
before anything is written (how conflicts are dealt with, where further sources and returned columns
stand) is the same on both sides, since it depends on the dialect and the plan alone.
-/

namespace QueryPlan

open Edges

variable {v : List Nat} {i : Insert} {ctes ctes' : Option String}

/-- The words of a conflict clause. -/
def Upsert.words : Upsert → List String
  | .onConflict target list => target ++ (list.getD []).map Assignment.column
  | .onDuplicateKey list => list.map Assignment.column

namespace Pairing

variable {P : Pairing}

/-! ## 1. Plans -/

/-- The pseudo table of returned columns is a plain keyword. -/
def PlainReturning : Option Returning → Prop
  | some (.output pseudo) => pseudo.slots = []
  | _ => True

namespace Lawful

variable (hP : P.Lawful)
include hP

theorem planIgnore (ignore : Bool) :
    P.Sim (Same fun x => ∀ u ∈ x.2, P.Fits u.words) (Compile.planIgnore ignore)
      (Compile.planIgnore ignore) := by
  unfold Compile.planIgnore
  have hnone : ∀ u ∈ (none : Option Upsert), P.Fits u.words :=
    fun u hu => (Option.not_mem_none u hu).elim
  refine (hP.has _).andThen fun _ _ => (hP.has _).andThen fun _ _ => ?_
  refine .ite (fun _ => .pure ⟨rfl, rfl, hnone⟩) fun _ => ?_
  refine .ite (fun _ => .pure ⟨rfl, rfl, hnone⟩) fun _ => ?_
  refine .ite (fun _ => .pure ⟨rfl, rfl, fun u hu => ?_⟩) fun _ => ?_
  · cases hu
    exact fun _ ht => absurd ht List.not_mem_nil
  · exact (hP.missing _).andThen fun _ _ => .pure ⟨rfl, rfl, hnone⟩

/-- A conflict clause has the words of the conflict. -/
theorem planConflict (h : P.Fits (conflictWords i.onConflict)) :
    P.Sim (Same fun x => ∀ u ∈ x.2, P.Fits u.words) (Compile.planConflict i)
      (Compile.planConflict i) := by
  unfold Compile.planConflict
  refine (hP.has _).andThen fun _ _ => (hP.has _).andThen fun _ _ => ?_
  refine (hP.planIgnore i.ignore).andThen fun ignoring hi => ?_
  have hmissing : ∀ feature, P.Sim (Same fun x => ∀ u ∈ x.2, P.Fits u.words)
      (do Compile.missing feature; return ignoring)
      (do Compile.missing feature; return ignoring) := fun feature =>
    (hP.missing feature).andThen fun _ _ => .pure ⟨rfl, rfl, hi⟩
  match hc : i.onConflict, h with
  | none, _ => exact .pure ⟨rfl, rfl, hi⟩
  | some ⟨target, .doNothing⟩, h =>
    refine .ite (fun _ => .pure ⟨rfl, rfl, fun u hu => ?_⟩) fun _ => ?_
    · cases hu
      rw [Upsert.words, Option.getD_none, List.map_nil, List.append_nil]
      exact h
    · exact .ite (fun _ => .pure ⟨rfl, rfl, hi⟩) fun _ => hmissing _
  | some ⟨target, .doUpdate assignments⟩, h =>
    refine .ite (fun _ => .pure ⟨rfl, rfl, fun u hu => ?_⟩) fun _ => ?_
    · cases hu
      exact h
    · refine (hP.has _).andThen fun _ _ => .ite (fun _ => .pure ⟨rfl, rfl, fun u hu => ?_⟩)
        fun _ => hmissing _
      cases hu
      exact h.right

theorem planSources (sources : List Source) (feature : Feature) (clause : Clause)
    (order : List Clause) :
    P.Sim (Same fun _ => True) (Compile.planSources sources feature clause order)
      (Compile.planSources sources feature clause order) := by
  unfold Compile.planSources
  have hpure : ∀ s : SourceStrategy, P.Sim (Same fun _ => True) (Pure.pure s) (Pure.pure s) :=
    fun s => .pure ⟨rfl, rfl, trivial⟩
  refine .ite (fun _ => hpure _) fun _ => (hP.has _).andThen fun _ _ => ?_
  refine .ite (fun _ => hpure _) fun _ => (hP.has _).andThen fun _ _ => ?_
  exact .ite (fun _ => hpure _) fun _ => hpure _

/-- A join that is taken apart has the words of its source. -/
theorem changeParts {sources : List Source} (h : ∀ s ∈ sources, P.Fits s.ownWords)
    (strategy : SourceStrategy) (predicates : List Expr) :
    P.Sim (Same fun x => ∀ s ∈ x.1, P.Fits s.ownWords)
      (Renderer.changeParts strategy sources predicates)
      (Renderer.changeParts strategy sources predicates) := by
  unfold Renderer.changeParts
  have hdetached : P.Sim (Same fun x => ∀ s ∈ x.1, P.Fits s.ownWords)
      (Compile.detachJoin sources strategy) (Compile.detachJoin sources strategy) := by
    unfold Compile.detachJoin
    split
    · exact .pure ⟨rfl, rfl, h⟩
    · exact .pure ⟨rfl, rfl, h⟩
    · obtain ⟨hfirst, hrest⟩ := List.forall_mem_cons.1 h
      refine .guard (fun _ => hP.missing _) (.pure ⟨rfl, rfl, ?_⟩)
      exact List.forall_mem_cons.2 ⟨hfirst, hrest⟩
    · exact .pure ⟨rfl, rfl, h⟩
  refine hdetached.andThen fun parts hparts => ?_
  exact .ite (fun _ => .pure ⟨rfl, rfl, hparts⟩) fun _ => .pure ⟨rfl, rfl, hparts⟩

theorem planReturning (returning : List Projection) (order : List Clause) {pseudo : Keyword}
    (hp : pseudo.slots = []) :
    P.Sim (Same PlainReturning) (Compile.planReturning returning order pseudo)
      (Compile.planReturning returning order pseudo) := by
  unfold Compile.planReturning
  refine .ite (fun _ => .pure ⟨rfl, rfl, trivial⟩) fun _ => (hP.has _).andThen fun _ _ => ?_
  refine .ite (fun _ => .pure ⟨rfl, rfl, trivial⟩) fun _ => ?_
  refine .ite (fun _ => .pure ⟨rfl, rfl, hp⟩) fun _ => (hP.missing _).andThen fun _ _ => ?_
  refine Sim.andThen (Sim.onModify ?_) fun _ _ => .pure ⟨rfl, rfl, trivial⟩
  exact .aside (fun _ => rfl) (fun _ _ => rfl) (fun _ => rfl) fun _ => rfl

theorem columnList {columns : List String} (h : P.Fits columns) :
    P.Sim (Same P.Clean) (Compile.columnList columns) (Compile.columnList columns) := by
  refine .ite (fun _ => .pure ⟨rfl, rfl, hP.ofFirm (by decide)⟩) fun _ => ?_
  refine (Sim.mapM_same fun c hc => hP.quote (h c hc)).andThen fun cs hcs => .pure ⟨rfl, rfl, ?_⟩
  have hnames := hP.cleanIntercalate (s := ", ") (by decide) hcs
  exact hP.cleanBehind (hP.cleanAppend (hP.ofFirm (by decide)) hnames) (by decide)

theorem insertPriority (priority : Option InsertPriority) :
    P.Sim (Same fun ts => ∀ t ∈ ts, P.Clean t) (Compile.insertPriority priority)
      (Compile.insertPriority priority) := by
  unfold Compile.insertPriority
  have hnone : ∀ t ∈ ([] : List String), P.Clean t := fun _ ht => absurd ht List.not_mem_nil
  cases priority with
  | none => exact .pure ⟨rfl, rfl, hnone⟩
  | some priority =>
    refine (hP.has _).andThen fun _ _ => .ite (fun _ => ?_) fun _ => ?_
    · refine (hP.word (by cases priority <;> rfl)).andThen fun word hword =>
        .pure ⟨rfl, rfl, fun t ht => ?_⟩
      rw [List.mem_singleton.1 ht]
      exact hword
    · exact (hP.missing _).andThen fun _ _ => .pure ⟨rfl, rfl, hnone⟩

theorem ignoreModifier (ignore : Bool) :
    P.Sim (Same fun ts => ∀ t ∈ ts, P.Clean t) (Compile.ignoreModifier ignore)
      (Compile.ignoreModifier ignore) := by
  refine .ite (fun _ => ?_) fun _ => .pure ⟨rfl, rfl, fun _ ht => absurd ht List.not_mem_nil⟩
  refine (hP.word rfl).andThen fun word hword => .pure ⟨rfl, rfl, fun t ht => ?_⟩
  rw [List.mem_singleton.1 ht]
  exact hword

theorem insertModifiers {priority : List String} (h : ∀ t ∈ priority, P.Clean t) (ignore : Bool) :
    P.Sim (Same P.Clean) (Compile.insertModifiers priority ignore)
      (Compile.insertModifiers priority ignore) := by
  refine (hP.ignoreModifier ignore).andThen fun ts hts => .pure ⟨rfl, rfl, ?_⟩
  refine hP.cleanJoin fun t ht => ?_
  obtain ⟨u, hu, rfl⟩ := List.mem_map.1 ht
  exact hP.cleanAppend (hP.ofFirm (by decide)) ((List.mem_append.1 hu).elim (h u) (hts u))

theorem targetScope {target : Table} (h : P.Fits target.texts) (sources : List Source)
    (returning : List Projection) :
    P.Sim (Same P.FitsScope) (Compile.targetScope target sources returning)
      (Compile.targetScope target sources returning) := by
  refine (hP.tableName h).andThen fun name hname => ?_
  refine (Sim.scopeOf _ _).andThen fun scope hscope => .pure ⟨rfl, rfl, ?_⟩
  exact List.forall_mem_singleton.2 hname

end Lawful

/-! ## 2. Shared clauses -/

namespace Renders

variable {r : Renderer} (hr : P.Renders r) (hP : P.Lawful)
include hr hP

omit hr hP in
theorem clean_none : ∀ t ∈ (none : Option String), P.Clean t :=
  fun t ht => (Option.not_mem_none t ht).elim

theorem assignments {list : List Assignment} (h : P.Fits (list.map Assignment.column))
    {target : Option String} (ht : ∀ t ∈ target, P.Clean t) :
    P.Sim P.Text (r.assignments list target) (r.assignments list target) := by
  refine (Sim.mapM (R := P.Text) fun a ha => ?_).map fun _ _ _ hts =>
    hP.intercalate (by decide) (by decide) hts
  refine (hP.quote (h _ (List.mem_map_of_mem ha))).andThen fun q hq => ?_
  refine (hr.text a.value).map fun v t t' htext => ?_
  refine hP.front ?_ (hP.front (hP.cleanBehind hq (b := " = ") (by decide)) htext)
  cases target with
  | none => exact hP.ofFirm (by decide)
  | some name => exact hP.cleanBehind (ht name rfl) (by decide)

theorem sourceClause {key : Keyword} (hk : key.slots = []) {list : List Source}
    (h : ∀ s ∈ list, P.Fits s.ownWords) :
    P.Sim (Both P.Text) (r.sourceClause key list) (r.sourceClause key list) := by
  have hsplit := splitSources_subset list
  unfold Renderer.sourceClause
  refine .ite (fun _ => .pure .none) fun _ => ?_
  refine (hP.word hk).andThen fun word hword => ?_
  refine (hr.sources hP fun s hs => h s (hsplit.1 hs)).bind fun v t t' ht => ?_
  have htext := hP.front (hP.cleanBehind hword (b := " ") (by decide)) ht
  refine .ite (fun _ => .pure (.some ?_)) fun _ => ?_
  · rw [List.append_nil]
    exact htext
  · refine (hr.joins hP fun s hs => h s (hsplit.2 hs)).map fun w u u' hu => .some ?_
    exact hP.between htext (by decide) (by decide) hu

theorem filter (predicates : List Expr) :
    P.Sim (Both P.Text) (r.filter predicates) (r.filter predicates) :=
  .ite (fun _ => .pure .none) fun _ => hP.headed rfl (hr.predicates hP predicates)

theorem returning {placement : Option Returning} (hp : PlainReturning placement)
    {list : List Projection} (h : P.Fits (list.map Projection.label)) (clause : Clause)
    (target : Table) :
    P.Sim (Both P.Text) (r.returning clause placement list target)
      (r.returning clause placement list target) := by
  unfold Renderer.returning
  split
  · exact hP.headed rfl (hr.projection hP h)
  · refine (hP.word hp).andThen fun pseudo hpseudo => ?_
    exact hP.headed rfl (Sim.inOutput hpseudo (hr.projection hP h))
  · exact .pure .none

/-! ## 3. Inserts -/

theorem insertRows (table : Table) (columns : List String) (rows : List (List Expr)) :
    P.Sim P.Text (r.insertRows table columns rows) (r.insertRows table columns rows) := by
  cases rows with
  | nil => exact .fail _
  | cons first rest =>
    refine (Sim.mapM (R := P.Text) fun row _ => .guard (fun _ => .fail _) ?_).bind
      fun v ts ts' hts => ?_
    · exact (hr.list hP row).map fun _ _ _ ht => hP.parenthesized ht
    · refine (hP.word rfl).andThen fun word hword => .pure ?_
      rw [List.append_nil]
      exact hP.front (hP.cleanBehind hword (by decide))
        (hP.intercalate (by decide) (by decide) hts)

theorem insertSource (i : Insert) : P.Sim P.Text (r.insertSource i) (r.insertSource i) := by
  unfold Renderer.insertSource
  split
  · exact hr.insertRows hP i.table i.columns _
  · exact hr.statement _
  · exact Sim.same hP (hP.word rfl)

theorem conflictAction {list : Option (List Assignment)}
    (h : P.Fits ((list.getD []).map Assignment.column)) :
    P.Sim P.Text (r.conflictAction list) (r.conflictAction list) := by
  cases list with
  | none => exact .pure (hP.clean (hP.ofFirm (by decide)))
  | some list =>
    refine (Sim.forceQualified (hr.assignments hP h clean_none)).map ?_
    exact fun _ _ _ ht => hP.inFront (by decide) ht

theorem upsert {u : Upsert} (h : P.Fits u.words) : P.Sim P.Text (r.upsert u) (r.upsert u) := by
  match u, h with
  | .onConflict target list, h =>
    refine (hP.columnList h.left).andThen fun target htarget => ?_
    refine (hr.conflictAction hP h.right).bind fun v t t' ht => Sim.ended ?_
    exact hP.keyword .onConflict
      (.clean (by decide) htarget (.text List.not_mem_nil ht .nil))
  | .onDuplicateKey list, h =>
    refine (hr.assignments hP h clean_none).bind fun v t t' ht => Sim.ended ?_
    exact hP.keyword .onDuplicateKey (.text List.not_mem_nil ht .nil)

theorem insertClauses (h : P.Fits (Statement.insert i).clauseWords)
    (hctes : Both P.Text v ctes ctes') :
    P.Sim (fun w => P.Text (v ++ w)) (r.insertClauses i ctes) (r.insertClauses i ctes') := by
  unfold Renderer.insertClauses
  refine Sim.onDialect ?_
  rw [show P.right.dialect.insertOrder = P.left.dialect.insertOrder by rw [hP.dialect]; rfl]
  refine (hP.insertPriority _).andThen fun ps hps => ?_
  refine (hP.planConflict h.left.right).andThen fun plan hplan => ?_
  obtain ⟨ignoring, upsert⟩ := plan
  refine (hP.insertModifiers hps ignoring).andThen fun modifiers hmodifiers => ?_
  refine (hP.planReturning _ _ rfl).andThen fun placement hplacement => ?_
  rw [hctes.isSome_eq]
  refine (hP.checkClauses _ _).andThen fun _ _ => ?_
  refine hP.inOrder (hP.arrangement.imp id Dialect.Orderly.insertOrder) hctes (fun _ => rfl)
    (fun _ => rfl) fun clause hne isFirst => ?_
  cases clause with
  | ctes => exact absurd rfl hne
  | insert =>
    refine (hP.columnList h.left.left.right).andThen fun columns hcolumns => ?_
    refine (hP.tableName h.left.left.left).andThen fun name hname => ?_
    refine (Sim.same hP (hP.keywordSame rfl fun p hp => ?_)).map fun _ _ _ ht => .some ht
    simp only [List.mem_cons, List.not_mem_nil, or_false] at hp
    rcases hp with rfl | rfl | rfl
    · exact hmodifiers
    · exact hname
    · exact hcolumns
  | values => exact (hr.insertSource hP i).map fun _ _ _ ht => .some ht
  | upsert =>
    cases upsert with
    | none => exact .pure .none
    | some u => exact (hr.upsert hP (hplan u rfl)).map fun _ _ _ ht => .some ht
  | _ => exact hr.returning hP hplacement h.right _ _

theorem insert (h : P.Fits (Statement.insert i).ownWords) :
    P.Sim P.Text (r.insert i) (r.insert i) := by
  refine (hr.ctes hP h.left).bind fun v o o' ho => ?_
  refine (hP.targetScope h.right.left.left.left _ _).andThen fun scope hscope => ?_
  exact Sim.inScope hscope (hr.insertClauses hP h.right ho)

/-! ## 4. Updates and deletes -/

theorem joinedTarget {table : String} (ht : P.Clean table) {sources : List Source}
    (hs : ∀ s ∈ sources, P.Fits s.ownWords) (strategy : SourceStrategy) :
    P.Sim P.Text (r.joinedTarget table strategy sources)
      (r.joinedTarget table strategy sources) := by
  refine .ite (fun _ => ?_) fun _ => .pure (hP.clean ht)
  exact (hr.joins hP hs).map fun _ _ _ hj => hP.front (hP.cleanBehind ht (by decide)) hj

theorem updateClauses {u : Update} (h : P.Fits (Statement.update u).clauseWords)
    (hctes : Both P.Text v ctes ctes') (strategy : SourceStrategy) :
    P.Sim (fun w => P.Text (v ++ w)) (r.updateClauses u ctes strategy)
      (r.updateClauses u ctes' strategy) := by
  unfold Renderer.updateClauses
  refine Sim.onDialect ?_
  rw [show P.right.dialect.updateOrder = P.left.dialect.updateOrder by rw [hP.dialect]; rfl]
  have hsources := h.left.right.sources (List.Subset.refl _)
  refine (hP.changeParts hsources strategy _).andThen fun parts hparts => ?_
  obtain ⟨sources, predicates⟩ := parts
  refine (hP.planReturning _ _ rfl).andThen fun placement hplacement => ?_
  refine (hP.paging _ _ _ _).andThen fun paging hpaging => ?_
  rw [hctes.isSome_eq]
  refine (hP.checkClauses _ _).andThen fun _ _ => ?_
  refine (hP.tableName h.left.left.left).andThen fun name hname => ?_
  refine hP.inOrder (hP.arrangement.imp id Dialect.Orderly.updateOrder) hctes (fun _ => rfl)
    (fun _ => rfl) fun clause hne isFirst => ?_
  cases clause with
  | ctes => exact absurd rfl hne
  | update =>
    refine (hr.joinedTarget hP hname hparts strategy).bind fun w t t' ht => ?_
    exact (hP.keyword .update (.text List.not_mem_nil ht .nil)).map fun _ _ _ hu =>
      hu.1 ▸ .some hu.2
  | assign =>
    have htarget : ∀ t ∈ (if strategy = .multiTable then some name else none), P.Clean t := by
      intro t ht
      split at ht
      · cases ht
        exact hname
      · cases ht
    refine (hr.assignments hP h.left.left.right htarget).bind fun w t t' ht => ?_
    exact (hP.keyword .assign (.text List.not_mem_nil ht .nil)).map fun _ _ _ hu =>
      hu.1 ▸ .some hu.2
  | sources => exact .ite (fun _ => hr.sourceClause hP rfl hparts) fun _ => .pure .none
  | filter => exact hr.filter hP _
  | orderBy => exact hr.orderBy hP _
  | paging => exact hP.once hpaging.tail isFirst
  | _ => exact hr.returning hP hplacement h.right _ _

theorem update {u : Update} (h : P.Fits (Statement.update u).ownWords) :
    P.Sim P.Text (r.update u) (r.update u) := by
  unfold Renderer.update
  refine .guard (fun _ => .fail _) ?_
  refine (hr.ctes hP h.left).bind fun v o o' ho => Sim.onDialect ?_
  rw [show P.right.dialect.updateOrder = P.left.dialect.updateOrder by rw [hP.dialect]; rfl]
  refine (hP.planSources _ _ _ _).andThen fun strategy _ => .guard (fun _ => hP.missing _) ?_
  refine (hP.targetScope h.right.left.left.left _ _).andThen fun scope hscope => ?_
  exact Sim.inScope hscope (hr.updateClauses hP h.right ho strategy)

theorem deleteClauses {d : Delete} (h : P.Fits (Statement.delete d).clauseWords)
    (hctes : Both P.Text v ctes ctes') (strategy : SourceStrategy) :
    P.Sim (fun w => P.Text (v ++ w)) (r.deleteClauses d ctes strategy)
      (r.deleteClauses d ctes' strategy) := by
  unfold Renderer.deleteClauses
  refine Sim.onDialect ?_
  rw [show P.right.dialect.deleteOrder = P.left.dialect.deleteOrder by rw [hP.dialect]; rfl]
  have hsources := h.left.right.sources (List.Subset.refl _)
  refine (hP.changeParts hsources strategy _).andThen fun parts hparts => ?_
  obtain ⟨sources, predicates⟩ := parts
  refine (hP.planReturning _ _ rfl).andThen fun placement hplacement => ?_
  refine (hP.paging _ _ _ _).andThen fun paging hpaging => ?_
  rw [hctes.isSome_eq]
  refine (hP.checkClauses _ _).andThen fun _ _ => ?_
  refine hP.inOrder (hP.arrangement.imp id Dialect.Orderly.deleteOrder) hctes (fun _ => rfl)
    (fun _ => rfl) fun clause hne isFirst => ?_
  cases clause with
  | ctes => exact absurd rfl hne
  | delete =>
    refine (hP.tableName h.left.left).andThen fun name hname => ?_
    refine (hr.joinedTarget hP hname hparts strategy).bind fun w t t' ht => ?_
    have hfilled : P.Filled ["table"] (w ++ [])
        ((if strategy = .multiTable then [("target", name)] else []) ++ [("table", t)])
        ((if strategy = .multiTable then [("target", name)] else []) ++ [("table", t')]) := by
      split
      · exact .clean (by decide) hname (.text List.not_mem_nil ht .nil)
      · exact .text List.not_mem_nil ht .nil
    exact (hP.keyword .delete hfilled).map fun _ _ _ hu => hu.1 ▸ .some hu.2
  | «using» => exact .ite (fun _ => hr.sourceClause hP rfl hparts) fun _ => .pure .none
  | filter => exact hr.filter hP _
  | orderBy => exact hr.orderBy hP _
  | paging => exact hP.once hpaging.tail isFirst
  | _ => exact hr.returning hP hplacement h.right _ _

theorem delete {d : Delete} (h : P.Fits (Statement.delete d).ownWords) :
    P.Sim P.Text (r.delete d) (r.delete d) := by
  refine (hr.ctes hP h.left).bind fun v o o' ho => Sim.onDialect ?_
  rw [show P.right.dialect.deleteOrder = P.left.dialect.deleteOrder by rw [hP.dialect]; rfl]
  refine (hP.planSources _ _ _ _).andThen fun strategy _ => ?_
  refine (hP.targetScope h.right.left.left _ _).andThen fun scope hscope => ?_
  exact Sim.inScope hscope (hr.deleteClauses hP h.right ho strategy)

end Renders

end Pairing

end QueryPlan
