import QueryPlan.Proofs.Compile.Throughout

/-!
# Changes that lose their returned columns

Where a dialect has no place for the columns that a change returns, a lenient compilation drops them
and notes that it has: the decode plan then gives the number of affected rows. The note is taken
wherever a change stands and is never withdrawn, so that a change inside of a query counts like the
statement itself. `plan_of_compileWith` says when the plan gives the number of affected rows: if the
statement is a change that asks for no columns, or if its compilation writes a change that drops its
own.
-/

namespace QueryPlan

/-! ## 1. Changes that drop their columns -/

/-- Whether columns to be returned are dropped: there are some, and no clause to write them in. -/
def Setting.dropsReturning (σ : Setting) (returning : List Projection) (order : List Clause) :
    Bool :=
  !returning.isEmpty && !σ.strict &&
    !(σ.dialect.has .returning && (order.contains .returning || order.contains .output))

/-- Whether a statement is a change that drops the columns it should return. -/
def Statement.dropsReturning (σ : Setting) : Statement → Bool
  | .insert i => σ.dropsReturning i.returning σ.dialect.insertOrder
  | .update u => σ.dropsReturning u.returning σ.dialect.updateOrder
  | .delete d => σ.dropsReturning d.returning σ.dialect.deleteOrder
  | .select _ | .setOp _ => false

def Phrase.dropsReturning (σ : Setting) : Phrase → Bool
  | .expr _ => false
  | .statement s => s.dropsReturning σ

theorem Statement.isMutation_of_dropsReturning {σ : Setting} {s : Statement}
    (h : s.dropsReturning σ = true) : s.isMutation = true := by
  cases s with
  | select q | setOp q => cases h
  | insert i | update u | delete d => rfl

section Plans

variable {σ : Setting} {returning : List Projection} {order : List Clause} {pseudo : Keyword}
  {c c' : Context}

/-- What planning comes to: nothing to write, a clause, an error in strict mode, or a note. -/
theorem Compile.planReturning_run :
    Compile.planReturning returning order pseudo σ c =
      if returning.isEmpty then .ok (none, c)
      else if σ.dialect.has .returning && order.contains .returning then .ok (some .clause, c)
      else if σ.dialect.has .returning && order.contains .output then
        .ok (some (.output pseudo), c)
      else if σ.strict then .error (Error.unsupported "RETURNING")
      else .ok (none, { c with droppedReturning := true }) := by
  unfold Compile.planReturning
  split
  · rfl
  · have hhas : Compile.has .returning σ c = .ok (σ.dialect.has .returning, c) := rfl
    rw [Compile.bind_run hhas]
    split
    · rfl
    · split
      · rfl
      · have hmissing := Compile.missing_run (s := σ) (c := c) "RETURNING"
        by_cases hs : σ.strict = true
        · rw [if_pos hs] at hmissing ⊢
          exact Compile.bind_error hmissing
        · rw [if_neg hs] at hmissing ⊢
          rw [Compile.bind_run hmissing]
          rfl

theorem Compile.planReturning_of_drops (h : σ.dropsReturning returning order = true) :
    Compile.planReturning returning order pseudo σ c =
      .ok (none, { c with droppedReturning := true }) := by
  rw [Compile.planReturning_run]
  unfold Setting.dropsReturning at h
  grind

theorem Compile.planReturning_keeps {placement : Option Returning}
    (h : σ.dropsReturning returning order = false)
    (hrun : Compile.planReturning returning order pseudo σ c = .ok (placement, c')) : c' = c := by
  rw [Compile.planReturning_run] at hrun
  unfold Setting.dropsReturning at h
  split at hrun
  · cases hrun; rfl
  split at hrun
  · cases hrun; rfl
  split at hrun
  · cases hrun; rfl
  split at hrun
  · cases hrun
  simp_all

end Plans

/-! ## 2. Beside a compilation that gives up -/

section Follows

variable {α β : Type} {σ : Setting} {e : Error} {m n : Bool} {c : Context}

/-- **A step beside one that gives up** where columns are dropped. The note that they are is never
    withdrawn, and as long as it is not taken the other step does the same. A marked step takes
    it. -/
def Follows (e : Error) (m : Bool) (c : Context) (x x' : Except Error (α × Context)) : Prop :=
  ∀ p, x = .ok p →
    ((c.droppedReturning || m) = true → p.2.droppedReturning = true) ∧
    ((c.droppedReturning || m) = false →
      x' = if p.2.droppedReturning then .error e else .ok p)

/-- A step that leaves the note as it is. -/
theorem Follows.quiet {x : Except Error (α × Context)}
    (h : ∀ p, x = .ok p → p.2.droppedReturning = c.droppedReturning) : Follows e false c x x := by
  intro p hp
  rw [Bool.or_false, h p hp]
  refine ⟨id, fun hc => ?_⟩
  rw [hc, hp]
  rfl

theorem Follows.bind {x x' : Except Error (α × Context)}
    {f f' : α × Context → Except Error (β × Context)} (hx : Follows e m c x x')
    (hf : ∀ p, x = .ok p → Follows e n p.2 (f p) (f' p)) :
    Follows e (m || n) c (x >>= f) (x' >>= f') := by
  intro q hq
  obtain ⟨p, hp, hq⟩ := Except.bind_eq_ok_iff.1 hq
  obtain ⟨hnote₁, hsame₁⟩ := hx p hp
  obtain ⟨hnote₂, hsame₂⟩ := hf p hp q hq
  rw [← Bool.or_assoc]
  constructor
  · intro hmarked
    rcases Bool.or_eq_true_iff.1 hmarked with h | h
    · exact hnote₂ (by rw [hnote₁ h, Bool.true_or])
    · exact hnote₂ (by rw [h, Bool.or_true])
  · intro hplain
    obtain ⟨h₁, h₂⟩ := Bool.or_eq_false_iff.1 hplain
    cases hc₁ : p.2.droppedReturning with
    | true =>
      rw [hsame₁ h₁, hc₁, hnote₂ (by rw [hc₁, Bool.true_or])]
      rfl
    | false =>
      rw [hsame₁ h₁, hc₁]
      exact hsame₂ (by rw [hc₁, h₂]; rfl)

/-- The relation between the steps of a compilation and of one that gives up. -/
def following (σ : Setting) (e : Error) : StepRelation σ where
  Out m _ c x x' := Follows e m c x x'
  Change c c' := c'.droppedReturning = c.droppedReturning
  ok _ h := .quiet fun _ hp => Except.ok.inj hp ▸ h
  error _ _ := .quiet fun _ hp => nomatch hp
  bind := .bind
  quiet _ h := h
  named _ _ _ := rfl
  value _ _ _ := rfl
  repeatSince _ _ := rfl

end Follows

/-! ## 3. Whole compilations -/

section Runs

variable {σ : Setting} {e : Error} {r r' : Renderer} {k : Place} {m : Bool}

theorem follows_planReturning (returning : List Projection) (order : List Clause)
    (pseudo : Keyword) :
    (following σ e).Rel (σ.dropsReturning returning order) k k (fun _ => True)
      (Compile.planReturning returning order pseudo)
      (Compile.planReturning returning order pseudo) := by
  intro c hc
  cases hdrops : σ.dropsReturning returning order with
  | true =>
    rw [Compile.planReturning_of_drops hdrops]
    refine ⟨fun p hp => ?_, fun a c' hrun => ?_⟩
    · cases hp
      exact ⟨fun _ => rfl, fun h => absurd h (by rw [Bool.or_true]; decide)⟩
    · cases hrun
      exact ⟨⟨hc.scopes, hc.frames⟩, trivial⟩
  | false =>
    refine ⟨.quiet fun p hp => congrArg _ (Compile.planReturning_keeps hdrops hp), ?_⟩
    intro a c' hrun
    rw [Compile.planReturning_keeps hdrops hrun]
    exact ⟨hc, trivial⟩

theorem Statement.follows_planReturning (s : Statement) (k : Place) :
    (following σ e).Rel (s.dropsReturning σ) k k (fun _ => True) (s.planReturning σ.dialect)
      (s.planReturning σ.dialect) := by
  cases s with
  | select q | setOp q => exact .pure trivial
  | insert i | update u | delete d => exact QueryPlan.follows_planReturning _ _ _

/-- A renderer that gives up before each change that drops its columns. -/
noncomputable def cautious (σ : Setting) (e : Error) (depth : Nat) : Renderer :=
  watchedAt (fun p _ => ¬p.dropsReturning σ = true) e depth

/-- One step down, a statement takes the note if it is a change that drops its columns, or if one of
    its common table expressions takes it. -/
theorem follows_deeper (h : ∀ p (k : Place), (following σ e).At k r r' p) (s : Statement)
    (hctes : (following σ e).Rel m (k.behind []) (k.behind s.ctes) (fun _ => True) (r.ctes s.ctes)
      (r'.ctes s.ctes)) :
    (following σ e).Rel (m || s.dropsReturning σ) k k (fun _ => True) (r.deeper.statement s)
      (r'.deeper.statement s) :=
  (StepRelation.Inside.of_asks (fun p k' _ => h p k') hctes
    s.follows_planReturning).renderStatement

theorem follows_cautious (depth : Nat) (p : Phrase) (k : Place) :
    (following σ e).At k (Renderer.bottom.unrolled depth) (cautious σ e depth) p := by
  induction depth generalizing p k with
  | zero =>
    cases p <;> exact .fault _
  | succ depth ih =>
    rw [cautious, watchedAt, Renderer.unrolled]
    cases p with
    | expr x =>
      intro c hc
      rw [Renderer.watched_expr_run Bool.false_ne_true]
      refine StepRelation.expr_deeper (fun p k' _ => ih p k') (fun value _ _ _ => ?_) c hc
      exact .literal (fun _ _ _ hp => by cases hp) value
    | statement s =>
      intro c hc
      obtain ⟨hout, hend⟩ := follows_deeper ih s
        (StepRelation.ctes_of_asks fun p k' _ => ih p k') c hc
      refine ⟨fun p hp => ?_, hend⟩
      obtain ⟨hnote, hsame⟩ := hout p hp
      cases hdrops : s.dropsReturning σ with
      | true =>
        rw [hdrops, Bool.false_or, Bool.or_true] at hnote
        rw [Renderer.watched_statement_error fun h => h hdrops, hnote rfl]
        exact ⟨fun _ => rfl, fun _ => rfl⟩
      | false =>
        rw [Renderer.watched_statement_run (Bool.eq_false_iff.1 hdrops)]
        rw [hdrops] at hnote hsame
        exact ⟨hnote, hsame⟩

/-- A change that drops its columns takes the note. -/
theorem follows_cautious_statement (s : Statement) (depth : Nat) :
    (following σ e).Rel (s.dropsReturning σ) k k (fun _ => True)
      ((Renderer.bottom.unrolled depth).statement s) ((cautious σ e depth).statement s) := by
  have hplain := follows_cautious (σ := σ) (e := e) depth (.statement s) k
  cases hdrops : s.dropsReturning σ with
  | false => exact hplain
  | true =>
    intro c hc
    refine ⟨fun p hp => ⟨fun _ => ?_, fun h => absurd h (by rw [Bool.or_true]; decide)⟩,
      (hplain c hc).2⟩
    cases depth with
    | zero => cases hp
    | succ depth =>
      have hasked := fun p k' (_ : Asks σ (.statement s) k p k') =>
        follows_cautious (σ := σ) (e := e) depth p k'
      have hnote := ((follows_deeper (follows_cautious depth) s
        (StepRelation.ctes_of_asks hasked) c hc).1 p hp).1
      rw [hdrops, Bool.false_or, Bool.or_true] at hnote
      exact hnote rfl

end Runs

/-! ## 4. Changes that are written -/

section Written

variable {s : Statement} {d : Dialect} {o : Options} {sql : String} {c : Context}

theorem droppedReturning_iff_writes (hrun : s.runRender d o = .ok (sql, c)) :
    c.droppedReturning = true ↔
      s.Writes d o fun p => p.dropsReturning (.ofOptions d o) = true := by
  rw [s.runRender_eq] at hrun
  have hsame : ∀ e, (cautious (.ofOptions d o) e s.depthBound).statement s (.ofOptions d o)
      (.start d.placeholder) = if c.droppedReturning then .error e else .ok (sql, c) :=
    fun e => ((follows_cautious s.depthBound (.statement s) .start _ (Place.fits_start _ _)).1
      (sql, c) hrun).2 rfl
  constructor
  · intro hc e
    exact (hsame e).trans (if_pos hc)
  · intro hw
    by_contra hc
    have hend := (hw (.ofFault .endlessWindows)).symm.trans (hsame _)
    rw [if_neg hc] at hend
    cases hend

/-- The note is taken by the statement itself, and by its common table expressions. -/
theorem droppedReturning_of_drops (hrun : s.runRender d o = .ok (sql, c))
    (h : (s.ctes.any fun c => c.statement.dropsReturning (.ofOptions d o)) = true ∨
      s.dropsReturning (.ofOptions d o) = true) :
    c.droppedReturning = true := by
  rw [s.runRender_eq] at hrun
  obtain ⟨depth, hdepth⟩ : ∃ n, s.depthBound = n + 1 :=
    ⟨s.depthBound - 1, by have := s.size_lt_depthBound; omega⟩
  rw [hdepth] at hrun
  have hfollows := follows_deeper (k := .start)
    (follows_cautious (σ := .ofOptions d o) (e := .ofFault .endlessWindows) depth) s
    (StepRelation.ctes fun _ c _ _ => follows_cautious_statement c.statement depth)
  refine ((hfollows _ (Place.fits_start _ _)).1 (sql, c) hrun).1 ?_
  exact Bool.or_eq_true_iff.2 (.inr (Bool.or_eq_true_iff.2 h))

end Written

/-! ## 5. The plan of a compiled statement -/

theorem Statement.affectedOnly_decodePlan (s : Statement) :
    s.decodePlan.affectedOnly = (s.isMutation && s.projection.isEmpty) := by
  have hplans : ∀ list : List Projection, (projectionPlans list).isEmpty = list.isEmpty := by
    intro list
    cases list <;> rfl
  cases s with
  | select q | setOp q => rfl
  | insert change | update change | delete change =>
    cases change
    exact hplans _

theorem runRender_of_compileWith {s : Statement} {d : Dialect} {o : Options} {out : Compiled}
    (h : compileWith s d o = .ok out) :
    ∃ sql c, s.runRender d o = .ok (sql, c) ∧
      out.decoder.plan =
        { s.decodePlan with affectedOnly := s.decodePlan.affectedOnly || c.droppedReturning } := by
  unfold compileWith at h
  split at h
  · cases h
  · rename_i sql c hrun
    cases h
    exact ⟨sql, c, hrun, rfl⟩

/-- **The decode plan of a compiled statement** is that of the plan, up to what it says of affected
    rows. The result is the number of affected rows if the statement is a change that asks for no
    columns, or if a change that drops its columns is written anywhere. If only the statement itself
    can drop columns then this is said of the statement; a common table expression that drops its
    columns changes the result of any statement, also that of a query. -/
theorem plan_of_compileWith {s : Statement} {d : Dialect} {o : Options} {out : Compiled}
    (h : compileWith s d o = .ok out) :
    out.decoder.plan = { s.decodePlan with affectedOnly := out.decoder.plan.affectedOnly } ∧
    (out.decoder.plan.affectedOnly = true ↔
      (s.isMutation = true ∧ s.projection = []) ∨
        s.Writes d o fun p => p.dropsReturning (.ofOptions d o) = true) ∧
    ((∀ p k, Reaches (.ofOptions d o) s p k → p.dropsReturning (.ofOptions d o) = true →
        p = .statement s) →
      (out.decoder.plan.affectedOnly = true ↔
        s.isMutation = true ∧ (s.projection = [] ∨ s.dropsReturning (.ofOptions d o) = true))) ∧
    ∀ c ∈ s.ctes, c.statement.dropsReturning (.ofOptions d o) = true →
      out.decoder.plan.affectedOnly = true := by
  obtain ⟨sql, c, hrun, hplan⟩ := runRender_of_compileWith h
  have haffected : out.decoder.plan.affectedOnly = true ↔
      (s.isMutation = true ∧ s.projection = []) ∨ c.droppedReturning = true := by
    rw [hplan, s.affectedOnly_decodePlan]
    simp
  have hwrites := droppedReturning_iff_writes hrun
  refine ⟨?_, ?_, fun hself => ?_, fun cte hcte hdrops => ?_⟩
  · rw [hplan]
  · rw [haffected, hwrites]
  · rw [haffected, and_or_left]
    refine or_congr_right ⟨fun hc => ?_, fun hs => ?_⟩
    · obtain ⟨p, k, hp, hdrops⟩ := (hwrites.1 hc).exists_reaches
      cases hself p k hp hdrops
      exact ⟨s.isMutation_of_dropsReturning hdrops, hdrops⟩
    · exact droppedReturning_of_drops hrun (.inr hs.2)
  · refine haffected.2 (.inr (droppedReturning_of_drops hrun (.inl ?_)))
    exact List.any_eq_true.2 ⟨cte, hcte, hdrops⟩

/-- A query that reads the rows which a change in its `WITH` clause removes. -/
def removedIds : Statement :=
  .select { Select.empty with
    ctes := [⟨"gone", .delete ((Delete.of (.ofName "users")).returnColumns ["id"]), false⟩]
    projection := [⟨"id", .field "gone" "id" none⟩]
    sources := [.table (.ofName "gone")] }

/-- The rows of the query are lost: its result is the number of affected rows. -/
theorem plan_of_compileWith_here :
    ∃ out, compileWith removedIds .mySql { strict := false } = .ok out ∧
      out.sql = "WITH gone AS (DELETE FROM users) SELECT id FROM gone" ∧
      removedIds.decodePlan.affectedOnly = false ∧
      out.decoder.plan = { removedIds.decodePlan with affectedOnly := true } := by
  have hsql : (compileWith removedIds .mySql { strict := false }).map Compiled.sql =
      .ok "WITH gone AS (DELETE FROM users) SELECT id FROM gone" := by decide +kernel
  obtain ⟨out, hout, htext⟩ := Compiled.exists_of_sql hsql
  obtain ⟨hplan, -, -, hcte⟩ := plan_of_compileWith hout
  have haffected := hcte _ List.mem_cons_self (by decide)
  rw [haffected] at hplan
  exact ⟨out, hout, htext, rfl, hplan⟩

end QueryPlan
