import QueryPlan.Proofs.Compile.Throughout

/-!
# Statements leave the state as they found it

A statement may be compiled in any state, between other parts of a plan. What it has opened it
closes again: `Context.Restored` says how the state behind a step has to do with the state in front
of it. The clauses of a statement may change the scope that it has opened, and its common table
expressions the frame, since both are gone when it ends. A query may start with the wish that it
ends as JSON; it takes the wish at once, so that nothing inside of it finds one.

To say what is found inside, a compilation is overseen: `overseen` looks at the state in front of
each phrase, beside the phrase that asks for it, and gives up where a rule is broken. A rule that
holds wherever something is asked for changes nothing (`Statement.Oversees`).

`statement_restores_state` puts both together.
-/

namespace QueryPlan

/-! ## 1. States -/

/-- **A state that a step leaves behind.** -/
structure Context.Restored (c c' : Context) : Prop where
  scopes : c'.scopes = c.scopes
  frames : c'.frames = c.frames
  forJson : c'.forJson = none
  outputTable : c'.outputTable = c.outputTable ∨ c'.outputTable = none
  params : c.params.params <+: c'.params.params
  jsonTables : c.jsonTables ≤ c'.jsonTables
  branchTables : c.branchTables ≤ c'.branchTables
  droppedReturning : c.droppedReturning = true → c'.droppedReturning = true

namespace Context.Restored

variable {c c₁ c₂ : Context}

theorem refl (h : c.forJson = none) : c.Restored c where
  scopes := rfl
  frames := rfl
  forJson := h
  outputTable := .inl rfl
  params := List.prefix_rfl
  jsonTables := Nat.le_refl _
  branchTables := Nat.le_refl _
  droppedReturning := id

theorem trans (h₁ : c.Restored c₁) (h₂ : c₁.Restored c₂) : c.Restored c₂ where
  scopes := h₂.scopes.trans h₁.scopes
  frames := h₂.frames.trans h₁.frames
  forJson := h₂.forJson
  outputTable := by
    rcases h₂.outputTable with h | h
    · rw [h]
      exact h₁.outputTable
    · exact .inr h
  params := h₁.params.trans h₂.params
  jsonTables := Nat.le_trans h₁.jsonTables h₂.jsonTables
  branchTables := Nat.le_trans h₁.branchTables h₂.branchTables
  droppedReturning := h₂.droppedReturning ∘ h₁.droppedReturning

end Context.Restored

/-- States outside of any query that has to end as JSON, which a step does not leave if it restores
    the state that it finds. -/
class Resting {σ : Setting} (k : States σ) : Prop where
  forJson : ∀ {c : Context}, k c → c.forJson = none
  restored : ∀ {c c' : Context}, k c → c.Restored c' → k c'

instance {σ : Setting} {k : States σ} [Resting k] : Stable k where
  params hc h := Resting.restored hc { Context.Restored.refl (Resting.forJson hc) with params := h }
  jsonTables hc := Resting.restored hc
    { Context.Restored.refl (Resting.forJson hc) with jsonTables := Nat.le_succ _ }
  branchTables hc := Resting.restored hc
    { Context.Restored.refl (Resting.forJson hc) with branchTables := Nat.le_succ _ }
  droppedReturning hc := Resting.restored hc
    { Context.Restored.refl (Resting.forJson hc) with droppedReturning := fun _ => rfl }

/-! What is opened by a statement that starts in a state is gone when the state is restored. -/

/-- The states in the frame of the statement. -/
def Context.inFrame (σ : Setting) (c : Context) : States σ :=
  fun d => c.Restored { d with frames := d.frames.tail }

/-- The states in the scope of the statement. -/
def Context.inScope (σ : Setting) (c : Context) : ScopeMode → States σ
  | .output => fun d =>
    c.Restored { d with scopes := d.scopes.tail, frames := d.frames.tail, outputTable := none }
  | _ => fun d => c.Restored { d with scopes := d.scopes.tail, frames := d.frames.tail }

instance (σ : Setting) (c : Context) : Resting (c.inFrame σ) where
  forJson h := h.forJson
  restored h h' := h.trans { h' with frames := congrArg List.tail h'.frames }

instance (σ : Setting) (c : Context) (mode : ScopeMode) : Resting (c.inScope σ mode) where
  forJson h := by cases mode <;> exact h.forJson
  restored h h' := by
    have hscopes := congrArg List.tail h'.scopes
    have hframes := congrArg List.tail h'.frames
    cases mode with
    | output =>
      exact h.trans { h' with scopes := hscopes, frames := hframes, outputTable := .inl rfl }
    | _ => exact h.trans { h' with scopes := hscopes, frames := hframes }

/-- A statement may change the scope that it has opened. -/
theorem Context.inScope_modifyHead {σ : Setting} {c d : Context} (g : Scope → Scope)
    (h : c.inScope σ .plain d) :
    c.inScope σ .plain { d with scopes := d.scopes.modifyHead g } := by
  have hscopes : (d.scopes.modifyHead g).tail = d.scopes.tail := List.tail_modifyHead
  exact { h with scopes := hscopes.trans h.scopes }

/-- The states inside of a statement, seen from the one in which it starts. -/
def Context.interior (σ : Setting) (c : Context) (s : Statement)
    (hjson : c.forJson = none ∨ s.isMutation = false) :
    Interior σ s (fun d => d = c) c.Restored where
  front := c.inFrame σ
  behind := c.inFrame σ
  clauses := c.inScope σ
  stableBehind := inferInstance
  stableClauses _ := inferInstance
  enter := by
    rintro c rfl
    have hnone : cond s.isMutation c.forJson none = none := by
      rcases hjson with h | h
      · rw [h, Bool.cond_self]
      · rw [h, Bool.cond_false]
    have hstart : { c with forJson := none }.Restored { c with forJson := none } := .refl rfl
    exact { hstart with forJson := hnone }
  leave _ h := h
  opens _ h := h
  closes _ h := h
  project _ h := inScope_modifyHead _ h
  unproject _ h := inScope_modifyHead _ h
  qualify _ h := inScope_modifyHead _ h
  unqualify _ h := inScope_modifyHead _ h
  openOutput _ _ h := { h with outputTable := .inr rfl }
  closeOutput _ h := h

/-! ## 2. Steps -/

open StepRelation

variable {σ : Setting} {r r' : Renderer}

/-- **Steps that come out the same and leave a state as they have found it.** -/
abbrev Restores (σ : Setting) (c : Context) {α : Type} (x x' : Compile α) : Prop :=
  (agreement σ).Rel false (fun d => d = c) c.Restored (fun _ => True) x x'

namespace Restores

variable {α : Type} {k : States σ} [Resting k] {x x' : Compile α}

theorem keep (h : ∀ c, k c → Restores σ c x x') : (agreement σ).Keep k x x' := by
  intro c hc
  obtain ⟨hsame, hend⟩ := h c hc c rfl
  exact ⟨hsame, fun a c' hrun => ⟨Resting.restored hc (hend a c' hrun).1, trivial⟩⟩

/-- A query that has to end as JSON takes the wish with it. -/
theorem inForJson {single : Bool} (h : ∀ c : Context, c.forJson = some single → Restores σ c x x') :
    (agreement σ).Keep k (Compile.inForJson single x) (Compile.inForJson single x') := by
  refine keep fun c _ => Rel.inForJson ?_ ?_ (h { c with forJson := some single } rfl)
  · rintro _ rfl
    rfl
  · exact fun d hd => { hd with forJson := rfl }

end Restores

/-- Renderers that write the same and leave the state as they have found it, outside of any query
    that has to end as JSON. -/
def Renderer.Alike (σ : Setting) (r r' : Renderer) : Prop :=
  ∀ (k : States σ) [Resting k] (p : Phrase), (agreement σ).At k r r' p

/-- A common table expression is noted in the frame of its statement. -/
theorem keep_registerCte (c : Context) (label : String) (columns : Option (List String)) :
    (agreement σ).Keep (c.inFrame σ) (Compile.registerCte label columns)
      (Compile.registerCte label columns) := by
  refine .changing (fun d hd => ?_) fun _ => trivial
  obtain ⟨params, scopes, frames⟩ := d
  cases frames <;> exact hd

namespace Renderer.Alike

variable (h : r.Alike σ r')
include h

theorem ctes (c : Context) (list : List Cte) :
    (agreement σ).Keep (c.inFrame σ) (r.ctes list) (r'.ctes list) := by
  have hany : (list.any fun _ => false) = false := List.any_eq_false.2 fun _ _ => Bool.false_ne_true
  have hctes : (agreement σ).Rel (list.any fun _ => false) (c.inFrame σ) (c.inFrame σ)
      (fun _ => True) (r.ctes list) (r'.ctes list) :=
    On.ctes (fun _ => c.inFrame σ) (fun _ cte => keep_registerCte c cte.label cte.columns?)
      fun _ cte _ _ => h (c.inFrame σ) (.statement cte.statement)
  rwa [hany] at hctes

/-- **Statements.** A query may have to end as JSON. -/
theorem renderStatement {c : Context} {s : Statement}
    (hjson : c.forJson = none ∨ s.isMutation = false) :
    Restores σ c (r.renderStatement s) (r'.renderStatement s) := by
  have hinside : (agreement σ).Inside false false (c.interior σ s hjson) r r' :=
    { ctes := h.ctes c s.ctes
      plan := Keep.planned (k := c.inScope σ .plain) (fun _ => trivial) s
      branches := fun _ _ b _ => h (c.inFrame σ) (.statement b)
      clauses := fun mode p _ => h (c.inScope σ mode) p
      definitions := fun _ _ _ p _ => h (c.inScope σ .plain) p }
  exact hinside.renderStatement

/-- An expression that hands no query out to be ended as JSON. -/
theorem renderExpr {k : States σ} [Resting k] {x : Expr} (hquery : ∀ q, x ≠ .query q) :
    (agreement σ).Keep k (r.renderExpr x) (r'.renderExpr x) := by
  refine On.renderExpr (fun p _ => h k p) (fun q hq => absurd hq (hquery q)) ?_ ?_
  · exact fun _ _ _ _ _ _ _ _ p _ => h k p
  · exact fun value _ _ _ => .literal (fun _ _ => rfl) value

end Renderer.Alike

/-- **A query that has to end as JSON**, which an expression hands out. -/
inductive Setting.JsonRoot (σ : Setting) : Phrase → Phrase → Bool → Prop
  | mk (q : Statement) (h : σ.EndsAsJson q) :
    JsonRoot σ (.expr (.query q)) (.statement (limitToFirst q.shape q)) (decide (q.shape = .first))

/-! ## 3. Compilations that are overseen -/

/-- Writes down to a depth what a phrase asks for, and gives up where a rule about the phrase that
    asks, the phrase that is asked for and the state in front of it is broken. -/
noncomputable def overseen (rule : Phrase → Phrase → Context → Prop) (e : Error) :
    Nat → Phrase → Renderer
  | 0, _ => .bottom
  | depth + 1, asking =>
    Renderer.watched
      ⟨fun x => (overseen rule e depth (.expr x)).renderExpr x,
        fun s => (overseen rule e depth (.statement s)).renderStatement s⟩ (rule asking) e

/-- **A rule that holds of all that is asked for inside of a statement**: to give up where it is
    broken changes nothing, whatever the error. -/
def Statement.Oversees (s : Statement) (σ : Setting) (c : Context)
    (rule : Phrase → Phrase → Context → Prop) : Prop :=
  ∀ e depth,
    (overseen rule e depth (.statement s)).renderStatement s σ c = s.renderAt (depth + 1) σ c

/-- The rule that the roots of queries that end as JSON find the wish for it, and nothing else
    does. -/
def Setting.OnlyRoots (σ : Setting) (asking asked : Phrase) (c : Context) : Prop :=
  ∀ single, c.forJson = some single ↔ σ.JsonRoot asking asked single

section Overseen

variable {e : Error} {asking : Phrase}

/-- A statement hands nothing out to be ended as JSON. -/
theorem Setting.not_jsonRoot_statement (s : Statement) (asked : Phrase) (single : Bool) :
    ¬σ.JsonRoot (.statement s) asked single := by
  intro h
  cases h

theorem Setting.JsonRoot.unique {asked : Phrase} {single single' : Bool}
    (h : σ.JsonRoot asking asked single) (h' : σ.JsonRoot asking asked single') :
    single' = single := by
  cases h
  cases h'
  rfl

theorem Setting.JsonRoot.isMutation_eq_false {s : Statement} {single : Bool}
    (h : σ.JsonRoot asking (.statement s) single) : s.isMutation = false := by
  cases h with
  | mk q h =>
    rw [← h.query, limitToFirst]
    split
    · cases q <;> rfl
    · rfl

/-- Where nothing has to end as JSON, the wish for it is not found. -/
theorem Setting.onlyRoots_of_none {asked : Phrase} {c : Context}
    (hasked : ∀ single, ¬σ.JsonRoot asking asked single) (hc : c.forJson = none) :
    σ.OnlyRoots asking asked c := by
  intro single
  rw [hc]
  exact ⟨fun h => absurd h (Option.some_ne_none single).symm, fun h => absurd h (hasked single)⟩

/-- **Being overseen changes nothing**: by induction on the depth, both for phrases that hand
    nothing out to be ended as JSON and for the roots that others hand out. -/
theorem alike_overseen (depth : Nat) :
    (∀ asking, (∀ asked single, ¬σ.JsonRoot asking asked single) →
      (Renderer.bottom.unrolled depth).Alike σ (overseen σ.OnlyRoots e depth asking)) ∧
    ∀ asking asked single (c : Context), σ.JsonRoot asking (.statement asked) single →
      c.forJson = some single → Restores σ c ((Renderer.bottom.unrolled depth).statement asked)
        ((overseen σ.OnlyRoots e depth asking).statement asked) := by
  induction depth with
  | zero =>
    refine ⟨fun _ _ k _ p => ?_, fun _ _ _ _ _ _ => .fault _⟩
    cases p <;> exact .fault _
  | succ depth ih =>
    obtain ⟨hplain, hroot⟩ := ih
    have hstatement : ∀ s : Statement,
        (Renderer.bottom.unrolled depth).Alike σ (overseen σ.OnlyRoots e depth (.statement s)) :=
      fun s => hplain _ (Setting.not_jsonRoot_statement s)
    refine ⟨fun asking hnone k _ p => ?_, fun asking asked single c h hc => ?_⟩
    · have hrule : ∀ c, k c → σ.OnlyRoots asking p c := fun c hc =>
        Setting.onlyRoots_of_none (hnone p) (Resting.forJson hc)
      cases p with
      | expr x =>
        refine agreement_watched ?_ hrule
        by_cases hquery : ∃ q, x = .query q
        · obtain ⟨q, rfl⟩ := hquery
          refine On.query (fun hends p _ => hplain _ (fun _ _ h => ?_) k p) fun hends => ?_
          · cases h with
            | mk q h => exact hends h
          · exact Restores.inForJson fun c hc => hroot _ _ _ c (.mk q hends) hc
        · have hx : ∀ q, x ≠ .query q := fun q hq => hquery ⟨q, hq⟩
          refine (hplain (.expr x) fun _ _ h => ?_).renderExpr hx
          cases h
          exact hx _ rfl
      | statement s =>
        refine agreement_watched (Restores.keep fun c hc => ?_) hrule
        exact (hstatement s).renderStatement (.inl (Resting.forJson hc))
    · refine agreement_watched ((hstatement asked).renderStatement (.inr h.isMutation_eq_false)) ?_
      rintro _ rfl single'
      rw [hc]
      exact ⟨fun heq => Option.some.inj heq ▸ h, fun h' => congrArg some (h.unique h').symm⟩

end Overseen

/-- Statements restore the state at every depth. -/
theorem Statement.restores_renderAt (s : Statement) (e : Error) (depth : Nat) {c : Context}
    (hjson : c.forJson = none ∨ s.isMutation = false) :
    Restores σ c (s.renderAt (depth + 1))
      ((overseen σ.OnlyRoots e depth (.statement s)).renderStatement s) := by
  rw [s.renderAt_eq_unrolled]
  exact ((alike_overseen depth).1 _ (Setting.not_jsonRoot_statement s)).renderStatement hjson

/-- **Statements leave the state as they found it.** A statement is compiled in any state outside of
    an output clause, and a query also in one that wants it to end as JSON. If this succeeds, all
    scopes and frames are as before, with their flags, nothing has to end as JSON, there is no
    output clause, parameters have only been added, names for derived tables have not been given
    back, and it is still known if returned columns were dropped. Of the phrases inside, those and
    only those that are the root of a query which ends as JSON find the wish for it. -/
theorem statement_restores_state (s : Statement) (σ : Setting) (c : Context)
    (houtput : c.outputTable = none) (hjson : c.forJson = none ∨ s.isMutation = false) :
    (∀ text c', s.render σ c = .ok (text, c') →
      c'.scopes = c.scopes ∧ c'.frames = c.frames ∧ c'.forJson = none ∧ c'.outputTable = none ∧
        c.params.params <+: c'.params.params ∧ c.jsonTables ≤ c'.jsonTables ∧
        c.branchTables ≤ c'.branchTables ∧
        (c.droppedReturning = true → c'.droppedReturning = true)) ∧
    s.Oversees σ c σ.OnlyRoots := by
  have hrestores := fun e depth => s.restores_renderAt (σ := σ) e depth hjson c rfl
  refine ⟨fun text c' hrun => ?_, fun e depth => (hrestores e depth).1⟩
  obtain ⟨depth, hdepth⟩ : ∃ depth, s.depthBound = depth + 1 :=
    Nat.exists_eq_succ_of_ne_zero (Nat.ne_of_gt (Nat.zero_lt_of_lt s.size_lt_depthBound))
  rw [Statement.render, hdepth] at hrun
  obtain ⟨h, -⟩ := (hrestores (.ofFault .endlessWindows) depth).2 text c' hrun
  have hout : c'.outputTable = none := by
    rcases h.outputTable with h | h
    · exact h.trans houtput
    · exact h
  exact ⟨h.scopes, h.frames, h.forJson, hout, h.params, h.jsonTables, h.branchTables,
    h.droppedReturning⟩

/-- A query that reads a common table expression of its own. -/
def lateOrders : Statement :=
  .select { Select.empty with
    ctes := [⟨"late", .select { Select.empty with
      projection := [⟨"id", .field "orders" "id" none⟩]
      sources := [.table (.ofName "orders")] }, false⟩]
    projection := [⟨"id", .field "late" "id" none⟩]
    sources := [.table (.ofName "late")]
    orderBy := [⟨.param "key" none, .asc, none⟩] }

/-- A state amid the ordering of another query, which also has a common table expression, and which
    wants a query that ends as JSON. -/
def amidOrdering : Context :=
  { Context.start .positional with
    params := (Collector.empty .positional).push ⟨some "day", none, none⟩
    scopes := [{ Scope.ofSources [] [.table (.ofName "users")] [] with postProjection := true }]
    frames := [[("early", some ["id"])]]
    forJson := some false }

/-- The outer query alone ends as JSON, and what it has opened is closed. -/
theorem statement_restores_state_here :
    (∃ text c', lateOrders.render (.ofOptions .msSql {}) amidOrdering = .ok (text, c') ∧
      text = "WITH late AS (SELECT id FROM orders) SELECT id FROM late ORDER BY ?" ++
        " FOR JSON PATH, INCLUDE_NULL_VALUES" ∧
      c'.scopes = amidOrdering.scopes ∧ c'.frames = amidOrdering.frames ∧ c'.forJson = none ∧
      amidOrdering.params.params <+: c'.params.params) ∧
    lateOrders.Oversees (.ofOptions .msSql {}) amidOrdering
      (Setting.OnlyRoots (.ofOptions .msSql {})) := by
  have htext : (lateOrders.render (.ofOptions .msSql {}) amidOrdering).map Prod.fst =
      .ok ("WITH late AS (SELECT id FROM orders) SELECT id FROM late ORDER BY ?" ++
        " FOR JSON PATH, INCLUDE_NULL_VALUES") := by
    decide +kernel
  obtain ⟨hstate, hoversees⟩ :=
    statement_restores_state lateOrders (.ofOptions .msSql {}) amidOrdering rfl (.inr rfl)
  refine ⟨?_, hoversees⟩
  cases hrun : lateOrders.render (.ofOptions .msSql {}) amidOrdering with
  | error e =>
    rw [hrun] at htext
    cases htext
  | ok p =>
    rw [hrun] at htext
    obtain ⟨hscopes, hframes, hjson, -, hparams, -⟩ := hstate p.1 p.2 hrun
    exact ⟨p.1, p.2, rfl, Except.ok.inj htext, hscopes, hframes, hjson, hparams⟩

end QueryPlan
