import QueryPlan.Proofs.Compile.Places
import QueryPlan.Proofs.Compile.Run
import QueryPlan.Proofs.Decode.Columns

/-!
# Relations between steps

Many facts about a compilation hold because each of its steps keeps to some rule, beside the steps
of another run. Such a rule is a `StepRelation`: it says how the outcome of one step and that of the
other have to do with each other (`StepRelation.Out`), and it is kept by sequence. The rule that
says least is that both are the same.

`StepRelation.Rel` takes a rule to the states of a compilation: two steps are related if their
outcomes are, in every state of some kind, and if they leave a state of some kind again. Nothing is
asked of the steps in other states, so that a fact about a phrase has to be known only where the
phrase is asked for. A place of a plan has the states that fit it. A step that is related to itself
keeps its states; for the steps that the pieces of the compiler are made of there is one lemma of
this form each, of the name of the step. Those that note something ask for states that this does not
lead out of (`Stable`).

A relation may tell *marked* steps from others. A sequence with a marked step in it is marked. The
only step that can be marked is the one that plans where returned columns are written.
-/

namespace QueryPlan

/-! ## 1. Results that report no missing feature -/

/-- A result that is no error about a missing feature. -/
def Supported {α : Type} (x : Except Error α) : Prop :=
  ∀ e, x = .error e → e.isUnsupported = false

namespace Supported

variable {α β : Type} {x : Except Error α} {f : α → Except Error β}

theorem ok (a : α) : Supported (.ok a) := by
  intro e he
  cases he

theorem bind (hx : Supported x) (hf : ∀ a, Supported (f a)) : Supported (x >>= f) := by
  intro e he
  rcases Except.bind_eq_error_iff.1 he with he | ⟨a, -, he⟩
  · exact hx e he
  · exact hf a e he

theorem map (g : α → β) (hx : Supported x) : Supported (x >>= fun a => pure (g a)) :=
  hx.bind fun a => ok (g a)

end Supported

section Lenient

variable {σ : Setting} (hσ : σ.strict = false)
include hσ

theorem supported_lookup {κ : Type} [Worded κ] (r : Registry κ) (key : κ) (params : Params) :
    Supported (r.lookup key params σ.strict) := by
  rw [hσ, Registry.lookup, Bool.and_false]
  exact .ok _

theorem supported_get {κ : Type} [Worded κ] (r : Registry κ) (key : κ) (params : Params) :
    Supported (r.get key params σ.strict) :=
  .map _ (supported_lookup hσ r key params)

theorem supported_writeLiteral (kind : LiteralKind) (params : Params) :
    Supported (σ.writeLiteral kind params) :=
  .map _ (supported_get hσ _ kind params)

/-- A type that is no array: a wider type is taken where there are no unsigned numbers. -/
theorem supported_scalarType (type : DataType) :
    Supported (if σ.dialect.has .unsigned then σ.plainType type
      else match type.signedFallback? with
        | some signed =>
          if σ.strict then throw (Error.unsupported "UNSIGNED") else σ.plainType signed
        | none => σ.plainType type) := by
  have hplain : ∀ t, Supported (σ.plainType t) := fun t => supported_get hσ _ _ _
  split
  · exact hplain type
  · cases type.signedFallback? with
    | none => exact hplain type
    | some signed =>
      rw [hσ]
      exact hplain signed

theorem supported_typeName (type : DataType) : Supported (σ.typeName type) := by
  induction type with
  | array element ih => exact ih.bind fun _ => supported_get hσ _ _ _
  | _ => exact supported_scalarType hσ _

theorem supported_limitOffset (limit offset : Option UInt64) :
    Supported (σ.limitOffset limit offset) := by
  refine Supported.bind ?_ fun limitPart => .map _ ?_
  · cases limit with
    | none => exact .ok _
    | some n => exact .map _ (supported_get hσ _ _ _)
  · cases offset with
    | none => exact .ok _
    | some m => exact .map _ (supported_get hσ _ _ _)

theorem supported_offsetFetch (limit offset : Option UInt64) (hasOrder : Bool) :
    Supported (σ.offsetFetch limit offset hasOrder) := by
  refine (supported_get hσ _ _ _).bind fun tail => ?_
  split
  · exact .map _ (supported_get hσ _ _ _)
  · exact .ok _

theorem supported_paging (limit offset : Option UInt64) (hasOrder canTop : Bool) :
    Supported (σ.paging limit offset hasOrder canTop) := by
  unfold Setting.paging
  split
  · exact .ok _
  · split
    · exact .map _ (supported_get hσ _ _ _)
    · split
      · exact .map _ (supported_limitOffset hσ limit offset)
      · exact .map _ (supported_offsetFetch hσ limit offset hasOrder)

end Lenient

/-! ## 2. Relations -/

/-- **A relation between the outcomes of two steps** in a setting, where both start in one state. -/
structure StepRelation (σ : Setting) where
  Out : (marked : Bool) → {α : Type} → Context → Except Error (α × Context) →
    Except Error (α × Context) → Prop
  /-- What both steps may make of the state. -/
  Change : Context → Context → Prop
  ok : ∀ {α : Type} {c : Context} (p : α × Context), Change c p.2 → Out false c (.ok p) (.ok p)
  /-- In lenient mode no missing feature is reported, except for constants in place. -/
  error : ∀ {α : Type} {c : Context} (e : Error), (σ.strict = false → e.isUnsupported = false) →
    Out false c (.error e : Except Error (α × Context)) (.error e)
  bind : ∀ {m n : Bool} {α β : Type} {c : Context} {x x' : Except Error (α × Context)}
    {f f' : α × Context → Except Error (β × Context)},
    Out m c x x' → (∀ p, x = .ok p → Out n p.2 (f p) (f' p)) → Out (m || n) c (x >>= f) (x' >>= f')
  quiet : ∀ {c c' : Context}, c'.params = c.params → c'.droppedReturning = c.droppedReturning →
    Change c c'
  named : ∀ (c : Context) (name : String) (type : Option DataType),
    Change c { c with params := (c.params.named name type).2 }
  value : ∀ (c : Context) (v : Value) (type : Option DataType),
    Change c { c with params := (c.params.value v type).2 }
  repeatSince : ∀ (c : Context) (mark : Nat),
    Change c { c with params := c.params.repeatSince mark }

namespace Collector

/-! Parameters are only added. -/

theorem prefix_placeOf (c : Collector) (name : String) (p : Parameter) :
    c.params <+: (c.placeOf name p).2.params := by
  rw [placeOf]
  split
  · exact List.prefix_rfl
  · exact List.prefix_append _ _

theorem prefix_named (c : Collector) (name : String) (type : Option DataType) :
    c.params <+: (c.named name type).2.params := by
  rw [named]
  split
  · exact List.prefix_append _ _
  · exact c.prefix_placeOf _ _
  · exact c.prefix_placeOf _ _

theorem prefix_value (c : Collector) (v : Value) (type : Option DataType) :
    c.params <+: (c.value v type).2.params := by
  rw [value]
  split <;> exact List.prefix_append _ _

theorem prefix_repeatSince (c : Collector) (mark : Nat) :
    c.params <+: (c.repeatSince mark).params := by
  rw [repeatSince]
  split
  · exact List.prefix_append _ _
  · exact List.prefix_rfl

end Collector

/-- Some states of the compilations in a setting. -/
def States (_ : Setting) : Type :=
  Context → Prop

/-- The states of a place are those that fit it. -/
instance (σ : Setting) : CoeTail Place (States σ) :=
  ⟨fun k => k.Fits σ.dialect⟩

/-- States that are not left when something is noted: a parameter, a name for a derived table, or
    that columns are not returned. -/
class Stable {σ : Setting} (k : States σ) : Prop where
  params : ∀ {c : Context} {params : Collector}, k c → c.params.params <+: params.params →
    k { c with params }
  jsonTables : ∀ {c : Context}, k c → k { c with jsonTables := c.jsonTables + 1 }
  branchTables : ∀ {c : Context}, k c → k { c with branchTables := c.branchTables + 1 }
  droppedReturning : ∀ {c : Context}, k c → k { c with droppedReturning := true }

instance (σ : Setting) (k : Place) : @Stable σ k where
  params h _ := ⟨h.scopes, h.frames⟩
  jsonTables h := ⟨h.scopes, h.frames⟩
  branchTables h := ⟨h.scopes, h.frames⟩
  droppedReturning h := ⟨h.scopes, h.frames⟩

namespace StepRelation

variable {α β γ : Type} {σ : Setting} {R : StepRelation σ} {k k₁ k' : States σ} {m n : Bool}

/-- **Steps that are related** in some states: their outcomes are and, if the first one succeeds, it
    ends in some states with a value that satisfies a condition. -/
def Rel (R : StepRelation σ) (m : Bool) (k k' : States σ) (P : α → Prop) (x x' : Compile α) :
    Prop :=
  ∀ c, k c → R.Out m c (x σ c) (x' σ c) ∧ ∀ a c', x σ c = .ok (a, c') → k' c' ∧ P a

/-- Steps that are related in some states and keep them. -/
abbrev Keep (R : StepRelation σ) (k : States σ) (x x' : Compile α) : Prop :=
  R.Rel false k k (fun _ => True) x x'

namespace Rel

variable {P : α → Prop} {Q : β → Prop} {x x' y y' : Compile α} {f f' : α → Compile β}

theorem pure {a : α} (h : P a) : R.Rel false k k P (Pure.pure a) (Pure.pure a) := by
  intro c hc
  refine ⟨R.ok (a, c) (R.quiet rfl rfl), fun b c' hb => ?_⟩
  cases hb
  exact ⟨hc, h⟩

theorem fail (e : Error) (he : σ.strict = false → e.isUnsupported = false) :
    R.Rel false k k' P (Compile.fail e) (Compile.fail e) :=
  fun _ _ => ⟨R.error e he, fun _ _ h => nomatch h⟩

theorem fault (f : PlanFault) :
    R.Rel false k k' P (Compile.fail (.ofFault f)) (Compile.fail (.ofFault f)) :=
  fail _ fun _ => rfl

theorem seq (hx : R.Rel m k k₁ P x x') (hf : ∀ a, P a → R.Rel n k₁ k' Q (f a) (f' a)) :
    R.Rel (m || n) k k' Q (x >>= f) (x' >>= f') := by
  intro c hc
  obtain ⟨hout, hend⟩ := hx c hc
  -- the first step ends in a state of the place in which the second steps are related
  refine ⟨R.bind hout fun p hp => ?_, fun b c' hb => ?_⟩
  · obtain ⟨hfit, ha⟩ := hend p.1 p.2 hp
    exact (hf p.1 ha p.2 hfit).1
  · obtain ⟨a, c₁, ha, hb⟩ := Compile.bind_eq_ok.1 hb
    obtain ⟨hfit, hp⟩ := hend a c₁ ha
    exact (hf a hp c₁ hfit).2 b c' hb

theorem bind (hx : R.Rel false k k₁ P x x') (hf : ∀ a, P a → R.Rel m k₁ k' Q (f a) (f' a)) :
    R.Rel m k k' Q (x >>= f) (x' >>= f') :=
  seq hx hf

/-- What follows a marked step. -/
theorem follow (hx : R.Rel m k k₁ P x x') (hf : ∀ a, P a → R.Rel false k₁ k' Q (f a) (f' a)) :
    R.Rel m k k' Q (x >>= f) (x' >>= f') := by
  rw [← m.or_false]
  exact seq hx hf

/-- A step whose value is known, and which changes nothing. -/
theorem known {a : α} (hx : ∀ c, k c → x σ c = .ok (a, c))
    (hf : R.Rel m k k' Q (f a) (f' a)) : R.Rel m k k' Q (x >>= f) (x >>= f') := by
  have hvalue : R.Rel false k k (fun b => b = a) x x := by
    intro c hc
    rw [hx c hc]
    refine ⟨R.ok (a, c) (R.quiet rfl rfl), fun b c' hb => ?_⟩
    cases hb
    exact ⟨hc, rfl⟩
  refine hvalue.bind ?_
  rintro _ rfl
  exact hf

theorem ite {b : Prop} [Decidable b] (hx : b → R.Rel m k k' P x x')
    (hy : ¬b → R.Rel m k k' P y y') :
    R.Rel m k k' P (if b then x else y) (if b then x' else y') := by
  by_cases h : b
  · rw [if_pos h, if_pos h]
    exact hx h
  · rw [if_neg h, if_neg h]
    exact hy h

/-- A value that is made of the result of a step. -/
theorem map (g : α → β) (hx : R.Keep k x x') :
    R.Keep k (x >>= fun a => Pure.pure (g a)) (x' >>= fun a => Pure.pure (g a)) :=
  bind hx fun _ _ => pure trivial

/-- A step that succeeds in every state. -/
theorem ofRun {g : Context → α × Context} (hx : ∀ c, x σ c = .ok (g c))
    (hg : ∀ c, k c → k' (g c).2) (hchange : ∀ c, R.Change c (g c).2) :
    R.Rel false k k' (fun _ => True) x x := by
  intro c hc
  rw [hx c]
  refine ⟨R.ok (g c) (hchange c), fun a c' h => ?_⟩
  have hend : (g c).2 = c' := congrArg Prod.snd (Except.ok.inj h)
  rw [← hend]
  exact ⟨hg c hc, trivial⟩

/-- A change of the state. -/
theorem changing {g : Context → Context} (hg : ∀ c, k c → k' (g c))
    (hchange : ∀ c, R.Change c (g c)) :
    R.Rel false k k' (fun _ => True) (modify g : Compile PUnit) (modify g) :=
  ofRun (fun _ => rfl) hg hchange

end Rel

namespace Keep

variable {Q : β → Prop} {x x' y y' : Compile α} {f f' : α → Compile β}

theorem bind (hx : R.Keep k x x') (hf : ∀ a, R.Rel m k k' Q (f a) (f' a)) :
    R.Rel m k k' Q (x >>= f) (x' >>= f') :=
  Rel.bind hx fun a _ => hf a

/-- A step that is taken under a condition, with what follows in any case. -/
theorem guard {b : Prop} [Decidable b] {x x' : Compile PUnit} {f f' : PUnit → Compile β}
    (hx : b → R.Keep k x x') (hf : R.Rel m k k' Q (f ⟨⟩) (f' ⟨⟩)) :
    R.Rel m k k' Q (if b then x >>= f else f ⟨⟩) (if b then x' >>= f' else f' ⟨⟩) :=
  .ite (fun h => (hx h).bind fun _ => hf) fun _ => hf

theorem ofExcept {r : Except Error α} (h : σ.strict = false → Supported r) :
    R.Keep k (Compile.ofExcept r) (Compile.ofExcept r) := by
  cases r with
  | error e => exact .fail e fun hσ => h hσ e rfl
  | ok a => exact .pure trivial

theorem mapM {g g' : γ → Compile α} {list : List γ} (h : ∀ i ∈ list, R.Keep k (g i) (g' i)) :
    R.Keep k (list.mapM g) (list.mapM g') := by
  induction list with
  | nil =>
    rw [List.mapM_nil, List.mapM_nil]
    exact .pure trivial
  | cons i rest ih =>
    rw [List.mapM_cons, List.mapM_cons]
    refine (h i List.mem_cons_self).bind fun a => ?_
    exact .map (a :: ·) (ih fun j hj => h j (List.mem_cons_of_mem i hj))

theorem forM {g g' : γ → Compile PUnit} {list : List γ} (h : ∀ i ∈ list, R.Keep k (g i) (g' i)) :
    R.Keep k (list.forM g) (list.forM g') := by
  induction list with
  | nil => exact .pure trivial
  | cons i rest ih =>
    exact (h i List.mem_cons_self).bind fun _ => ih fun j hj => h j (List.mem_cons_of_mem i hj)

/-! ## 3. Steps that the dialect decides, and parameters -/

theorem has (f : Feature) : R.Keep k (Compile.has f) (Compile.has f) :=
  .ofRun (g := fun c => (σ.dialect.has f, c)) (fun _ => rfl) (fun _ => id) fun _ => R.quiet rfl rfl

theorem quote (ident : String) : R.Keep k (Compile.quote ident) (Compile.quote ident) :=
  .ofRun (g := fun c => (σ.dialect.quoteIdent ident, c)) (fun _ => rfl) (fun _ => id)
    fun _ => R.quiet rfl rfl

theorem missing (feature : String) :
    R.Keep k (Compile.missing feature) (Compile.missing feature) := by
  refine .known (fun _ _ => rfl) (.ite (fun hstrict => .fail _ fun hσ => ?_) fun _ => .pure trivial)
  rw [hσ] at hstrict
  cases hstrict

theorem write {κ : Type} [Worded κ] (family : Formats → Registry κ) (key : κ) (params : Params) :
    R.Keep k (Compile.write family key params) (Compile.write family key params) :=
  .known (fun _ _ => rfl)
    (.known (fun _ _ => rfl) (ofExcept fun hσ => supported_get hσ _ key params))

theorem lookup {κ : Type} [Worded κ] (family : Formats → Registry κ) (key : κ) (params : Params) :
    R.Keep k (Compile.lookup family key params) (Compile.lookup family key params) :=
  .known (fun _ _ => rfl)
    (.known (fun _ _ => rfl) (ofExcept fun hσ => supported_lookup hσ _ key params))

theorem keyword (key : Keyword) (params : Params) :
    R.Keep k (Compile.keyword key params) (Compile.keyword key params) :=
  write Formats.keywords key params

theorem mark : R.Keep k Compile.mark Compile.mark :=
  .ofRun (fun _ => rfl) (fun _ => id) fun _ => R.quiet rfl rfl

section Notes

variable [Stable k]

theorem argument (name : String) (type : Option DataType) :
    R.Keep k (Compile.argument name type) (Compile.argument name type) :=
  .ofRun (fun _ => rfl) (fun c hc => Stable.params hc (c.params.prefix_named name type))
    fun c => R.named c name type

theorem constant (value : Value) (type : Option DataType) :
    R.Keep k (Compile.constant value type) (Compile.constant value type) :=
  .ofRun (fun _ => rfl) (fun c hc => Stable.params hc (c.params.prefix_value value type))
    fun c => R.value c value type

theorem repeatSince (start : Nat) :
    R.Keep k (Compile.repeatSince start) (Compile.repeatSince start) :=
  .ofRun (fun _ => rfl) (fun c hc => Stable.params hc (c.params.prefix_repeatSince start))
    fun c => R.repeatSince c start

theorem freshJsonTable : R.Keep k Compile.freshJsonTable Compile.freshJsonTable :=
  .ofRun (fun _ => rfl) (fun _ => Stable.jsonTables) fun _ => R.quiet rfl rfl

theorem freshBranchTable : R.Keep k Compile.freshBranchTable Compile.freshBranchTable :=
  .ofRun (fun _ => rfl) (fun _ => Stable.branchTables) fun _ => R.quiet rfl rfl

end Notes

theorem qualifier (label name : String) :
    R.Keep k (Compile.qualifier label name) (Compile.qualifier label name) := by
  intro c hc
  obtain ⟨o, hrun⟩ : ∃ o, Compile.qualifier label name σ c = .ok (o, c) := by
    unfold Compile.qualifier
    cases ho : c.outputTable with
    | none | some x => exact ⟨_, by rw [Compile.bind_run Compile.get_run]; simp only [ho]; rfl⟩
  rw [hrun]
  refine ⟨R.ok (o, c) (R.quiet rfl rfl), fun a c' h => ?_⟩
  cases h
  exact ⟨hc, trivial⟩

/-- A constant without a value in place. -/
theorem null : R.Keep k (Compile.literal .null) (Compile.literal .null) :=
  .known (fun _ _ => rfl) (ofExcept fun hσ => supported_writeLiteral hσ _ _)

/-- A constant in place, in a relation in which it does not matter what the error is. -/
theorem literal (h : ∀ (c : Context) (e : Error),
      R.Out false c (.error e : Except Error (Fragment × Context)) (.error e)) (value : Value) :
    R.Keep k (Compile.literal value) (Compile.literal value) := by
  refine .known (fun _ _ => rfl) ?_
  cases σ.literal value with
  | error e => exact fun c _ => ⟨h c e, fun _ _ hrun => nomatch hrun⟩
  | ok a => exact .pure trivial

theorem typeName (type : DataType) :
    R.Keep k (Compile.typeName type) (Compile.typeName type) :=
  .known (fun _ _ => rfl) (ofExcept fun hσ => supported_typeName hσ type)

theorem paging (limit offset : Option UInt64) (hasOrder canTop : Bool) :
    R.Keep k (Compile.paging limit offset hasOrder canTop)
      (Compile.paging limit offset hasOrder canTop) :=
  .known (fun _ _ => rfl) (ofExcept fun hσ => supported_paging hσ limit offset hasOrder canTop)

end Keep

/-! ## 4. Steps that open something -/

namespace Rel

variable {P : α → Prop} {x x' : Compile α} {k₂ : States σ}

/-- A part of a statement for which something is opened and closed again. -/
theorem around {before after : Compile PUnit} (hx : R.Rel m k₁ k₂ P x x')
    (hbefore : R.Rel false k k₁ (fun _ => True) before before)
    (hafter : R.Rel false k₂ k' (fun _ => True) after after) :
    R.Rel m k k' P (do before; let a ← x; after; Pure.pure a)
      (do before; let a ← x'; after; Pure.pure a) :=
  hbefore.bind fun _ _ => hx.follow fun _ ha => hafter.bind fun _ _ => pure ha

theorem inFrame (henter : ∀ c, k c → k₁ { c with frames := [] :: c.frames })
    (hleave : ∀ c, k₂ c → k' { c with frames := c.frames.tail }) (hx : R.Rel m k₁ k₂ P x x') :
    R.Rel m k k' P (Compile.inFrame x) (Compile.inFrame x') :=
  hx.around (changing henter fun _ => R.quiet rfl rfl) (changing hleave fun _ => R.quiet rfl rfl)

theorem inForJson {single : Bool} (hopen : ∀ c, k c → k₁ { c with forJson := some single })
    (hclose : ∀ c, k₂ c → k' { c with forJson := none }) (hx : R.Rel m k₁ k₂ P x x') :
    R.Rel m k k' P (Compile.inForJson single x) (Compile.inForJson single x') :=
  hx.around (changing hopen fun _ => R.quiet rfl rfl) (changing hclose fun _ => R.quiet rfl rfl)

theorem takeForJson : R.Rel false (fun c => k { c with forJson := none }) k (fun _ => True)
    Compile.takeForJson Compile.takeForJson :=
  ofRun (fun _ => rfl) (fun _ hc => hc) fun _ => R.quiet rfl rfl

/-- The scope of some sources, which depends on the frames alone. -/
theorem scopeOf {Q : β → Prop} {f f' : Scope → Compile β} {sources : List Source}
    {projection : List Projection}
    (hf : ∀ d : Context, k d →
      R.Rel m (fun c => c = d) k' Q (f (Scope.ofSources d.frames sources projection))
        (f' (Scope.ofSources d.frames sources projection))) :
    R.Rel m k k' Q (Compile.scopeOf sources projection >>= f)
      (Compile.scopeOf sources projection >>= f') :=
  fun d hd => hf d hd d rfl

/-- A change of the innermost scope. -/
theorem modifyScope {g : Scope → Scope}
    (hg : ∀ c, k c → k' { c with scopes := c.scopes.modifyHead g }) :
    R.Rel false k k' (fun _ => True) (Compile.modifyScope g) (Compile.modifyScope g) := by
  refine ofRun (g := fun c => (⟨⟩, { c with scopes := c.scopes.modifyHead g })) (fun c => ?_) hg
    fun _ => R.quiet rfl rfl
  obtain ⟨params, scopes⟩ := c
  cases scopes <;> rfl

end Rel

end StepRelation

/-! ## 5. Inside of a statement -/

/-- How a clause sees the scope of its statement: as it is opened, behind the projection, with every
    column qualified, or with a pseudo table for the target. -/
inductive ScopeMode where
  | plain
  | projected
  | qualified
  | output

/-- **The states inside of a statement**, which starts in some states and ends in some: those in
    front of its common table expressions, those behind them, and those of its clauses. A query has
    taken the wish that it ends as JSON. -/
structure Interior (σ : Setting) (s : Statement) (k k' : States σ) where
  front : States σ
  behind : States σ
  clauses : ScopeMode → States σ
  stableBehind : Stable behind
  stableClauses : ∀ mode, Stable (clauses mode)
  enter : ∀ c, k c →
    front { c with frames := [] :: c.frames, forJson := cond s.isMutation c.forJson none }
  leave : ∀ c, behind c → k' { c with frames := c.frames.tail }
  opens : ∀ c, behind c →
    clauses .plain { c with scopes := s.scope σ.dialect c.frames :: c.scopes }
  closes : ∀ c, clauses .plain c → behind { c with scopes := c.scopes.tail }
  project : ∀ c, clauses .plain c →
    clauses .projected { c with scopes := c.scopes.modifyHead ({ · with postProjection := true }) }
  unproject : ∀ c, clauses .projected c →
    clauses .plain { c with scopes := c.scopes.modifyHead ({ · with postProjection := false }) }
  qualify : ∀ c, clauses .plain c →
    clauses .qualified { c with scopes := c.scopes.modifyHead ({ · with forceQualified := true }) }
  unqualify : ∀ c, clauses .qualified c →
    clauses .plain { c with scopes := c.scopes.modifyHead ({ · with forceQualified := false }) }
  openOutput : ∀ c table, clauses .plain c → clauses .output { c with outputTable := some table }
  closeOutput : ∀ c, clauses .output c → clauses .plain { c with outputTable := none }

attribute [instance] Interior.stableBehind Interior.stableClauses

namespace Interior

variable {α : Type} {σ : Setting} {R : StepRelation σ} {s : Statement} {k k' : States σ} {m : Bool}
  {P : α → Prop} {x x' : Compile α} (L : Interior σ s k k')

theorem inScope {d : Context} (hd : L.behind d)
    (hx : R.Rel m (L.clauses .plain) (L.clauses .plain) P x x') :
    R.Rel m (fun c => c = d) L.behind P (Compile.inScope (s.scope σ.dialect d.frames) x)
      (Compile.inScope (s.scope σ.dialect d.frames) x') := by
  refine hx.around (.changing ?_ fun _ => R.quiet rfl rfl)
    (.changing L.closes fun _ => R.quiet rfl rfl)
  rintro c rfl
  exact L.opens c hd

theorem postProjection (hx : R.Rel m (L.clauses .projected) (L.clauses .projected) P x x') :
    R.Rel m (L.clauses .plain) (L.clauses .plain) P (Compile.postProjection x)
      (Compile.postProjection x') :=
  hx.around (.modifyScope L.project) (.modifyScope L.unproject)

theorem forceQualified (hx : R.Rel m (L.clauses .qualified) (L.clauses .qualified) P x x') :
    R.Rel m (L.clauses .plain) (L.clauses .plain) P (Compile.forceQualified x)
      (Compile.forceQualified x') :=
  hx.around (.modifyScope L.qualify) (.modifyScope L.unqualify)

theorem inOutput {target pseudo : String}
    (hx : R.Rel m (L.clauses .output) (L.clauses .output) P x x') :
    R.Rel m (L.clauses .plain) (L.clauses .plain) P (Compile.inOutput target pseudo x)
      (Compile.inOutput target pseudo x') :=
  hx.around (.changing (fun c => L.openOutput c _) fun _ => R.quiet rfl rfl)
    (.changing L.closeOutput fun _ => R.quiet rfl rfl)

end Interior

/-- The places inside of a statement. -/
def Place.inClausesAs (k : Place) (s : Statement) : ScopeMode → Place
  | .plain | .output => k.inClauses s false false
  | .projected => k.inClauses s true false
  | .qualified => k.inClauses s false true

def Place.interior (σ : Setting) (k : Place) (s : Statement) : Interior σ s k k where
  front := k.behind []
  behind := k.behind s.ctes
  clauses mode := k.inClausesAs s mode
  stableBehind := inferInstance
  stableClauses _ := inferInstance
  enter _ hc := ⟨hc.scopes, congrArg ([] :: ·) hc.frames⟩
  leave _ hc := ⟨hc.scopes, congrArg List.tail hc.frames⟩
  opens c hc := ⟨by rw [hc.frames]; exact congrArg (_ :: ·) hc.scopes, hc.frames⟩
  closes _ hc := ⟨congrArg List.tail hc.scopes, hc.frames⟩
  project _ hc := ⟨congrArg (List.modifyHead _) hc.scopes, hc.frames⟩
  unproject _ hc := ⟨congrArg (List.modifyHead _) hc.scopes, hc.frames⟩
  qualify _ hc := ⟨congrArg (List.modifyHead _) hc.scopes, hc.frames⟩
  unqualify _ hc := ⟨congrArg (List.modifyHead _) hc.scopes, hc.frames⟩
  openOutput _ _ hc := ⟨hc.scopes, hc.frames⟩
  closeOutput _ hc := ⟨hc.scopes, hc.frames⟩

end QueryPlan
