import QueryPlan.Compile.Output
import QueryPlan.Proofs.Compile.RelatedMutation

/-!
# What holds throughout a compilation

A renderer writes a phrase by asking for other phrases in their places, so that two renderers agree
on a phrase if they agree on all that it asks for (`agreeAt_deeper`). By that, a rule can be checked
along a compilation: `Renderer.watched` looks at the state before each phrase and gives up if the
rule is broken there. A compilation that never gives up keeps the rule (`Statement.Throughout`), and
it does so if the rule holds of all phrases that it comes to, in all states of their places.

What a compilation writes is not all that the plan holds, nor all that it may come to in some state.
`Statement.Writes` says it of the run itself: to give up there would change its end.
-/

namespace QueryPlan

variable {σ : Setting} {k : Place} {r r' : Renderer}

variable {rule : Phrase → Context → Prop} {p : Phrase}

/-! ## 1. Agreement -/

/-- The relation between steps that give the same. -/
def agreement (σ : Setting) : StepRelation σ where
  Out _ _ _ x x' := x' = x
  Change _ _ := True
  ok _ _ := rfl
  error _ _ := rfl
  bind := by
    rintro _ _ α β c x x' f f' rfl hf
    cases x' with
    | error e => rfl
    | ok p => exact hf p rfl
  quiet _ _ := trivial
  named _ _ _ := trivial
  value _ _ _ := trivial
  repeatSince _ _ := trivial

/-- Renderers that agree on a phrase in a place. -/
abbrev AgreeAt (σ : Setting) (k : Place) (r r' : Renderer) (p : Phrase) : Prop :=
  (agreement σ).At k r r' p

/-- Renderers that agree on all that a phrase asks for agree on the phrase one step up. -/
theorem agreeAt_deeper (h : ∀ p' k', Asks σ p k p' k' → AgreeAt σ k' r r' p') :
    AgreeAt σ k r.deeper r'.deeper p := by
  cases p with
  | expr e =>
    exact StepRelation.expr_deeper h fun value type _ _ => .literal (fun _ _ => rfl) value
  | statement s => exact StepRelation.statement_deeper h fun _ => trivial

/-! ## 2. Depth -/

/-- A renderer that writes nothing. -/
def Renderer.stuck (e : Error) : Renderer :=
  ⟨fun _ => Compile.fail e, fun _ => Compile.fail e⟩

/-- A renderer that takes some steps of its own and leaves the rest to another. -/
def Renderer.unrolled (base : Renderer) : Nat → Renderer
  | 0 => base
  | depth + 1 => (base.unrolled depth).deeper

/-- Every renderer that is made of steps keeps the places. -/
theorem agreeAt_self (fault : Error) (depth : Nat) (k : Place) (p : Phrase) :
    AgreeAt σ k ((Renderer.stuck fault).unrolled depth) ((Renderer.stuck fault).unrolled depth) p := by
  induction depth generalizing k p with
  | zero =>
    cases p <;> exact fun _ _ => ⟨rfl, fun _ _ hrun => nomatch hrun⟩
  | succ depth ih => exact agreeAt_deeper fun p' k' _ => ih k' p'

/-- What ends the writing of windows that have no end. -/
def Renderer.bottom : Renderer :=
  .stuck (.ofFault .endlessWindows)

theorem renderAt_eq_unrolled (depth : Nat) :
    (⟨Expr.renderAt depth, Statement.renderAt depth⟩ : Renderer) =
      Renderer.bottom.unrolled depth := by
  induction depth with
  | zero =>
    simp only [Renderer.unrolled, Renderer.bottom, Renderer.stuck, Renderer.mk.injEq]
    exact ⟨funext fun _ => rfl, funext fun _ => rfl⟩
  | succ depth ih =>
    rw [Renderer.unrolled, ← ih]
    rfl

theorem Statement.renderAt_eq_unrolled (s : Statement) (depth : Nat) :
    s.renderAt depth = (Renderer.bottom.unrolled depth).statement s := by
  rw [← QueryPlan.renderAt_eq_unrolled]

/-- The recursion of the compiler: `asked` is one of the phrases that `asking` needs. -/
def Asked (σ : Setting) (asked asking : Phrase × Place) : Prop :=
  Asks σ asking.1 asking.2 asked.1 asked.2

/-- The compilation of a statement that ends: no phrase asks for others without end. -/
def Statement.Ends (s : Statement) (σ : Setting) : Prop :=
  Acc (Asked σ) (.statement s, .start)

section Measure

variable {s : Statement} {μ : Phrase → Place → Nat}
  (hμ : ∀ p k p' k', Reaches σ s p k → Asks σ p k p' k' → μ p' k' < μ p k)
include hμ

/-- A compilation ends if all that is asked for is smaller than what asks for it. -/
theorem Statement.ends_of_measure : s.Ends σ := by
  have hacc : ∀ n p k, μ p k < n → Reaches σ s p k → Acc (Asked σ) (p, k) := by
    intro n
    induction n with
    | zero => exact fun p k hlt _ => absurd hlt (Nat.not_lt_zero _)
    | succ n ih =>
      intro p k hlt hp
      refine ⟨_, fun q hq => ih q.1 q.2 ?_ (hp.step hq)⟩
      have := hμ p k q.1 q.2 hp hq
      omega
  exact hacc _ _ _ (Nat.lt_succ_self _) .start

/-- Behind the measure of a phrase it does not matter what is left to which renderer. -/
theorem agreeAt_unrolled (base base' : Renderer) {depth depth' : Nat} {k : Place}
    (hp : Reaches σ s p k) (hlt : μ p k < depth) (hlt' : μ p k < depth') :
    AgreeAt σ k (base.unrolled depth) (base'.unrolled depth') p := by
  induction depth generalizing depth' p k with
  | zero => exact absurd hlt (Nat.not_lt_zero _)
  | succ depth ih =>
    obtain ⟨depth', rfl⟩ : ∃ n, depth' = n + 1 := ⟨depth' - 1, by omega⟩
    refine agreeAt_deeper fun p' k' ha => ?_
    have := hμ p k p' k' hp ha
    exact ih (hp.step ha) (by omega) (by omega)

end Measure

/-! ## 3. Rules -/

open Classical in
/-- A renderer that gives up where a rule is broken. -/
noncomputable def Renderer.watched (r : Renderer) (rule : Phrase → Context → Prop) (e : Error) :
    Renderer where
  expr x := do if rule (.expr x) (← get) then r.expr x else Compile.fail e
  statement s := do if rule (.statement s) (← get) then r.statement s else Compile.fail e

section Watched

variable {rule : Phrase → Context → Prop} {e : Error} {s : Statement} {c : Context}

theorem Renderer.watched_expr_run {x : Expr} (h : rule (.expr x) c) :
    (r.watched rule e).expr x σ c = r.expr x σ c :=
  (Compile.bind_run Compile.get_run).trans (by rw [if_pos h])

theorem Renderer.watched_statement_run (h : rule (.statement s) c) :
    (r.watched rule e).statement s σ c = r.statement s σ c :=
  (Compile.bind_run Compile.get_run).trans (by rw [if_pos h])

theorem Renderer.watched_expr_error {x : Expr} (h : ¬rule (.expr x) c) :
    (r.watched rule e).expr x σ c = .error e :=
  (Compile.bind_run Compile.get_run).trans (by rw [if_neg h]; rfl)

theorem Renderer.watched_statement_error (h : ¬rule (.statement s) c) :
    (r.watched rule e).statement s σ c = .error e :=
  (Compile.bind_run Compile.get_run).trans (by rw [if_neg h]; rfl)

end Watched

/-- Writes down to a depth, and gives up where a rule is broken. -/
noncomputable def watchedAt (rule : Phrase → Context → Prop) (e : Error) : Nat → Renderer
  | 0 => .bottom
  | depth + 1 => (watchedAt rule e depth).deeper.watched rule e

/-- **A rule that holds throughout the compilation of a statement**: before each phrase, in the
    state that the compilation has then. To give up where it does not hold changes nothing. -/
def Statement.Throughout (s : Statement) (σ : Setting) (c : Context)
    (rule : Phrase → Context → Prop) : Prop :=
  ∀ e depth, (watchedAt rule e depth).statement s σ c = s.renderAt depth σ c

open Classical in
/-- A step agrees with one that is watched where the rule holds. -/
theorem agreement_watched {α : Type} {k k' : States σ} {e : Error} {x x' : Compile α}
    (h : (agreement σ).Rel false k k' (fun _ => True) x x') (hrule : ∀ c, k c → rule p c) :
    (agreement σ).Rel false k k' (fun _ => True) x
      (do if rule p (← get) then x' else Compile.fail e) := by
  intro c hc
  rw [Compile.bind_run Compile.get_run, if_pos (hrule c hc)]
  exact h c hc

theorem agreeAt_watched {e : Error} (h : AgreeAt σ k r r' p)
    (hrule : ∀ c, k.Fits σ.dialect c → rule p c) : AgreeAt σ k r (r'.watched rule e) p := by
  cases p <;> exact agreement_watched h hrule

/-- **Rules and places**: what holds of all phrases that a compilation comes to, in all states of
    their places, holds throughout the compilation. -/
theorem Statement.throughout_of_reaches {s : Statement}
    (h : ∀ p k c, Reaches σ s p k → k.Fits σ.dialect c → rule p c) (style : PlaceholderStyle) :
    s.Throughout σ (.start style) rule := by
  intro e depth
  have hagree : ∀ p k, Reaches σ s p k →
      AgreeAt σ k (Renderer.bottom.unrolled depth) (watchedAt rule e depth) p := by
    induction depth with
    | zero =>
      intro p k _
      cases p <;> exact .fault _
    | succ depth ih =>
      intro p k hp
      refine agreeAt_watched (agreeAt_deeper fun p' k' ha => ih p' k' (hp.step ha)) ?_
      exact fun c hc => h p k c hp hc
  rw [s.renderAt_eq_unrolled]
  exact (hagree (.statement s) .start .start (.start style) (Place.fits_start _ _)).1

/-! ## 4. What is written -/

/-- **A phrase of some kind is written** by the compilation of a statement: one that gives up there
    ends so, whatever its error. -/
def Statement.Writes (s : Statement) (d : Dialect) (o : Options) (kind : Phrase → Prop) : Prop :=
  ∀ e, (watchedAt (fun p _ => ¬kind p) e s.depthBound).statement s (.ofOptions d o)
    (.start d.placeholder) = .error e

theorem Statement.runRender_eq (s : Statement) (d : Dialect) (o : Options) :
    s.runRender d o =
      (Renderer.bottom.unrolled s.depthBound).statement s (.ofOptions d o)
        (.start d.placeholder) := by
  rw [← s.renderAt_eq_unrolled]
  rfl

/-- A compilation writes nothing that it cannot come to. -/
theorem Statement.Writes.exists_reaches {s : Statement} {d : Dialect} {o : Options}
    {kind : Phrase → Prop} (h : s.Writes d o kind) :
    ∃ p k, Reaches (.ofOptions d o) s p k ∧ kind p := by
  by_contra hnone
  have hthrough : s.Throughout (.ofOptions d o) (.start d.placeholder) fun p _ => ¬kind p :=
    Statement.throughout_of_reaches (fun p k _ hp _ hkind => hnone ⟨p, k, hp, hkind⟩) _
  -- All errors would be the one with which the compilation ends.
  have hsame : ∀ e, s.renderAt s.depthBound (.ofOptions d o) (.start d.placeholder) = .error e :=
    fun e => (hthrough e s.depthBound).symm.trans (h e)
  have heq := (hsame (.ofCause (.note ""))).symm.trans (hsame (.ofFault .endlessWindows))
  cases heq

end QueryPlan
