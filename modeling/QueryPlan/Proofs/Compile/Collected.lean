import QueryPlan.Proofs.Compile.Throughout

/-!
# What a compilation notes

A compilation notes parameters in three ways only: for an argument, for a constant, and once more
for text that is printed a second time. So whatever holds of an empty collector and is kept by these
three holds of the parameters of every compiled statement (`Collector.Kept.of_runRender`).
-/

namespace QueryPlan

/-- A property of collectors that is kept by all that notes parameters. -/
structure Collector.Kept (I : Collector → Prop) : Prop where
  named : ∀ {c : Collector} (name : String) (type : Option DataType), I c → I (c.named name type).2
  value : ∀ {c : Collector} (v : Value) (type : Option DataType), I c → I (c.value v type).2
  repeatSince : ∀ {c : Collector} (mark : Nat), I c → I (c.repeatSince mark)

/-- The steps of a compilation that keep a property of its parameters if they succeed. -/
def Collector.Kept.keeping {I : Collector → Prop} (hI : Collector.Kept I) (σ : Setting) :
    StepRelation σ where
  Out _ _ c x _ := ∀ p, x = .ok p → I c.params → I p.2.params
  Change c c' := I c.params → I c'.params
  ok _ h _ hp := Except.ok.inj hp ▸ h
  error _ _ _ hp := nomatch hp
  bind hx hf := by
    intro q hq hc
    obtain ⟨p, hp, hq⟩ := Except.bind_eq_ok_iff.1 hq
    exact hf p hp q hq (hx p hp hc)
  quiet h _ hc := h ▸ hc
  named _ name type := hI.named name type
  value _ v type := hI.value v type
  repeatSince _ mark := hI.repeatSince mark

theorem Collector.Kept.at_unrolled {I : Collector → Prop} (hI : Collector.Kept I) (σ : Setting)
    (depth : Nat) (p : Phrase) (k : Place) :
    (hI.keeping σ).At k (Renderer.bottom.unrolled depth) (Renderer.bottom.unrolled depth) p := by
  induction depth generalizing p k with
  | zero =>
    cases p <;> exact .fault _
  | succ depth ih =>
    cases p with
    | expr e =>
      refine StepRelation.expr_deeper (fun p k' _ => ih p k') fun value _ _ _ => ?_
      exact .literal (fun _ _ _ hp => nomatch hp) value
    | statement s => exact StepRelation.statement_deeper (fun p k' _ => ih p k') fun _ hc => hc

/-- **What is kept while parameters are noted holds of the parameters of a compilation.** -/
theorem Collector.Kept.of_compileWith {I : Collector → Prop} (hI : Collector.Kept I) {s : Statement}
    {d : Dialect} {o : Options} {out : Compiled} (hstart : I (.empty d.placeholder))
    (h : compileWith s d o = .ok out) :
    ∃ c, I c ∧ c.params = out.params ∧ c.names = out.names := by
  unfold compileWith at h
  split at h
  · cases h
  · next sql c hrun =>
    cases h
    rw [s.runRender_eq] at hrun
    have hkept := hI.at_unrolled (.ofOptions d o) s.depthBound (.statement s) .start
    exact ⟨c.params, (hkept _ (Place.fits_start _ _)).1 (sql, c) hrun hstart, rfl, rfl⟩

end QueryPlan
