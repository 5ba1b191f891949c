import QueryPlan.Proofs.Compile.Strictness
import QueryPlan.Proofs.Compile.LostColumns
import QueryPlan.Proofs.Decode.Columns

/-!
# What lenient compilation still rejects

In lenient mode a compilation makes do without what the dialect lacks: features, clauses, types and
keys of every family. One thing is left that it can make nothing of: an interval constant of more
than one unit, where the engine has intervals of a single unit only. `lenient_degrades` says so for
all dialects with the conventions of a built-in engine, whatever their features, clause orders and
templates.

The compilation is compared with one that gives up before each such constant: as long as that one
goes on, the step of the other has no missing feature to report (`sparing`).
-/

namespace QueryPlan

variable {k : DialectKind} {e : Error}

/-! ## 1. Intervals of more than one unit -/

/-- Whether at least two of the components of an interval are not zero. -/
def Interval.isMixed (i : Interval) : Bool :=
  decide (2 ≤ [i.months.toInt, i.days.toInt, i.micros.toInt].countP (· ≠ 0))

/-- A constant that is an interval or holds it in an array, at any depth. -/
inductive Value.HoldsInterval (i : Interval) : Value → Prop where
  | here : HoldsInterval i (.interval i)
  | item {v : Value} {items : List Value} (hv : v ∈ items) (h : HoldsInterval i v) :
      HoldsInterval i (.array items)

/-- A constant with an interval of more than one unit in it. -/
def Phrase.IsMixedConstant (p : Phrase) : Prop :=
  ∃ v type i, p = .expr (.constant v type) ∧ v.HoldsInterval i ∧ i.isMixed = true

/-- An interval that can be written with a single unit is one with at most one component. -/
theorem Conventions.isSome_singleUnit? (i : Interval) : (singleUnit? i).isSome = !i.isMixed := by
  have hone : ∀ b : Prop, [Decidable b] → ∀ x y : String,
      (if b then some x else some y).isSome = true := by
    intro b _ x y
    split <;> rfl
  unfold singleUnit? Interval.isMixed
  by_cases hm : i.months.toInt = 0 <;> by_cases hd : i.days.toInt = 0 <;>
    by_cases hu : i.micros.toInt = 0 <;> simp [hm, hd, hu, hone]

/-! ## 2. Constants that report no missing feature -/

/-- An engine can write an interval if it is not MySQL, or if the interval has a single unit. -/
theorem DialectKind.exists_intervalValue {i : Interval} (h : k = .mySql → i.isMixed = false) :
    ∃ text, k.conventions.intervalValue i = .ok text := by
  cases k with
  | mySql =>
    have hsome := Conventions.isSome_singleUnit? i
    rw [h rfl] at hsome
    obtain ⟨text, htext⟩ := Option.isSome_iff_exists.1 hsome
    refine ⟨text, ?_⟩
    show Conventions.singleUnitValue i = .ok text
    rw [Conventions.singleUnitValue, htext]
    rfl
  | _ => exact ⟨_, rfl⟩

mutual

/-- A constant in place reports a missing feature only for an interval of more than one unit. -/
theorem supported_literal {σ : Setting} (hσ : σ.strict = false)
    (hk : σ.dialect.conventions = k.conventions) : (v : Value) →
    (∀ i, v.HoldsInterval i → k = .mySql → i.isMixed = false) → Supported (σ.literal v)
  | .interval i, hv => by
    obtain ⟨text, htext⟩ := DialectKind.exists_intervalValue (hv i .here)
    rw [Setting.literal, hk, htext]
    exact supported_writeLiteral hσ _ _
  | .array items, hv => by
    rw [Setting.literal]
    refine (supported_literals hσ hk items fun v hmem i hi => hv i (.item hmem hi)).bind fun _ => ?_
    exact supported_writeLiteral hσ _ _
  | .float x, _ => by
    rw [Setting.literal]
    split
    · exact .ok _
    · intro e he
      cases he
      rfl
  | .int _, _ | .uint _, _ | .decimal _, _ => .ok _
  | .null, _ | .bool true, _ | .bool false, _ | .text _, _ | .bytes _, _ | .date _, _ | .time _, _
  | .timestamp _, _ | .timestampTz _, _ | .point _, _ | .json _, _ | .object _, _ =>
    supported_writeLiteral hσ _ _

theorem supported_literals {σ : Setting} (hσ : σ.strict = false)
    (hk : σ.dialect.conventions = k.conventions) : (list : List Value) →
    (∀ v ∈ list, ∀ i, v.HoldsInterval i → k = .mySql → i.isMixed = false) →
      Supported (σ.literals list)
  | [], _ => .ok _
  | v :: rest, h => by
    rw [List.forall_mem_cons] at h
    rw [Setting.literals]
    exact (supported_literal hσ hk v h.1).bind fun _ => .map _ (supported_literals hσ hk rest h.2)

end

/-! ## 3. Beside a compilation that gives up -/

/-- **A step beside one that gives up** with an error: if that one goes on, both do the same and no
    missing feature is reported. -/
def Spares {α : Type} (e : Error) (x x' : Except Error (α × Context)) : Prop :=
  x' = .error e ∨ x' = x ∧ Supported x

theorem Spares.bind {α β : Type} {x x' : Except Error (α × Context)}
    {f f' : α × Context → Except Error (β × Context)} (hx : Spares e x x')
    (hf : ∀ p, x = .ok p → Spares e (f p) (f' p)) : Spares e (x >>= f) (x' >>= f') := by
  rcases hx with rfl | ⟨rfl, hsupported⟩
  · exact .inl rfl
  · cases x' with
    | error e' =>
      refine .inr ⟨rfl, fun e'' he => ?_⟩
      cases he
      exact hsupported e' rfl
    | ok p => exact hf p rfl

/-- The relation between the steps of a lenient compilation and of one that gives up. -/
def sparing {σ : Setting} (hσ : σ.strict = false) (e : Error) : StepRelation σ where
  Out _ _ _ x x' := Spares e x x'
  Change _ _ := True
  ok _ _ := .inr ⟨rfl, .ok _⟩
  error _ h := .inr ⟨rfl, fun _ he => Except.error.inj he ▸ h hσ⟩
  bind := .bind
  quiet _ _ := trivial
  named _ _ _ := trivial
  value _ _ _ := trivial
  repeatSince _ _ := trivial

/-! ## 4. Whole compilations -/

/-- A constant in place that the engine of a kind cannot write. -/
def Phrase.IsRejected (k : DialectKind) (inPlace : Bool) (p : Phrase) : Prop :=
  inPlace = true ∧ k = .mySql ∧ p.IsMixedConstant

section Runs

variable {σ : Setting} {k : DialectKind} (hσ : σ.strict = false)
  (hk : σ.dialect.conventions = k.conventions)
include hk

/-- Where no constant is rejected, one step down reports nothing. -/
theorem spares_deeper {r r' : Renderer} {place : Place}
    (h : ∀ p (place : Place), (sparing hσ e).At place r r' p) (x : Expr)
    (hx : ¬Phrase.IsRejected k (!σ.constantsAsParams) (.expr x)) :
    (sparing hσ e).Keep place (r.deeper.expr x) (r'.deeper.expr x) := by
  refine StepRelation.expr_deeper (fun p k' _ => h p k') fun v type heq hplace => ?_
  refine .known (fun _ _ => rfl) (StepRelation.Keep.ofExcept fun _ => ?_)
  refine supported_literal hσ hk v fun i hi hmySql => ?_
  have hvalue : v.isNull = false := by cases hi <;> rfl
  rw [hvalue, Bool.not_false, Bool.and_true] at hplace
  by_contra hmixed
  rw [Bool.not_eq_false] at hmixed
  exact hx ⟨by simpa using hplace, hmySql, v, type, i, congrArg _ heq, hi, hmixed⟩

theorem spares_watched (e : Error) (depth : Nat) (p : Phrase) (place : Place) :
    (sparing hσ e).At place (Renderer.bottom.unrolled depth)
      (watchedAt (fun p _ => ¬p.IsRejected k (!σ.constantsAsParams)) e depth) p := by
  induction depth generalizing p place with
  | zero =>
    cases p <;> exact .fault _
  | succ depth ih =>
    rw [watchedAt, Renderer.unrolled]
    cases p with
    | expr x =>
      intro c hc
      by_cases hx : Phrase.IsRejected k (!σ.constantsAsParams) (.expr x)
      · refine ⟨.inl (Renderer.watched_expr_error fun h => h hx), ?_⟩
        exact (agreeAt_self _ (depth + 1) place (.expr x) c hc).2
      · rw [Renderer.watched_expr_run hx]
        exact spares_deeper hσ hk ih x hx c hc
    | statement s =>
      intro c hc
      have hs : ¬Phrase.IsRejected k (!σ.constantsAsParams) (.statement s) := by
        rintro ⟨-, -, v, type, i, heq, -⟩
        cases heq
      rw [Renderer.watched_statement_run hs]
      exact StepRelation.statement_deeper (fun p k' _ => ih p k') (fun _ => trivial) c hc

end Runs

theorem lenient_error {s : Statement} {d : Dialect} {o : Options}
    (hk : d.conventions = k.conventions) (ho : o.strict = false) (h : compileWith s d o = .error e)
    (he : e.isUnsupported = true) : s.Writes d o (Phrase.IsRejected k (!o.constantsAsParams)) := by
  unfold compileWith at h
  split at h
  · next e' hrun =>
    cases h
    rw [Error.isUnsupported_inDialect] at he
    rw [s.runRender_eq] at hrun
    intro e''
    rcases (spares_watched (σ := .ofOptions d o) ho hk e'' s.depthBound (.statement s) .start
      (.start d.placeholder) (Place.fits_start _ _)).1 with hgives | ⟨-, hsupported⟩
    · exact hgives
    · rw [hsupported e' hrun] at he
      cases he
  · cases h

/-- **Lenient mode degrades instead of rejecting.** In a dialect with the conventions of a built-in
    engine a lenient compilation reports no missing feature if constants become parameters. If they
    are written in place it does so only if the engine is MySQL, for a constant that is written and
    holds an interval of more than one unit. -/
theorem lenient_degrades (s : Statement) (d : Dialect) (o : Options) (engine : DialectKind)
    (hd : d.conventions = engine.conventions) :
    (∀ e, compileWith s d { o with strict := false, constantsAsParams := true } = .error e →
      e.isUnsupported = false) ∧
    ∀ e, compileWith s d { o with strict := false, constantsAsParams := false } = .error e →
      e.isUnsupported = true →
        engine = .mySql ∧
        s.Writes d { o with strict := false, constantsAsParams := false }
          Phrase.IsMixedConstant := by
  constructor
  · intro e h
    by_contra he
    obtain ⟨p, k, -, hplace, -⟩ :=
      (lenient_error hd rfl h (Bool.not_eq_false _ ▸ he)).exists_reaches
    cases hplace
  · intro e h he
    have hwrites := lenient_error hd rfl h he
    obtain ⟨p, k, -, -, rfl, -⟩ := hwrites.exists_reaches
    refine ⟨rfl, ?_⟩
    have hkind : Phrase.IsRejected .mySql true = Phrase.IsMixedConstant :=
      funext fun p => propext ⟨fun h => h.2.2, fun h => ⟨rfl, rfl, h⟩⟩
    rwa [show (!false) = true from rfl, hkind] at hwrites

/-- A query for an array with an interval of a month and a day. -/
def monthAndDay : Statement :=
  .select { Select.empty with
    projection := [⟨"spans", .constant (.array [.interval ⟨1, 1, 0⟩]) none⟩] }

/-- A dialect of MySQL that does without all features. -/
def bareMySql : Dialect :=
  { Dialect.mySql with features := .ofList [] }

/-- The interval cannot be written in place, but taken as a parameter. -/
theorem lenient_degrades_here :
    (∃ e, compileWith monthAndDay bareMySql { strict := false, constantsAsParams := false } =
        .error e ∧
      e.isUnsupported = true ∧
      monthAndDay.Writes bareMySql { strict := false, constantsAsParams := false }
        Phrase.IsMixedConstant) ∧
    (compileWith monthAndDay bareMySql { strict := false, constantsAsParams := true }).map
      Compiled.sql = .ok "SELECT ? AS spans" := by
  have herror : compileWith monthAndDay bareMySql { strict := false, constantsAsParams := false } =
      .error ((Error.unsupported "INTERVAL with mixed units").inDialect "mysql") := rfl
  refine ⟨⟨_, herror, rfl, ?_⟩, by decide +kernel⟩
  exact ((lenient_degrades monthAndDay bareMySql {} .mySql rfl).2 _ herror rfl).2

end QueryPlan
