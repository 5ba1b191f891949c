import QueryPlan.Proofs.Compile.StepRelation

/-!
# Related expressions

The pieces that write expressions. Each piece has one lemma of its name: if what two renderers write
is related for the phrases that the piece asks for, in the states in which it asks for them, then so
is what the piece makes of it.
-/

namespace QueryPlan

namespace StepRelation

variable {σ : Setting} {R : StepRelation σ} {k : States σ} {r r' : Renderer}

variable {ps : List Phrase} {filter : Option Expr} {e : Expr} {es : List Expr}

/-- Renderers that are related on a phrase in some states. -/
def At (R : StepRelation σ) (k : States σ) (r r' : Renderer) : Phrase → Prop
  | .expr e => R.Keep k (r.expr e) (r'.expr e)
  | .statement s => R.Keep k (r.statement s) (r'.statement s)

/-- Renderers that are related on some phrases in some states. -/
def On (R : StepRelation σ) (k : States σ) (r r' : Renderer) (ps : List Phrase) : Prop :=
  ∀ p ∈ ps, R.At k r r' p

namespace On

theorem left {qs : List Phrase} (h : R.On k r r' (ps ++ qs)) : R.On k r r' ps :=
  fun p hp => h p (List.mem_append_left qs hp)

theorem right {qs : List Phrase} (h : R.On k r r' (ps ++ qs)) : R.On k r r' qs :=
  fun p hp => h p (List.mem_append_right ps hp)

theorem tail {p : Phrase} (h : R.On k r r' (p :: ps)) : R.On k r r' ps :=
  fun q hq => h q (List.mem_cons_of_mem p hq)

theorem expr (h : R.On k r r' (.expr e :: ps)) : R.Keep k (r.expr e) (r'.expr e) :=
  h (.expr e) List.mem_cons_self

theorem statement {s : Statement} (h : R.On k r r' (.statement s :: ps)) :
    R.Keep k (r.statement s) (r'.statement s) :=
  h (.statement s) List.mem_cons_self

/-- The phrases of one item of a list. -/
theorem of_mem {α : Type} {f : α → List Phrase} {list : List α}
    (h : R.On k r r' (list.flatMap f)) {i : α} (hi : i ∈ list) : R.On k r r' (f i) :=
  fun p hp => h p (List.mem_flatMap.2 ⟨i, hi, hp⟩)

/-- The phrase of one item of a list. -/
theorem of_mem_map {α : Type} {f : α → Expr} {list : List α}
    (h : R.On k r r' (list.map fun i => .expr (f i))) {i : α} (hi : i ∈ list) :
    R.Keep k (r.expr (f i)) (r'.expr (f i)) :=
  h (.expr (f i)) (List.mem_map_of_mem hi)

/-! ## 1. Operands and lists -/

theorem text (h : R.Keep k (r.expr e) (r'.expr e)) : R.Keep k (r.text e) (r'.text e) :=
  .map Fragment.text h

theorem operand (h : R.Keep k (r.expr e) (r'.expr e)) (isLeft : Bool) (parent : Strength)
    (associativity : Associativity) :
    R.Keep k (r.operand e isLeft parent associativity) (r'.operand e isLeft parent associativity) :=
  .map (fun f => f.asOperand isLeft parent associativity) h

theorem list (h : R.On k r r' (exprPhrases es)) : R.Keep k (r.list es) (r'.list es) :=
  .map _ (.mapM fun _ he => text (h.of_mem_map he))

theorem field (source name : String) :
    R.Keep k (Renderer.field source name) (Renderer.field source name) := by
  refine (Keep.quote name).bind fun column => .ite (fun _ => .pure trivial) fun _ => ?_
  refine (Keep.qualifier source name).bind fun o => ?_
  cases o <;> exact .pure trivial

/-! ## 2. Operators and aggregates -/

theorem operator {κ : Type} [Worded κ] (family : Formats → Registry κ) (key : κ)
    (strength : Strength) (associativity : Associativity) {operands : List (String × Expr)}
    (h : R.On k r r' (exprPhrases (operands.map Prod.snd))) :
    R.Keep k (r.operator family key strength associativity operands)
      (r'.operator family key strength associativity operands) := by
  refine (Keep.lookup family key []).bind fun found => .map _ (.mapM fun i hi => ?_)
  obtain ⟨⟨slot, e⟩, index⟩ := i
  have he : e ∈ operands.map Prod.snd :=
    List.mem_map_of_mem (f := Prod.snd) (List.fst_mem_of_mem_zipIdx hi)
  exact .map _ (operand (h.of_mem_map (f := id) he) _ _ _)

theorem filterCase (h : R.On k r r' (exprPhrases filter.toList)) :
    R.Keep k (r.filterCase filter) (r'.filterCase filter) := by
  refine (Keep.has .aggregateFilter).bind fun hasClause => ?_
  cases filter with
  | none => exact .pure trivial
  | some filter => exact .ite (fun _ => .pure trivial) fun _ => .map _ (text h.expr)

theorem aggregateArg {arg : Option Expr} (h : R.On k r r' (exprPhrases arg.toList))
    (inCase : Bool) : R.Keep k (r.aggregateArg arg inCase) (r'.aggregateArg arg inCase) := by
  cases arg with
  | none => exact .pure trivial
  | some arg => exact text h.expr

theorem filterParam (h : R.On k r r' (exprPhrases filter.toList)) (inCase : Option String) :
    R.Keep k (r.filterParam inCase filter) (r'.filterParam inCase filter) := by
  cases inCase with
  | some t => exact .pure trivial
  | none =>
    cases filter with
    | none => exact .pure trivial
    | some filter => exact .map _ (text h.expr)

theorem aggregate (kind : AggregateKind) (distinct : Bool) {arg : Option Expr}
    (harg : R.On k r r' (exprPhrases arg.toList))
    (hfilter : R.On k r r' (exprPhrases filter.toList)) :
    R.Keep k (r.aggregate kind distinct arg filter) (r'.aggregate kind distinct arg filter) := by
  refine (filterCase hfilter).bind fun inCase => ?_
  refine (aggregateArg harg _).bind fun arg => ?_
  refine (filterParam hfilter inCase).bind fun filter => ?_
  exact .map _ (Keep.lookup Formats.aggregates kind _)

/-! ## 3. Conditions -/

theorem emptyConditions (op : Conjunction) :
    R.Keep k (Renderer.emptyConditions op) (Renderer.emptyConditions op) :=
  .map _ (Keep.lookup Formats.keywords _ [])

theorem conditions (op : Conjunction) {operands : List Expr}
    (h : R.On k r r' (exprPhrases operands)) :
    R.Keep k (r.conditions op operands) (r'.conditions op operands) := by
  match operands, h with
  | [], _ => exact emptyConditions op
  | [_], h => exact h.expr
  | _ :: _ :: _, h =>
    exact .map _ (.mapM fun e he => .map _ (operand (h.of_mem_map (f := id) he) _ _ _))

theorem predicates (h : R.On k r r' (exprPhrases es)) :
    R.Keep k (r.predicates es) (r'.predicates es) := by
  match es, h with
  | [], _ => exact .map _ (.mapM fun e he => absurd he List.not_mem_nil)
  | [_], h => exact text h.expr
  | _ :: _ :: _, h =>
    exact .map _ (.mapM fun e he => .map _ (operand (h.of_mem_map (f := id) he) _ _ _))

theorem members {list : Members} (h : R.On k r r' list.phrases) :
    R.Keep k (r.members list) (r'.members list) := by
  cases list with
  | exprs es => exact On.list h
  | query s => exact h.statement

theorem member {value : Expr} {list : Members} (negated : Bool)
    (hvalue : R.Keep k (r.expr value) (r'.expr value)) (hlist : R.On k r r' list.phrases) :
    R.Keep k (r.member value list negated) (r'.member value list negated) := by
  match list, hlist with
  | .exprs [], _ => exact emptyConditions _
  | .exprs (e :: es), h =>
    refine (operand hvalue _ _ _).bind fun value => ?_
    exact (members h).bind fun list => .map _ (.keyword _ _)
  | .query s, h =>
    refine (operand hvalue _ _ _).bind fun value => ?_
    exact (members h).bind fun list => .map _ (.keyword _ _)

theorem between {value low high : Expr} (negated : Bool)
    (h : R.On k r r' [.expr value, .expr low, .expr high]) :
    R.Keep k (r.between value low high negated) (r'.between value low high negated) := by
  refine (operand h.expr _ _ _).bind fun value => ?_
  refine (operand h.tail.expr _ _ _).bind fun low => ?_
  exact (operand h.tail.tail.expr _ _ _).bind fun high => .map _ (.keyword _ _)

theorem rowsExist {s : Statement} (negated : Bool)
    (h : R.Keep k (r.statement s) (r'.statement s)) :
    R.Keep k (r.rowsExist s negated) (r'.rowsExist s negated) :=
  h.bind fun _ => .ite (fun _ => .map _ (.keyword _ _)) fun _ => .map _ (.keyword _ _)

/-! ## 4. Cases, casts and rows -/

theorem arms {list : List (Expr × Expr)}
    (hconditions : R.On k r r' (exprPhrases (list.map Prod.fst)))
    (hresults : R.On k r r' (exprPhrases (list.map Prod.snd))) :
    R.Keep k (r.arms list) (r'.arms list) := by
  refine .map _ (.mapM fun arm harm => ?_)
  have hcondition := hconditions.of_mem_map (f := id) (List.mem_map_of_mem harm)
  have hresult := hresults.of_mem_map (f := id) (List.mem_map_of_mem harm)
  exact (text hcondition).bind fun _ => .map _ (text hresult)

theorem textBehind (front : String) {e : Option Expr}
    (h : R.On k r r' (exprPhrases e.toList)) :
    R.Keep k (r.textBehind front e) (r'.textBehind front e) := by
  cases e with
  | none => exact .pure trivial
  | some e => exact .map _ (text h.expr)

theorem case {subject otherwise : Option Expr} {list : List (Expr × Expr)}
    (h : R.On k r r' (Expr.case subject list otherwise).phrases) :
    R.Keep k (r.case subject list otherwise) (r'.case subject list otherwise) := by
  have hotherwise := h.right
  cases list with
  | nil =>
    cases otherwise with
    | none => exact .null
    | some otherwise => exact hotherwise.expr
  | cons arm rest =>
    refine (textBehind " " h.left.left.left).bind fun subject => ?_
    refine (arms h.left.left.right h.left.right).bind fun list => ?_
    exact .map _ (textBehind " ELSE " hotherwise)

theorem cast (type : DataType) (h : R.Keep k (r.expr e) (r'.expr e)) :
    R.Keep k (r.cast type e) (r'.cast type e) := by
  refine (Keep.lookup Formats.keywords .cast []).bind fun found => ?_
  refine (operand h _ _ _).bind fun operand => ?_
  exact (Keep.typeName type).bind fun name => .map _ (.keyword _ _)

theorem row (h : R.On k r r' (exprPhrases es)) : R.Keep k (r.row es) (r'.row es) := by
  refine (On.list h).bind fun elements => ?_
  exact (Keep.has .rowConstructor).bind fun _ =>
    .ite (fun _ => .map _ (.keyword _ _)) fun _ => .pure trivial

/-! ## 5. Orderings and windows -/

theorem windowPart (key : Keyword) (isEmpty : Bool) {x x' : Compile String} (h : R.Keep k x x') :
    R.Keep k (Renderer.windowPart key isEmpty x) (Renderer.windowPart key isEmpty x') :=
  .ite (fun _ => .pure trivial) fun _ => (Keep.keyword key []).bind fun _ => .map _ h

section Noted

variable [Stable k]

theorem placeNulls (start : Nat) (e direction : String) (nulls : Option Nulls) :
    R.Keep k (Renderer.placeNulls start e direction nulls)
      (Renderer.placeNulls start e direction nulls) := by
  cases nulls with
  | none => exact .pure trivial
  | some nulls =>
    refine (Keep.has .nullsOrdering).bind fun _ => .ite (fun _ => .map _ (.keyword _ _)) fun _ => ?_
    refine (Keep.write Formats.unaryPredicates .isNull _).bind fun isNull => ?_
    exact (Keep.repeatSince start).bind fun _ => .pure trivial

theorem ordering {items : List OrderBy} (h : R.On k r r' (orderPhrases items)) :
    R.Keep k (r.ordering items) (r'.ordering items) := by
  refine .map _ (.mapM fun o ho => ?_)
  refine Keep.mark.bind fun start => (text (h.of_mem_map ho)).bind fun e => ?_
  exact placeNulls start e _ o.nulls

theorem windowSpec {spec : WindowSpec} (h : R.On k r r' spec.phrases) :
    R.Keep k (r.windowSpec spec) (r'.windowSpec spec) := by
  refine (windowPart .partitionBy _ h.left.list).bind fun partition => ?_
  exact .map _ (windowPart .orderBy _ (ordering h.right))

/-- A window. Where windows cannot be named, the phrases of a named window are asked for, too. -/
theorem windowRef {window : WindowRef} (h : R.On k r r' window.phrases)
    (hnamed : ∀ name spec c, window = .named name → σ.dialect.has .namedWindows = false → k c →
      findWindow? c.scopes name = some spec → R.On k r r' spec.phrases) :
    R.Keep k (r.windowRef window) (r'.windowRef window) := by
  cases window with
  | inline spec => exact .map _ (windowSpec h)
  | named name =>
    refine Rel.known (a := σ.dialect.has .namedWindows) (fun _ _ => rfl) ?_
    refine .ite (fun _ => Keep.quote name) fun hhas => ?_
    intro c hc
    rw [Compile.bind_run Compile.get_run, Compile.bind_run Compile.get_run]
    cases hw : findWindow? c.scopes name with
    | none => exact Rel.fail _ (fun _ => rfl) c hc
    | some spec =>
      have hspec := hnamed name spec c rfl (Bool.eq_false_iff.2 hhas) hc hw
      exact Rel.map (fun t => "(" ++ t ++ ")") (windowSpec hspec) c hc

end Noted

theorem windowed {window : WindowRef} (he : R.Keep k (r.expr e) (r'.expr e))
    (hwindow : R.Keep k (r.windowRef window) (r'.windowRef window)) :
    R.Keep k (r.windowed e window) (r'.windowed e window) := by
  refine (operand he _ _ _).bind fun e => ?_
  exact hwindow.bind fun window => .map _ (.keyword _ _)

end On

end StepRelation

end QueryPlan
