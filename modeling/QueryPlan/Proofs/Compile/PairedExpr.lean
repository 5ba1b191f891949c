import QueryPlan.Proofs.Compile.PairedStep

/-!
# Corresponding expressions

The pieces that write expressions. Each piece has one lemma of its name: it corresponds to itself
under a lawful pairing, if the words that it writes itself are clean.

The parts of an expression are written by a `Renderer`; `Pairing.Renders` says that a renderer
corresponds to itself on every expression and statement.
-/

namespace QueryPlan

open Edges

namespace Pairing

/-- A renderer that corresponds to itself. -/
structure Renders (P : Pairing) (r : Renderer) : Prop where
  expr : ∀ e : Expr, P.Sim P.Frag (r.expr e) (r.expr e)
  statement : ∀ s : Statement, P.Sim P.Text (r.statement s) (r.statement s)

variable {P : Pairing}

/-! ## 1. Operands and lists -/

/-- A text of its own as a fragment. -/
theorem Sim.atom {x x' : Compile String} (h : P.Sim P.Text x x') :
    P.Sim P.Frag (x >>= fun t => Pure.pure (Fragment.atom t))
      (x' >>= fun t => Pure.pure (Fragment.atom t)) :=
  h.map fun _ _ _ ht => ⟨ht, rfl⟩

/-- Clean text that is the same on both sides. -/
theorem Sim.same (hP : P.Lawful) {x x' : Compile String} (h : P.Sim (Same P.Clean) x x') :
    P.Sim P.Text x x' := by
  refine h.mono ?_
  rintro w t _ ⟨rfl, rfl, ht⟩
  exact hP.clean ht

/-- A keyword as a fragment. -/
theorem Lawful.keywordFrag (hP : P.Lawful) {key : Keyword} (names : List String)
    (hk : key.slots = names) {v : List Nat} {ps ps' : Params} (h : P.Filled names v ps ps')
    (strength : Strength) :
    P.Sim (Still (P.Frag v))
      (Compile.keyword key ps >>= fun t => Pure.pure (⟨t, strength⟩ : Fragment))
      (Compile.keyword key ps' >>= fun t => Pure.pure (⟨t, strength⟩ : Fragment)) := by
  subst hk
  exact (hP.keyword key h).map fun _ _ _ ht => ⟨ht.1, ht.2, rfl⟩

namespace Renders

variable {r : Renderer} (hr : P.Renders r) (hP : P.Lawful)
include hr

theorem text (e : Expr) : P.Sim P.Text (r.text e) (r.text e) :=
  (hr.expr e).map fun _ _ _ hf => hf.text

include hP

theorem operand (e : Expr) (isLeft : Bool) (parent : Strength) (associativity : Associativity) :
    P.Sim (fun v f f' => P.Text v f.text f'.text) (r.operand e isLeft parent associativity)
      (r.operand e isLeft parent associativity) := by
  refine (hr.expr e).map ?_
  rintro v ⟨t, _⟩ ⟨t', _⟩ ⟨ht, rfl⟩
  exact hP.operand ht _ isLeft parent associativity

theorem guarded (e : Expr) (parent : Strength) (associativity : Associativity) :
    P.Sim (fun v f f' => P.Operand v f.text f'.text) (r.operand e false parent associativity)
      (r.operand e false parent associativity) := by
  refine (hr.expr e).map ?_
  rintro v ⟨t, _⟩ ⟨t', _⟩ ⟨ht, rfl⟩
  exact hP.guarded ht _ parent associativity

theorem list (es : List Expr) : P.Sim P.Text (r.list es) (r.list es) :=
  (Sim.mapM fun e _ => hr.text e).map fun _ _ _ hts => hP.intercalate (by decide) (by decide) hts

end Renders

/-! ## 2. Operators -/

theorem segments_of_isSigned {t : Template} (h : t.isSigned = true) :
    ∃ s s', t.segments = [.slot "keyword" s, .slot "operand" s'] := by
  unfold Template.isSigned at h
  split at h
  · next keyword s operand s' heq =>
    simp only [Bool.and_eq_true, beq_iff_eq] at h
    obtain ⟨rfl, rfl⟩ := h
    exact ⟨s, s', heq⟩
  · cases h

section

variable (P) {κ : Type} [Worded κ] (family : Formats → Registry κ) (key : κ)

/-- What an operator makes of its operand. -/
def unaryText (t : String) : String :=
  ((family P.left.dialect.formats).template key []).render
    [("operand", t), ("keyword", (family P.left.dialect.formats).keyword key)]

/-- What an operator makes of its operands. -/
def binaryText (t u : String) : String :=
  ((family P.left.dialect.formats).template key []).render
    [("left", t), ("right", u), ("keyword", (family P.left.dialect.formats).keyword key)]

end

namespace Lawful

variable (hP : P.Lawful) {v w : List Nat} {t t' u u' : String} {κ : Type} [Worded κ]
  {family : Formats → Registry κ} {key : κ}
include hP

theorem unaryText (hp : P.Prints family key [] ["operand"]) (h : P.Operand v t t') :
    P.Text v (P.unaryText family key t) (P.unaryText family key t') := by
  have hfilled := Filled.text (P := P) (n := "operand") List.not_mem_nil (hP.operandText h)
    (.clean (n := "keyword") List.not_mem_nil (hP.cleanKeyword hp) .nil)
  rw [List.append_nil] at hfilled
  exact hP.renderWith hfilled (hP.ofFirm (by decide)) hp.ordered

theorem binaryText (hp : P.Prints family key [] ["left", "right"]) (ht : P.Text v t t')
    (hu : P.Text w u u') :
    P.Text (v ++ w) (P.binaryText family key t u) (P.binaryText family key t' u') := by
  have hfilled := Filled.text (P := P) (n := "left") (by decide) ht
    (.text (n := "right") List.not_mem_nil hu
      (.clean (n := "keyword") List.not_mem_nil (hP.cleanKeyword hp) .nil))
  rw [List.append_nil] at hfilled
  exact hP.renderWith hfilled (hP.ofFirm (by decide)) hp.ordered

/-- A minus sign stands directly in front of its operand. -/
theorem unaryOpText (op : UnaryOperator) (h : P.Operand v t t') :
    P.Text v (P.unaryText Formats.unaryOps op t) (P.unaryText Formats.unaryOps op t') := by
  have hprints := hP.arrangement.imp id fun ho => ho.formats.unaryOps op
  rcases hprints with hf | ho | ⟨hword, hsigned⟩
  · exact hP.unaryText (.inl hf) h
  · exact hP.unaryText (.inr (ho.imp id fun ht => ht [])) h
  · obtain ⟨s, s', hsegments⟩ := segments_of_isSigned hsigned
    have hrender : ∀ t, P.unaryText Formats.unaryOps op t = "-" ++ t := by
      intro t
      rw [Pairing.unaryText, hword, Template.render, Template.renderWith_eq, hsegments]
      exact congrArg (· ++ t) String.empty_append
    rw [hrender, hrender]
    exact hP.sign h

/-- A keyword with minus signs is kept apart from both operands. -/
theorem binaryOpText (op : BinaryOperator) (ht : P.Text v t t') (hu : P.Text w u u') :
    P.Text (v ++ w) (P.binaryText Formats.binaryOps op t u)
      (P.binaryText Formats.binaryOps op t' u') := by
  have hprints := hP.arrangement.imp id fun ho => ho.formats.binaryOps op
  rcases hprints with hf | ho | ⟨hword, hordered⟩
  · exact hP.binaryText (.inl hf) ht hu
  · exact hP.binaryText (.inr (ho.imp id fun ht => ht [])) ht hu
  · have hfilled := Filled.text (P := P) (n := "left") (by decide) ht
      (.swap (by decide) (.text (n := "keyword") (by decide) (hP.proper (hP.ofPlain hword))
        (.text (n := "right") List.not_mem_nil hu .nil)))
    rw [List.nil_append, List.append_nil] at hfilled
    exact hP.renderWith hfilled (hP.ofFirm (by decide)) (.inr hordered)

end Lawful

namespace Renders

variable {r : Renderer} (hr : P.Renders r) (hP : P.Lawful) {κ : Type} [Worded κ]
  {family : Formats → Registry κ} {key : κ}
include hr hP

theorem unary
    (hend : ∀ {v : List Nat} {t t' : String}, P.Operand v t t' →
      P.Text v (P.unaryText family key t) (P.unaryText family key t'))
    (strength : Strength) (associativity : Associativity) (e : Expr) :
    P.Sim P.Frag (r.operator family key strength associativity [("operand", e)])
      (r.operator family key strength associativity [("operand", e)]) := by
  unfold Renderer.operator Renderer.operandTexts
  refine (hP.lookup fun _ => rfl).andThen ?_
  rintro _ rfl
  simp only [List.zipIdx_cons, List.zipIdx_nil, List.mapM_cons, List.mapM_nil, bind_assoc,
    pure_bind]
  exact (hr.guarded hP e _ _).map fun v f f' hf => ⟨hend hf, rfl⟩

theorem binary
    (hend : ∀ {v w : List Nat} {t t' u u' : String}, P.Text v t t' → P.Text w u u' →
      P.Text (v ++ w) (P.binaryText family key t u) (P.binaryText family key t' u'))
    (strength : Strength) (associativity : Associativity) (e₁ e₂ : Expr) :
    P.Sim P.Frag (r.operator family key strength associativity [("left", e₁), ("right", e₂)])
      (r.operator family key strength associativity [("left", e₁), ("right", e₂)]) := by
  unfold Renderer.operator Renderer.operandTexts
  refine (hP.lookup fun _ => rfl).andThen ?_
  rintro _ rfl
  simp only [List.zipIdx_cons, List.zipIdx_nil, List.mapM_cons, List.mapM_nil, bind_assoc,
    pure_bind]
  refine (hr.operand hP e₁ _ _ _).bind fun v f f' hf => ?_
  exact (hr.operand hP e₂ _ _ _).map fun w g g' hg => ⟨hend hf hg, rfl⟩

end Renders

/-! ## 3. Aggregates -/

/-- Texts for an aggregate, with the word that asks for distinct values if it is to. -/
def aggregateParams (distinct : Bool) (ps : Params) : Params :=
  (if distinct then [("distinct", "DISTINCT ")] else []) ++ ps

theorem isPresent_aggregateParams (distinct : Bool) (ps : Params) {n : String}
    (hn : n ≠ "distinct") :
    Params.isPresent (aggregateParams distinct ps) n = Params.isPresent ps n := by
  cases distinct with
  | false => rfl
  | true =>
    show Params.isPresent (("distinct", "DISTINCT ") :: ps) n = _
    rw [Params.isPresent_cons, if_neg hn]

namespace Lawful

variable (hP : P.Lawful) (kind : AggregateKind) (distinct : Bool) {names : List String}
  {v w : List Nat} {ps ps' : Params} {t t' u u' : String}
include hP

/-- What an aggregate makes of its argument and its filter. -/
theorem aggregateEnd (h : P.Filled names v ps ps') (hn : "distinct" ∉ names)
    (hp : P.Prints Formats.aggregates kind (aggregateParams distinct ps) names) :
    P.Sim (fun w => P.Frag (v ++ w))
      (do
        let found ← Compile.lookup Formats.aggregates kind (aggregateParams distinct ps)
        return (⟨found.render (aggregateParams distinct ps), found.strength.getD atomStrength⟩ :
          Fragment))
      (do
        let found ← Compile.lookup Formats.aggregates kind (aggregateParams distinct ps')
        return (⟨found.render (aggregateParams distinct ps'), found.strength.getD atomStrength⟩ :
          Fragment)) := by
  have hall : P.Filled names v (aggregateParams distinct ps) (aggregateParams distinct ps') := by
    cases distinct with
    | false => exact h
    | true => exact .clean hn (hP.ofFirm (by decide)) h
  refine (hP.lookup (hall.isPresent hP)).andThen ?_
  rintro _ rfl
  refine .pure ?_
  rw [List.append_nil]
  exact ⟨hP.renderWith hall (hP.cleanKeyword hp) hp.ordered, rfl⟩

theorem printsAggregate (hf : Params.isPresent ps "filter" = false)
    (hc : Params.isPresent ps "filter_case" = false) :
    P.Prints Formats.aggregates kind (aggregateParams distinct ps) ["arg"] := by
  refine hP.arrangement.imp id fun ho =>
    ⟨ho.formats.aggregateKeyword kind, ho.formats.aggregate kind _ ?_ ?_⟩
  · rw [isPresent_aggregateParams _ _ (by decide), hf]
  · rw [isPresent_aggregateParams _ _ (by decide), hc]

/-- A filter that is printed as a clause, or not at all if it has no text. -/
theorem aggregateClause (ht : P.Text v t t') (hu : P.Text w u u') :
    ∃ names, P.Filled names (v ++ w) [("arg", t), ("filter", u)] [("arg", t'), ("filter", u')] ∧
      "distinct" ∉ names ∧ P.Prints Formats.aggregates kind
        (aggregateParams distinct [("arg", t), ("filter", u)]) names := by
  by_cases hempty : u = ""
  · subst hempty
    exact ⟨["arg"], (Filled.empty hP hu ht).1, by decide, hP.printsAggregate kind distinct rfl rfl⟩
  · have hfilled := Filled.text (P := P) (n := "arg") (by decide) ht
      (.text (n := "filter") List.not_mem_nil hu .nil)
    rw [List.append_nil] at hfilled
    refine ⟨_, hfilled, by decide, hP.arrangement.imp id fun ho =>
      ⟨ho.formats.aggregateKeyword kind, ho.formats.aggregateFilter kind _ ?_⟩⟩
    rw [isPresent_aggregateParams _ _ (by decide)]
    exact bne_iff_ne.2 hempty

/-- A filter that is printed as the condition of a case, in front of the argument. -/
theorem aggregateCase (hu : P.Text v u u') (ht : P.Text w t t') :
    ∃ names, P.Filled names (v ++ w) [("arg", t), ("filter_case", u)]
        [("arg", t'), ("filter_case", u')] ∧
      "distinct" ∉ names ∧ P.Prints Formats.aggregates kind
        (aggregateParams distinct [("arg", t), ("filter_case", u)]) names := by
  by_cases hempty : u = ""
  · subst hempty
    exact ⟨["arg"], (Filled.empty hP hu ht).2, by decide, hP.printsAggregate kind distinct rfl rfl⟩
  · have hfilled := Filled.swap (by decide) (Filled.text (P := P) (n := "filter_case") (by decide)
      hu (.text (n := "arg") List.not_mem_nil ht .nil))
    rw [List.append_nil] at hfilled
    refine ⟨_, hfilled, by decide, hP.arrangement.imp id fun ho =>
      ⟨ho.formats.aggregateKeyword kind, ho.formats.aggregateCase kind _ ?_ ?_⟩⟩
    · rw [isPresent_aggregateParams _ _ (by decide)]
      rfl
    · rw [isPresent_aggregateParams _ _ (by decide)]
      exact bne_iff_ne.2 hempty

end Lawful

namespace Renders

variable {r : Renderer} (hr : P.Renders r) (hP : P.Lawful)
include hr hP

theorem filterCase (filter : Option Expr) :
    P.Sim (fun v o o' => Both P.Text v o o' ∧ (filter = none → o = none)) (r.filterCase filter)
      (r.filterCase filter) := by
  unfold Renderer.filterCase
  refine (hP.has _).andThen fun hasClause _ => ?_
  cases filter with
  | none => exact .pure ⟨.none, fun _ => rfl⟩
  | some e =>
    refine .ite (fun _ => .pure ⟨.none, fun _ => rfl⟩) fun _ => ?_
    exact (hr.text e).map fun _ _ _ ht => ⟨.some ht, fun h => by cases h⟩

theorem aggregateArg (arg : Option Expr) (inCase : Bool) :
    P.Sim P.Text (r.aggregateArg arg inCase) (r.aggregateArg arg inCase) := by
  cases arg with
  | none =>
    refine .pure (hP.clean (hP.ofFirm ?_))
    cases inCase <;> decide
  | some e => exact hr.text e

theorem aggregate (kind : AggregateKind) (distinct : Bool) (arg filter : Option Expr) :
    P.Sim P.Frag (r.aggregate kind distinct arg filter) (r.aggregate kind distinct arg filter) := by
  unfold Renderer.aggregate
  simp only [List.append_assoc]
  refine (hr.filterCase hP filter).bind ?_
  rintro v o o' ⟨ho, hnone⟩
  rw [ho.isSome_eq]
  refine (hr.aggregateArg hP arg _).bind fun w t t' ht => ?_
  cases ho with
  | none =>
    cases filter with
    | none =>
      have h := Filled.text (P := P) (n := "arg") List.not_mem_nil ht .nil
      rw [List.append_nil] at h
      simp only [Renderer.filterParam, pure_bind]
      exact hP.aggregateEnd kind distinct h (by decide) (hP.printsAggregate kind distinct rfl rfl)
    | some e =>
      simp only [Renderer.filterParam, bind_assoc, pure_bind]
      refine (hr.text e).bind fun u s s' hs => ?_
      obtain ⟨names, h, hn, hp⟩ := hP.aggregateClause kind distinct ht hs
      refine (hP.aggregateEnd kind distinct h hn hp).mono fun x f f' hx => ?_
      rwa [List.append_assoc] at hx
  | some hs =>
    simp only [Renderer.filterParam, pure_bind]
    obtain ⟨names, h, hn, hp⟩ := hP.aggregateCase kind distinct hs ht
    refine (hP.aggregateEnd kind distinct h hn hp).mono fun x f f' hx => ?_
    rwa [List.append_assoc] at hx

end Renders

/-! ## 4. Conditions -/

theorem Lawful.emptyConditions (hP : P.Lawful) (op : Conjunction) :
    P.Sim P.Frag (Renderer.emptyConditions op) (Renderer.emptyConditions op) := by
  have hkey : ∀ key : Keyword, key.slots = [] → P.Sim P.Frag
      (do
        let found ← Compile.lookup Formats.keywords key []
        return (⟨found.render [], found.strength.getD atomStrength⟩ : Fragment))
      (do
        let found ← Compile.lookup Formats.keywords key []
        return (⟨found.render [], found.strength.getD atomStrength⟩ : Fragment)) := by
    intro key hk
    have hp := hP.prints (fun _ hf => hf.keywords) key []
    refine (hP.lookup fun _ => rfl).andThen ?_
    rintro _ rfl
    rw [hk] at hp
    exact .pure ⟨hP.renderWith .nil (hP.cleanKeyword hp) hp.ordered, rfl⟩
  cases op with
  | and => exact hkey .truePredicate rfl
  | or => exact hkey .falsePredicate rfl

namespace Renders

variable {r : Renderer} (hr : P.Renders r) (hP : P.Lawful)
include hr hP

/-- Operands with a conjunction between them. -/
theorem conjoined {separator : String} (hs : firm.Fits separator) (ho : opens separator = true)
    (strength : Strength) (es : List Expr) :
    P.Sim (fun v ts ts' => P.Text v (separator.intercalate ts) (separator.intercalate ts'))
      (es.mapM fun e => return (← r.operand e true strength .both).text)
      (es.mapM fun e => return (← r.operand e true strength .both).text) := by
  refine (Sim.mapM (R := P.Text) fun e _ => ?_).mono fun v ts ts' hts => hP.intercalate hs ho hts
  exact (hr.operand hP e _ _ _).map fun _ _ _ hf => hf

theorem conditions (op : Conjunction) (operands : List Expr) :
    P.Sim P.Frag (r.conditions op operands) (r.conditions op operands) := by
  unfold Renderer.conditions
  split
  · exact hP.emptyConditions op
  · exact hr.expr _
  · cases op <;> exact (hr.conjoined hP (by decide) (by decide) _ _).map fun _ _ _ ht => ⟨ht, rfl⟩

theorem predicates (es : List Expr) : P.Sim P.Text (r.predicates es) (r.predicates es) := by
  unfold Renderer.predicates
  split
  · exact hr.text _
  · exact (hr.conjoined hP (by decide) (by decide) _ _).map fun _ _ _ ht => ht

theorem members (list : Members) : P.Sim P.Text (r.members list) (r.members list) := by
  cases list with
  | exprs es => exact hr.list hP es
  | query s => exact hr.statement s

theorem member (value : Expr) (list : Members) (negated : Bool) :
    P.Sim P.Frag (r.member value list negated) (r.member value list negated) := by
  unfold Renderer.member
  split
  · exact hP.emptyConditions _
  · refine (hr.operand hP value _ _ _).bind fun v f f' hf => ?_
    refine (hr.members hP list).bind fun w t t' ht => Sim.ended ?_
    refine hP.keywordFrag ["value", "list"] ?_
      (.text (by decide) hf (.text List.not_mem_nil ht .nil)) _
    cases negated <;> rfl

theorem between (value low high : Expr) (negated : Bool) :
    P.Sim P.Frag (r.between value low high negated) (r.between value low high negated) := by
  unfold Renderer.between
  refine (hr.operand hP value _ _ _).bind fun v f f' hf => ?_
  refine (hr.operand hP low _ _ _).bind fun w g g' hg => ?_
  refine (hr.operand hP high _ _ _).bind fun u k k' hk => Sim.ended ?_
  refine hP.keywordFrag ["value", "low", "high"] ?_
    (.text (by decide) hf (.text (by decide) hg (.text List.not_mem_nil hk .nil))) _
  cases negated <;> rfl

theorem rowsExist (query : Statement) (negated : Bool) :
    P.Sim P.Frag (r.rowsExist query negated) (r.rowsExist query negated) := by
  unfold Renderer.rowsExist
  refine (hr.statement query).bind fun v t t' ht => ?_
  refine .ite (fun _ => Sim.ended ?_) fun _ => Sim.ended ?_
  all_goals exact hP.keywordFrag ["query"] rfl (.text List.not_mem_nil ht .nil) _

/-! ## 5. Cases and casts -/

theorem arms (list : List (Expr × Expr)) :
    P.Sim (fun v t t' => P.Text v t t' ∧ (opens t = true ∨ t = "")) (r.arms list)
      (r.arms list) := by
  refine (Sim.mapM (R := fun v t t' => P.Text v t t' ∧ opens t = true) fun arm _ => ?_).map
    fun v ts ts' hts => ⟨hP.join hts, ?_⟩
  · refine (hr.text arm.1).bind fun v t t' ht => ?_
    refine (hr.text arm.2).map fun w u u' hu => ⟨?_, ?_⟩
    · exact hP.between (hP.inFront (by decide) ht) (by decide) (by decide) hu
    · exact opens_append (opens_append (opens_append (by decide) t) _) u
  · cases hts with
    | nil => exact .inr rfl
    | cons harm _ =>
      rw [String.join_cons]
      exact .inl (opens_append harm.2 _)

theorem textBehind {front : String} (hf : firm.Fits front) (ho : opens front = true)
    (e : Option Expr) :
    P.Sim (fun v t t' => P.Text v t t' ∧ (opens t = true ∨ t = "")) (r.textBehind front e)
      (r.textBehind front e) := by
  cases e with
  | none => exact .pure ⟨hP.clean (hP.ofFirm (by decide)), .inr rfl⟩
  | some e =>
    exact (hr.text e).map fun v t t' ht => ⟨hP.inFront hf ht, .inl (opens_append ho t)⟩

theorem case (subject : Option Expr) (list : List (Expr × Expr)) (otherwise : Option Expr) :
    P.Sim P.Frag (r.case subject list otherwise) (r.case subject list otherwise) := by
  unfold Renderer.case
  split
  · cases otherwise with
    | none => exact hP.literal fun _ ht => absurd ht List.not_mem_nil
    | some e => exact hr.expr e
  · refine (hr.textBehind hP (by decide) (by decide) subject).bind fun v t t' ht => ?_
    refine (hr.arms hP list).bind fun w u u' hu => ?_
    refine (hr.textBehind hP (by decide) (by decide) otherwise).map fun x k k' hk => ⟨?_, rfl⟩
    have hsubject := hP.inFront (a := "CASE") (by decide) ht.1
    have harms := hP.append hsubject hu.1 (.inr hu.2)
    have helse := hP.append harms hk.1 (.inr hk.2)
    rw [List.append_assoc] at helse
    exact hP.behind helse (by decide) (by decide)

theorem cast {type : DataType} (ht : P.Fits type.texts) (e : Expr) :
    P.Sim P.Frag (r.cast type e) (r.cast type e) := by
  unfold Renderer.cast
  refine (hP.lookup fun _ => rfl).andThen ?_
  rintro _ rfl
  refine (hr.operand hP e _ _ _).bind fun v f f' hf => ?_
  refine (hP.typeName ht).andThen fun name hname => Sim.ended ?_
  exact hP.keywordFrag ["operand"] rfl
    (.text List.not_mem_nil hf (.clean List.not_mem_nil hname .nil)) _

theorem row (elements : List Expr) : P.Sim P.Frag (r.row elements) (r.row elements) := by
  unfold Renderer.row
  refine (hr.list hP elements).bind fun v t t' ht => ?_
  refine (hP.has _).andThen fun _ _ => .ite (fun _ => Sim.ended ?_) fun _ => .pure ⟨?_, rfl⟩
  · exact hP.keywordFrag ["elements"] rfl (.text List.not_mem_nil ht .nil) _
  · rw [List.append_nil]
    exact hP.parenthesized ht

end Renders

/-! ## 6. Orderings and windows -/

namespace Lawful

variable (hP : P.Lawful) {v : List Nat} {t t' : String}
include hP

theorem directionBehind (ht : P.Text v t t') (d : Direction) :
    P.Text v (t ++ Renderer.directionText d) (t' ++ Renderer.directionText d) := by
  cases d with
  | asc =>
    have h := hP.append ht (hP.clean (hP.ofFirm (t := "") (by decide))) (.inr (.inr rfl))
    rwa [List.append_nil] at h
  | desc => exact hP.behind ht (by decide) (by decide)

theorem nullsKey (ht : P.Text v t t') (nulls : Nulls) :
    P.Text v
      ("CASE WHEN " ++ t ++ " THEN " ++ (Renderer.nullRanks nulls).1 ++ " ELSE " ++
        (Renderer.nullRanks nulls).2 ++ " END")
      ("CASE WHEN " ++ t' ++ " THEN " ++ (Renderer.nullRanks nulls).1 ++ " ELSE " ++
        (Renderer.nullRanks nulls).2 ++ " END") := by
  have hranks :
      firm.Fits (Renderer.nullRanks nulls).1 ∧ firm.Fits (Renderer.nullRanks nulls).2 := by
    cases nulls <;> decide
  have h := hP.inFront (a := "CASE WHEN ") (by decide) ht
  have h := hP.between (b := " THEN ") h (by decide) (by decide) (hP.clean (hP.ofFirm hranks.1))
  have h := hP.between (b := " ELSE ") h (by decide) (by decide) (hP.clean (hP.ofFirm hranks.2))
  rw [List.append_nil, List.append_nil] at h
  exact hP.behind h (by decide) (by decide)

/-- An item with its place for nulls. Where its text is printed twice, its parameters are noted
    twice: `trace` and the marks are what was noted in front of the item. -/
theorem placeNulls {trace : List Nat} {c c' : Collector} (hc : P.Noted trace c c')
    (ht : P.Text v t t') (d : Direction) (nulls : Option Nulls) :
    P.SimAt (trace ++ v) (fun w => Each P.Text (v ++ w))
      (Renderer.placeNulls c.mark t (Renderer.directionText d) nulls)
      (Renderer.placeNulls c'.mark t' (Renderer.directionText d) nulls) := by
  have hitem := hP.directionBehind ht d
  cases nulls with
  | none =>
    refine Sim.pure ?_ _
    rw [List.append_nil]
    exact .single hitem
  | some nulls =>
    refine SimAt.bind (hP.has .nullsOrdering _) ?_
    rintro _ _ b ⟨rfl, rfl, -⟩
    cases b with
    | true =>
      have hkey : (Renderer.nullsKeyword nulls).slots = [] := by cases nulls <;> rfl
      refine SimAt.bind (hP.word hkey _) ?_
      rintro _ _ word ⟨rfl, rfl, hword⟩
      refine Sim.pure ?_ _
      have h := hP.between (b := " ") hitem (by decide) (by decide) (hP.clean hword)
      exact .single h
    | false =>
      have hoperand := Filled.text (P := P) (n := "operand") List.not_mem_nil (hP.wrapWeak ht) .nil
      have hwrite := hP.write hoperand
        (hP.prints (fun f (hf : f.Orderly) => hf.unaryPredicates) UnaryPredicate.isNull _)
      refine SimAt.bind (hwrite _) ?_
      rintro _ u u' ⟨rfl, hu⟩
      simp only [List.append_nil] at hu ⊢
      intro d d' hd
      refine .ok (v := v) (hd.withParams (hP.repeated hc hd.params)) ?_
      exact .cons (hP.nullsKey hu nulls) (.single hitem)

end Lawful

namespace Renders

variable {r : Renderer} (hr : P.Renders r) (hP : P.Lawful)
include hr hP

theorem orderItem (o : OrderBy) : P.Sim (Each P.Text) (r.orderItem o) (r.orderItem o) := by
  intro trace c c' hc
  exact SimAt.bind (hr.text o.expr trace)
    (fun v t t' ht => hP.placeNulls hc.params ht o.direction o.nulls) c c' hc

theorem ordering (items : List OrderBy) : P.Sim P.Text (r.ordering items) (r.ordering items) :=
  (Sim.mapM fun o _ => hr.orderItem hP o).map fun _ _ _ hts =>
    hP.intercalate (by decide) (by decide) hts.flatten

omit hr in
theorem windowPart {key : Keyword} (hk : key.slots = []) (isEmpty : Bool)
    {body body' : Compile String} (hb : P.Sim P.Text body body') :
    P.Sim (Each P.Text) (Renderer.windowPart key isEmpty body)
      (Renderer.windowPart key isEmpty body') := by
  refine .ite (fun _ => .pure .nil) fun _ => ?_
  refine (hP.word hk).andThen fun word hword => hb.map fun v t t' ht => .single ?_
  exact hP.front (hP.cleanBehind hword (by decide)) ht

theorem windowSpec (spec : WindowSpec) : P.Sim P.Text (r.windowSpec spec) (r.windowSpec spec) := by
  refine (windowPart hP rfl _ (hr.list hP spec.partitionBy)).bind fun v ts ts' hts => ?_
  exact (windowPart hP rfl _ (hr.ordering hP spec.orderBy)).map fun w us us' hus =>
    hP.intercalate (by decide) (by decide) (hts.append hus)

theorem windowRef {window : WindowRef} (hw : ∀ name, window = .named name → P.Clean name) :
    P.Sim P.Text (r.windowRef window) (r.windowRef window) := by
  have hinside : ∀ spec : WindowSpec,
      P.Sim P.Text (do return "(" ++ (← r.windowSpec spec) ++ ")")
        (do return "(" ++ (← r.windowSpec spec) ++ ")") := fun spec =>
    (hr.windowSpec hP spec).map fun _ _ _ ht => hP.parenthesized ht
  cases window with
  | inline spec => exact hinside spec
  | named name =>
    refine (hP.has _).andThen fun _ _ =>
      .ite (fun _ => Sim.same hP (hP.quote (hw name rfl))) fun _ => ?_
    refine Sim.onGet fun trace c c' hc => ?_
    rw [hc.same Context.scopes fun _ => rfl]
    cases findWindow? c.scopes name with
    | none => exact .fail _
    | some spec => exact hinside spec

theorem windowed (e : Expr) {window : WindowRef}
    (hw : ∀ name, window = .named name → P.Clean name) :
    P.Sim P.Frag (r.windowed e window) (r.windowed e window) := by
  unfold Renderer.windowed
  refine (hr.operand hP e _ _ _).bind fun v f f' hf => ?_
  refine (hr.windowRef hP hw).bind fun w t t' ht => Sim.ended ?_
  exact hP.keywordFrag ["expr", "window"] rfl
    (.text (by decide) hf (.text List.not_mem_nil ht .nil)) _

end Renders

end Pairing

end QueryPlan
