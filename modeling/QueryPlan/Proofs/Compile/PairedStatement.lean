import QueryPlan.Proofs.Compile.PairedMutation
import QueryPlan.Proofs.Compile.Throughout

/-!
# Corresponding compilations

Ties the lemmas of the pieces together. One step writes a phrase whose own words fit
(`Renders.renderExpr`, `Renders.renderStatement`), given that the phrases in it correspond. By
induction on the depth, a renderer that gives up at words that do not fit gives corresponding texts,
and it never gives up if all words fit that the compilation comes to: under a lawful pairing such a
statement compiles to corresponding texts and parameters, or fails on both sides with the same error
(`Lawful.compiles`).
-/

namespace QueryPlan

namespace Pairing

variable {P : Pairing}

/-- A phrase with words that fit. Constants that are written in place have texts of their own, and
    the name of a parameter need not be clean. -/
def FitsPhrase (P : Pairing) : Phrase → Prop
  | .expr (.constant value _) =>
    ¬(P.left.constantsAsParams && !value.isNull) = true → ∀ t ∈ value.texts, P.Proper t
  | .expr (.param name _) => P.Argument name
  | p => P.Fits p.ownWords

/-- Where nothing is asked of words, all phrases fit. -/
theorem fitsPhrase_of_all (hc : ∀ t, P.Clean t) (hp : ∀ t, P.Proper t) (ha : ∀ t, P.Argument t)
    (p : Phrase) : P.FitsPhrase p := by
  unfold FitsPhrase
  split
  · exact fun _ t _ => hp t
  · exact ha _
  · exact fun t _ => hc t

namespace Renders

variable {r : Renderer} (hr : P.Renders r) (hP : P.Lawful)
include hr hP

theorem renderExpr {e : Expr} (h : P.FitsPhrase (.expr e)) :
    P.Sim P.Frag (r.renderExpr e) (r.renderExpr e) := by
  cases e with
  | constant value type =>
    refine Sim.onRead ?_
    rw [hP.constants]
    exact .ite (fun _ => (hP.constant value type).atom) fun hc => hP.literal (h hc)
  | field source name type => exact (hP.field h.head h.tail.head).atom
  | param name type => exact (hP.argument h type).atom
  | function name args type =>
    refine (hr.list hP args).map fun v t t' ht => ⟨?_, rfl⟩
    exact hP.behind (hP.front (hP.cleanBehind h.head (by decide)) ht) (by decide) (by decide)
  | aggregate kind distinct arg filter => exact hr.aggregate hP kind distinct arg filter
  | unary op operand => exact hr.unary hP (hP.unaryOpText op) _ _ operand
  | binary op left right => exact hr.binary hP (hP.binaryOpText op) _ _ left right
  | unaryPredicate op operand =>
    exact hr.unary hP (hP.unaryText (hP.prints (fun _ hf => hf.unaryPredicates) op [])) _ _ operand
  | binaryPredicate op left right =>
    exact hr.binary hP (hP.binaryText (hP.prints (fun _ hf => hf.binaryPredicates) op [])) _ _
      left right
  | conditions op operands => exact hr.conditions hP op operands
  | not operand =>
    refine (hr.operand hP operand _ _ _).bind fun v f f' hf => Sim.ended ?_
    exact hP.keywordFrag ["operand"] rfl (.text List.not_mem_nil hf .nil) _
  | case subject arms otherwise => exact hr.case hP subject arms otherwise
  | cast type operand => exact hr.cast hP h operand
  | between value low high negated => exact hr.between hP value low high negated
  | member value list negated => exact hr.member hP value list negated
  | rowsExist query negated => exact hr.rowsExist hP query negated
  | row elements => exact hr.row hP elements
  | raw sql => exact .pure ⟨hP.clean h.head, rfl⟩
  | default => exact (Sim.same hP (hP.word rfl)).atom
  | query statement => exact hr.query hP h
  | windowed e window =>
    refine hr.windowed hP e fun name hname => ?_
    subst hname
    exact h.head
  | excluded column =>
    refine (hP.quote h.head).andThen fun q hq => ?_
    refine (Sim.same hP (hP.keywordSame rfl fun p hp => ?_)).atom
    rw [List.mem_singleton.1 hp]
    exact hq

theorem renderStatement {s : Statement} (h : P.Fits s.ownWords) :
    P.Sim P.Text (r.renderStatement s) (r.renderStatement s) := by
  refine Sim.inFrame ?_
  cases s with
  | select q => exact hr.select hP h
  | setOp q => exact hr.setOperation hP h.left
  | insert c => exact hr.insert hP h
  | update c => exact hr.update hP h
  | delete c => exact hr.delete hP h

end Renders

namespace Lawful

variable (hP : P.Lawful)
include hP

open Classical in
/-- Down to every depth, what is written corresponds. -/
theorem renders (e : Error) (depth : Nat) :
    P.Renders (watchedAt (fun p _ => P.FitsPhrase p) e depth) := by
  induction depth with
  | zero => exact ⟨fun _ => .fail _, fun _ => .fail _⟩
  | succ depth ih =>
    refine ⟨fun x => Sim.onGet fun _ _ _ _ => ?_, fun s => Sim.onGet fun _ _ _ _ => ?_⟩
    · exact .ite (fun h => ih.renderExpr hP h) fun _ => .fail _
    · exact .ite (fun h => ih.renderStatement hP h) fun _ => .fail _

/-- **Compilations correspond**: from the start, a statement whose phrases fit gives corresponding
    texts and parameters, or fails on both sides with the same error. -/
theorem compiles {s : Statement} (h : ∀ σ p k, Reaches σ s p k → P.FitsPhrase p)
    {style style' : PlaceholderStyle} (hnoted : P.Noted [] (.empty style) (.empty style')) :
    P.Outcome P.Text [] (s.render P.left (.start style)) (s.render P.right (.start style')) := by
  have hthrough : ∀ (σ : Setting) (style : PlaceholderStyle),
      s.Throughout σ (.start style) fun p _ => P.FitsPhrase p := fun σ style =>
    s.throughout_of_reaches (fun p k _ hp _ => h σ p k hp) style
  have hstart : P.Paired [] (.start style) (.start style') :=
    ⟨hnoted, rfl, fun _ hs => absurd hs List.not_mem_nil, fun _ hx => by cases hx⟩
  have hrenders := hP.renders (.ofFault .endlessWindows) s.depthBound
  have houtcome := hrenders.statement s [] _ _ hstart
  rwa [hthrough, hthrough] at houtcome

/-- Where nothing is asked of words and parameters are noted alike, the states at the end are the
    same. -/
theorem compiles_alike (hclean : ∀ t, P.Clean t) (hproper : ∀ t, P.Proper t)
    (hargument : ∀ t, P.Argument t) (hnoted : ∀ trace c c', P.Noted trace c c' ↔ c' = c)
    (s : Statement) (style : PlaceholderStyle) :
    (∃ v t t' c, s.render P.left (.start style) = .ok (t, c) ∧
      s.render P.right (.start style) = .ok (t', c) ∧ P.Text v t t') ∨
    ∃ e, s.render P.left (.start style) = .error e ∧
      (s.render P.right (.start style) = .error e ∨ P.Excused e) := by
  have hfits : ∀ p, P.FitsPhrase p := fitsPhrase_of_all hclean hproper hargument
  have hboth := hP.compiles (s := s) (fun _ p _ _ => hfits p) ((hnoted [] (.empty style) _).2 rfl)
  generalize s.render P.left (.start style) = x at hboth ⊢
  generalize s.render P.right (.start style) = y at hboth ⊢
  cases hboth with
  | ok hc ht =>
    have hstate := hc.rest
    rw [(hnoted _ _ _).1 hc.params] at hstate
    exact .inl ⟨_, _, _, _, rfl, by rw [hstate], ht⟩
  | same e => exact .inr ⟨e, rfl, .inl rfl⟩
  | excused he => exact .inr ⟨_, rfl, .inr he⟩

end Lawful

end Pairing

end QueryPlan
