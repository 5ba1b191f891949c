import QueryPlan.Compile.Statement
import QueryPlan.Proofs.Compile.Run

/-!
# Operators written by templates

What is written for an operator, once it is known how its key is looked up and what is written for
its operands: in general (`operator_run₁`, `operator_run₂`), and with the template in which the
keyword stands between two operands (`infix_run`).
-/

namespace QueryPlan

open Compile

variable {s : Setting} {c : Context} {r : Renderer}

/-- A text for an operand in the slot of a template. -/
def Template.operandText (t : Template) (slot : String) (f : Fragment) (isLeft : Bool)
    (strength : Strength) (associativity : Associativity) : String :=
  (f.asOperand isLeft ((t.slotStrength? slot).getD strength) associativity).text

section

variable {κ : Type} [Worded κ] {family : Formats → Registry κ} {key : κ} {found : Lookup}
  (hlookup : lookup family key [] s c = .ok (found, c)) (strength : Strength)
  (associativity : Associativity)
include hlookup

theorem operator_run₁ {e : Expr} {f : Fragment} (hf : r.expr e s c = .ok (f, c)) :
    r.operator family key strength associativity [("operand", e)] s c =
      .ok (⟨found.template.render
        [("operand", found.template.operandText "operand" f false strength associativity),
          ("keyword", found.keyword)], found.strength.getD strength⟩, c) := by
  unfold Renderer.operator Renderer.operandTexts Renderer.operand
  rw [bind_run hlookup]
  simp only [List.zipIdx_cons, List.zipIdx_nil, List.mapM_cons, List.mapM_nil, bind_assoc,
    pure_bind]
  rw [bind_run hf]
  rfl

theorem operator_run₂ {e₁ e₂ : Expr} {f g : Fragment} (hf : r.expr e₁ s c = .ok (f, c))
    (hg : r.expr e₂ s c = .ok (g, c)) :
    r.operator family key strength associativity [("left", e₁), ("right", e₂)] s c =
      .ok (⟨found.template.render
        [("left", found.template.operandText "left" f true strength associativity),
          ("right", found.template.operandText "right" g false strength associativity),
          ("keyword", found.keyword)], found.strength.getD strength⟩, c) := by
  unfold Renderer.operator Renderer.operandTexts Renderer.operand
  rw [bind_run hlookup]
  simp only [List.zipIdx_cons, List.zipIdx_nil, List.mapM_cons, List.mapM_nil, bind_assoc,
    pure_bind]
  rw [bind_run hf, bind_run hg]
  rfl

end

theorem segments_operator :
    (Template.parse "{left} {keyword} {right}").segments =
      [.slot "left" none, .text " ", .slot "keyword" none, .text " ", .slot "right" none] := by
  decide +kernel

/-- An operator whose keyword stands between its operands. -/
theorem infix_run {κ : Type} [Worded κ] {family : Formats → Registry κ} {key : κ} {word : String}
    (hlookup : lookup family key [] s c =
      .ok (⟨.parse "{left} {keyword} {right}", word, none⟩, c))
    (strength : Strength) (associativity : Associativity) {e₁ e₂ : Expr} {f g : Fragment}
    (hf : r.expr e₁ s c = .ok (f, c)) (hg : r.expr e₂ s c = .ok (g, c)) :
    r.operator family key strength associativity [("left", e₁), ("right", e₂)] s c =
      .ok (⟨(f.asOperand true strength associativity).text ++ " " ++ word ++ " " ++
        (g.asOperand false strength associativity).text, strength⟩, c) := by
  have hslot : ∀ slot, (Template.parse "{left} {keyword} {right}").slotStrength? slot = none := by
    intro slot
    rw [Template.slotStrength?, segments_operator]
    simp
  rw [operator_run₂ hlookup strength associativity hf hg]
  simp only [Template.operandText, hslot, Option.getD_none, Template.render, Template.renderWith,
    segments_operator]
  simp [Template.slotText, Fields.get?_cons, String.append_assoc]

end QueryPlan
