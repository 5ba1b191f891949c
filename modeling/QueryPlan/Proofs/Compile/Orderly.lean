import QueryPlan.Compile.Statement
import QueryPlan.Proofs.Value.Signs

/-!
# Dialects that print in order

The compiler renders the parts of a statement one after the other and puts their texts into the
templates of the dialect. Where parameters are marked by position, the order in which parts are
rendered has to be the order in which a template prints them. `Dialect.Orderly` says this of a
dialect, slot by slot: `Template.inOrder` is the test for one template, and `Keyword.slots` has the
slots that hold rendered text. What a dialect writes itself is plain, and has no minus sign at
either end, operators apart.

A text opens (`opens`) if it can stand behind any other: behind a placeholder without being read as
part of it, and behind a minus sign without beginning a comment.
-/

namespace QueryPlan

open Edges

/-! ## 1. Texts that open -/

/-- A text that begins, and neither with a digit nor with a minus sign: in front of it a placeholder
    ends, and a minus sign stands alone. -/
def opens (t : String) : Bool :=
  match t.toList with
  | [] => false
  | c :: _ => !c.isDigit && c != '-'

theorem opens_append {a : String} (h : opens a = true) (b : String) : opens (a ++ b) = true := by
  unfold opens at h ⊢
  rw [String.toList_append]
  cases ha : a.toList with
  | nil => simp [ha] at h
  | cons c cs => simpa [ha] using h

/-! ## 2. Templates that print in order -/

/-- Whether what follows a slot keeps a placeholder in it apart. -/
def segmentsOpen : List Segment → Bool
  | [] => true
  | .text t :: _ => opens t
  | .slot _ _ :: _ => false

/-- Whether segments print the slots of the pending names in order and each once. All other slots
    are for texts like those of the dialect. -/
def segmentsInOrder (names : List String) : (pending : List String) → List Segment → Bool
  | pending, [] => pending.isEmpty
  | pending, .text t :: rest => decide (firm.Fits t) && segmentsInOrder names pending rest
  | [], .slot name _ :: rest => !names.contains name && segmentsInOrder names [] rest
  | next :: others, .slot name _ :: rest =>
    if name = next then segmentsOpen rest && segmentsInOrder names others rest
    else !names.contains name && segmentsInOrder names (next :: others) rest

/-- Whether a template prints the slots of some names in order and each once. -/
def Template.inOrder (t : Template) (names : List String) : Bool :=
  segmentsInOrder names names t.segments

/-! ## 3. Registries, formats and dialects -/

/-- The slots of a keyword that hold rendered text, in the order in which it is rendered. -/
def Keyword.slots : Keyword → List String
  | .distinctOn => ["exprs"]
  | .onConflict => ["action"]
  | .onDuplicateKey => ["assignments"]
  | .update => ["table"]
  | .assign => ["assignments"]
  | .delete => ["table"]
  | .cast => ["operand"]
  | .not => ["operand"]
  | .rowsExist => ["query"]
  | .noRowsExist => ["query"]
  | .member => ["value", "list"]
  | .notMember => ["value", "list"]
  | .between => ["value", "low", "high"]
  | .notBetween => ["value", "low", "high"]
  | .row => ["elements"]
  | .valuesRow => ["elements"]
  | .windowed => ["expr", "window"]
  | _ => []

/-- The slots of a literal form. -/
def LiteralKind.slots : LiteralKind → List String
  | .null => []
  | .true => []
  | .false => []
  | .bytes => ["hex"]
  | .point => ["x", "y"]
  | .array => ["elements"]
  | _ => ["value"]

section

variable {κ : Type} [Worded κ]

/-- Whether a key has a firm keyword, and templates that print the slots of some names in order. -/
def Registry.OrderlyAt (r : Registry κ) (names : List String) (k : κ) : Prop :=
  firm.Fits (r.keyword k) ∧ ∀ params, (r.template k params).inOrder names = true

/-- A registry whose keywords are firm, and whose templates print the slots of some names in
    order. -/
def Registry.Orderly (r : Registry κ) (names : κ → List String) : Prop :=
  ∀ k, r.OrderlyAt (names k) k

/-- Whether a template has its keyword directly in front of the operand. -/
def Template.isSigned (t : Template) : Bool :=
  match t.segments with
  | [.slot keyword _, .slot operand _] => keyword == "keyword" && operand == "operand"
  | _ => false

end

/-- Formats whose templates print what is rendered in the order in which it is rendered. The filter
    of an aggregate stands behind the argument as a clause and in front of it as a case. -/
structure Formats.Orderly (f : Formats) : Prop where
  /-- A minus sign stands directly in front of its operand. -/
  unaryOps : ∀ op, f.unaryOps.OrderlyAt ["operand"] op ∨
    f.unaryOps.keyword op = "-" ∧ (f.unaryOps.template op []).isSigned = true
  /-- A keyword that may have minus signs is kept apart from both operands. -/
  binaryOps : ∀ op, f.binaryOps.OrderlyAt ["left", "right"] op ∨
    plain.Fits (f.binaryOps.keyword op) ∧
      (f.binaryOps.template op []).inOrder ["left", "keyword", "right"] = true
  unaryPredicates : f.unaryPredicates.Orderly fun _ => ["operand"]
  binaryPredicates : f.binaryPredicates.Orderly fun _ => ["left", "right"]
  keywords : f.keywords.Orderly Keyword.slots
  literals : f.literals.Orderly LiteralKind.slots
  types : f.types.Orderly fun _ => []
  setOps : f.setOps.Orderly fun _ => []
  json : f.json.Orderly fun _ => []
  jsonNested : ∀ params, (f.json.template .nested params).inOrder ["value"] = true
  aggregateKeyword : ∀ k, firm.Fits (f.aggregates.keyword k)
  aggregate : ∀ k params, params.isPresent "filter" = false →
    params.isPresent "filter_case" = false → (f.aggregates.template k params).inOrder ["arg"] = true
  aggregateFilter : ∀ k params, params.isPresent "filter" = true →
    (f.aggregates.template k params).inOrder ["arg", "filter"] = true
  aggregateCase : ∀ k params, params.isPresent "filter" = false →
    params.isPresent "filter_case" = true →
    (f.aggregates.template k params).inOrder ["filter_case", "arg"] = true
  joinKeyword : ∀ k, firm.Fits (f.joins.keyword k)
  join : ∀ k params, params.isPresent "condition" = false →
    (f.joins.template k params).inOrder ["source"] = true
  joinCondition : ∀ k params, params.isPresent "condition" = true →
    (f.joins.template k params).inOrder ["source", "condition"] = true

/-- An order that begins with the common table expressions and has them once. -/
def ctesFirst : List Clause → Bool
  | .ctes :: rest => !rest.contains .ctes
  | _ => false

/-- A dialect that prints what is rendered in order, among firm texts of its own. -/
structure Dialect.Orderly (d : Dialect) : Prop where
  quoteOpen : IsBareChar d.quoteOpen
  quoteClose : IsBareChar d.quoteClose
  conventions : d.conventions.Orderly
  formats : d.formats.Orderly
  selectOrder : ctesFirst d.selectOrder = true
  insertOrder : ctesFirst d.insertOrder = true
  updateOrder : ctesFirst d.updateOrder = true
  deleteOrder : ctesFirst d.deleteOrder = true

end QueryPlan
