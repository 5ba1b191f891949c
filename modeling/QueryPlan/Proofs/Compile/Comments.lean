import QueryPlan.Compile.Output
import QueryPlan.Proofs.Compile.PairedStatement
import QueryPlan.Proofs.Dialect.PrintOrder

/-!
# No comments

Two minus signs begin a comment. A minus sign comes from operators, from negative numbers and
intervals, from dates and offsets, and from words of the plan. Unless words bring one, no two stand
side by side in what is compiled for a built-in dialect.

A compilation is paired with itself (`separation`): texts correspond if they are equal and keep
minus signs apart. Words without minus signs and the texts of a dialect that prints in order can
stand next to any text, other texts only behind one that ends or in front of one that begins
otherwise.
-/

namespace QueryPlan

open Edges

/-! ## 1. Texts -/

mutual

/-- A constant whose words have no minus signs. -/
theorem Value.apart_texts : (v : Value) → (∀ t ∈ v.words, '-' ∉ t.toList) → ∀ t ∈ v.texts, Apart t
  | .decimal _, h => fun t ht => .ofNone (h t ht)
  | .text _, h => fun t ht => .ofNone (h t ht)
  | .json _, h =>
    List.forall_mem_singleton.2 (Json.apart_render fun t ht => .ofNone (h t ht))
  | .object fields, h =>
    List.forall_mem_singleton.2 (Json.apart_render (Value.apart_toJson (.object fields) h))
  | .array items, h => apart_valueTexts items h
  | .null, _ | .bool _, _ | .int _, _ | .uint _, _ | .float _, _ | .bytes _, _ | .date _, _
  | .time _, _ | .timestamp _, _ | .timestampTz _, _ | .interval _, _ | .point _, _ =>
    fun _ ht => absurd ht List.not_mem_nil

theorem apart_valueTexts : (items : List Value) → (∀ t ∈ itemWords items, '-' ∉ t.toList) →
    ∀ t ∈ valueTexts items, Apart t
  | [], _ => fun _ ht => absurd ht List.not_mem_nil
  | item :: rest, h => by
    obtain ⟨hitem, hrest⟩ := List.forall_mem_append.1 h
    exact List.forall_mem_append.2 ⟨item.apart_texts hitem, apart_valueTexts rest hrest⟩

end

/-! ## 2. Placeholders -/

end QueryPlan
