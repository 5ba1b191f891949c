import Mathlib.Data.List.Chain
import Mathlib.Data.List.Pairwise
import QueryPlan.Proofs.Text.Plain

/-!
# Minus signs side by side

Two minus signs side by side begin a comment. A text without them (`Apart`) can be put together of
texts without them if no two meet with a minus sign each. `Edges` says what has to be known of a
text for that: whether it may begin with a minus sign, end with one, or be empty; and besides,
whether it may have characters that placeholders begin with. The edges of texts one behind the other
follow from their own (`Edges.Fits.append`), so that a text with many pieces can be checked piece by
piece.
-/

namespace QueryPlan

/-! ## 1. Texts -/

/-- Characters that are not both minus signs. -/
def NotBothMinus (a b : Char) : Prop :=
  a = '-' → b ≠ '-'

instance (a b : Char) : Decidable (NotBothMinus a b) :=
  inferInstanceAs (Decidable (_ → _))

/-- No two minus signs of a text stand side by side. -/
def Apart (t : String) : Prop :=
  t.toList.IsChain NotBothMinus

instance (t : String) : Decidable (Apart t) :=
  inferInstanceAs (Decidable (t.toList.IsChain NotBothMinus))

/-- What can be met at the ends of a text, and inside. -/
structure Edges where
  /-- Whether it may begin with a minus sign. -/
  front : Bool
  /-- Whether it may end with a minus sign. -/
  back : Bool
  /-- Whether it may be empty. -/
  void : Bool
  /-- Whether it may have characters that placeholders begin with. -/
  marked : Bool
  deriving DecidableEq

namespace Edges

/-- Any text. -/
def loose : Edges := ⟨true, true, true, true⟩

/-- Texts that do not begin with a minus sign. -/
def guarded : Edges := ⟨false, true, true, true⟩

/-- Texts without a minus sign at either end. -/
def word : Edges := ⟨false, false, true, true⟩

/-- Plain texts. -/
def plain : Edges := ⟨true, true, true, false⟩

/-- Plain texts without a minus sign at either end. -/
def firm : Edges := ⟨false, false, true, false⟩

/-- Plain texts without a minus sign at either end, but with some character. -/
def solid : Edges := ⟨false, false, false, false⟩

/-- The edges of two texts one behind the other. -/
def append (E F : Edges) : Edges :=
  ⟨E.front || (E.void && F.front), F.back || (F.void && E.back), E.void && F.void,
    E.marked || F.marked⟩

/-- Whether two minus signs may meet where texts stand one behind the other. -/
def meets (E F : Edges) : Bool :=
  E.back && F.front

/-- Whether less is told by other edges. -/
def within (E F : Edges) : Bool :=
  (!E.front || F.front) && (!E.back || F.back) && (!E.void || F.void) && (!E.marked || F.marked)

/-- Characters with minus signs apart, and with no other edges than are told. -/
structure Spans (E : Edges) (cs : List Char) : Prop where
  apart : cs.IsChain NotBothMinus
  front : cs.head? = some '-' → E.front = true
  back : cs.getLast? = some '-' → E.back = true
  void : cs = [] → E.void = true
  isPlain : E.marked = false → ∀ c ∈ cs, IsPlainChar c

instance (E : Edges) (cs : List Char) : Decidable (E.Spans cs) :=
  decidable_of_iff
    (cs.IsChain NotBothMinus ∧ (cs.head? = some '-' → E.front = true) ∧
      (cs.getLast? = some '-' → E.back = true) ∧ (cs = [] → E.void = true) ∧
      (E.marked = false → ∀ c ∈ cs, IsPlainChar c))
    ⟨fun h => ⟨h.1, h.2.1, h.2.2.1, h.2.2.2.1, h.2.2.2.2⟩,
      fun h => ⟨h.apart, h.front, h.back, h.void, h.isPlain⟩⟩

/-- A text with minus signs apart, and with no other edges than are told. -/
abbrev Fits (E : Edges) (t : String) : Prop :=
  E.Spans t.toList

variable {E F : Edges} {cs ds : List Char} {t u s : String}

namespace Spans

/-- Characters of which none is a minus sign. -/
theorem ofNone (h : '-' ∉ cs) : word.Spans cs := by
  have hpairs : cs.Pairwise NotBothMinus :=
    List.pairwise_of_forall_mem_list fun a ha b _ ham => absurd (ham ▸ ha) h
  exact ⟨hpairs.isChain, fun hf => absurd (List.mem_of_mem_head? hf) h,
    fun hb => absurd (List.mem_of_mem_getLast? hb) h, fun _ => rfl, Bool.noConfusion⟩

theorem ofBare (h : ∀ c ∈ cs, IsBareChar c) : firm.Spans cs :=
  { ofNone fun hm => (h _ hm).2 rfl with isPlain := fun _ c hc => (h c hc).1 }

/-- Bare characters, if there are any. -/
theorem someOfBare (h : ∀ c ∈ cs, IsBareChar c) (hcs : cs ≠ []) : solid.Spans cs :=
  { ofBare h with void := fun hv => absurd hv hcs }

theorem append (hc : E.Spans cs) (hd : F.Spans ds) (h : E.meets F = false) :
    (E.append F).Spans (cs ++ ds) := by
  refine ⟨?_, ?_, ?_, ?_, ?_⟩
  · refine List.isChain_append.2 ⟨hc.apart, hd.apart, fun x hx y hy hxm hym => ?_⟩
    subst hxm hym
    have hmeets : E.meets F = true := Bool.and_eq_true_iff.2 ⟨hc.back hx, hd.front hy⟩
    rw [h] at hmeets
    cases hmeets
  · cases cs with
    | nil =>
      intro hf
      exact Bool.or_eq_true_iff.2 (.inr (Bool.and_eq_true_iff.2 ⟨hc.void rfl, hd.front hf⟩))
    | cons c cs => exact fun hf => Bool.or_eq_true_iff.2 (.inl (hc.front hf))
  · intro hb
    rw [List.getLast?_append] at hb
    cases hlast : ds.getLast? with
    | none =>
      rw [hlast] at hb
      have hvoid := hd.void (List.getLast?_eq_none_iff.1 hlast)
      exact Bool.or_eq_true_iff.2 (.inr (Bool.and_eq_true_iff.2 ⟨hvoid, hc.back hb⟩))
    | some d =>
      rw [hlast] at hb
      exact Bool.or_eq_true_iff.2 (.inl (hd.back (hlast.trans hb)))
  · intro hv
    obtain ⟨hcs, hds⟩ := List.append_eq_nil_iff.1 hv
    exact Bool.and_eq_true_iff.2 ⟨hc.void hcs, hd.void hds⟩
  · intro hm
    obtain ⟨hE, hF⟩ := Bool.or_eq_false_iff.1 hm
    exact fun c hmem => (List.mem_append.1 hmem).elim (hc.isPlain hE c) (hd.isPlain hF c)

/-- Less can be told of the same characters. -/
theorem mono (h : E.Spans cs) (hw : E.within F = true) : F.Spans cs := by
  simp only [within, Bool.and_eq_true, Bool.or_eq_true, Bool.not_eq_true'] at hw
  obtain ⟨⟨⟨hf, hb⟩, hv⟩, hm⟩ := hw
  refine ⟨h.apart, fun hc => ?_, fun hc => ?_, fun hc => ?_, fun hF => h.isPlain ?_⟩
  · exact hf.resolve_left (by rw [h.front hc]; decide)
  · exact hb.resolve_left (by rw [h.back hc]; decide)
  · exact hv.resolve_left (by rw [h.void hc]; decide)
  · exact hm.resolve_right (by rw [hF]; decide)

theorem loosen (h : E.Spans cs) : loose.Spans cs :=
  ⟨h.apart, fun _ => rfl, fun _ => rfl, fun _ => rfl, Bool.noConfusion⟩

/-- A single bare character. -/
theorem single {c : Char} (hc : IsBareChar c) : solid.Spans [c] :=
  someOfBare (List.forall_mem_singleton.2 hc) (List.cons_ne_nil c [])

/-- A minus sign, or nothing. -/
theorem sign {b : Prop} [Decidable b] : plain.Spans (if b then ['-'] else []) := by
  split <;> decide

/-- A substitution that leaves minus signs as they are and brings no others. -/
theorem flatMap {f : Char → List Char} (hminus : f '-' = ['-'])
    (hother : ∀ c, c ≠ '-' → '-' ∉ f c ∧ f c ≠ []) (h : cs.IsChain NotBothMinus) :
    loose.Spans (cs.flatMap f) := by
  -- What follows a minus sign begins with one only if it did so before.
  have hboth : (cs.flatMap f).IsChain NotBothMinus ∧
      ((cs.flatMap f).head? = some '-' → cs.head? = some '-') := by
    induction cs with
    | nil => exact ⟨.nil, id⟩
    | cons c cs ih =>
      obtain ⟨hnext, hrest⟩ := List.isChain_cons.1 h
      obtain ⟨hchain, hhead⟩ := ih hrest
      rw [List.flatMap_cons]
      by_cases hc : c = '-'
      · subst hc
        rw [hminus]
        refine ⟨List.isChain_cons.2 ⟨fun y hy hm hym => ?_, hchain⟩, fun _ => rfl⟩
        subst hym
        exact hnext '-' (hhead hy) rfl rfl
      · obtain ⟨hnone, hsome⟩ := hother c hc
        refine ⟨List.isChain_append.2 ⟨(ofNone hnone).apart, hchain, fun x hx y _ hxm => ?_⟩, ?_⟩
        · subst hxm
          exact absurd (List.mem_of_mem_getLast? hx) hnone
        · intro hf
          rw [List.head?_append_of_ne_nil _ hsome] at hf
          exact absurd (List.mem_of_mem_head? hf) hnone
  exact ⟨hboth.1, fun _ => rfl, fun _ => rfl, fun _ => rfl, Bool.noConfusion⟩

/-- Between quotes, with some characters other than minus signs doubled, minus signs stay apart. -/
theorem quoted {f : Char → List Char} (hminus : f '-' = ['-']) (hf : ∀ x, ∀ c ∈ f x, c = x)
    (hsome : ∀ x, f x ≠ []) {opening closing : Char} (ho : IsBareChar opening)
    (hc : IsBareChar closing) (h : cs.IsChain NotBothMinus) :
    word.Spans (opening :: cs.flatMap f ++ [closing]) := by
  have hinside := flatMap hminus (fun x hx => ⟨fun hm => hx (hf x _ hm).symm, hsome x⟩) h
  exact (((single ho).append hinside rfl).append (single hc) rfl).mono rfl

end Spans

namespace Fits

theorem apart (h : E.Fits t) : Apart t :=
  Spans.apart h

theorem ofList (h : E.Spans cs) : E.Fits (String.ofList cs) := by
  rw [Fits, String.toList_ofList]
  exact h

theorem append (ht : E.Fits t) (hu : F.Fits u) (h : E.meets F = false) :
    (E.append F).Fits (t ++ u) := by
  rw [Fits, String.toList_append]
  exact Spans.append ht hu h

/-- Plain texts with a separator between them. -/
theorem intercalate (hs : solid.Fits s) {ts : List String} (h : ∀ t ∈ ts, plain.Fits t) :
    plain.Fits (s.intercalate ts) := by
  induction ts with
  | nil =>
    rw [String.intercalate_nil]
    decide
  | cons t rest ih =>
    rw [List.forall_mem_cons] at h
    cases rest with
    | nil =>
      rw [String.intercalate_singleton]
      exact h.1
    | cons u rest =>
      rw [String.intercalate_cons_cons]
      exact ((h.1.append hs rfl).append (ih h.2) rfl).mono rfl

end Fits

end Edges

namespace Apart

variable {t : String}

theorem loose (h : Apart t) : Edges.loose.Fits t :=
  ⟨h, fun _ => rfl, fun _ => rfl, fun _ => rfl, Bool.noConfusion⟩

theorem ofNone (h : '-' ∉ t.toList) : Apart t :=
  (Edges.Spans.ofNone h).apart

end Apart

end QueryPlan
