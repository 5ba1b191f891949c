import QueryPlan.Proofs.Compile.Pairing

/-!
# Corresponding texts

What a pairing has to show (`Pairing.Lawful`), and how corresponding texts are put together: by
writing clean text in front, between and behind (`Lawful.front`, `Lawful.between`,
`Lawful.behind`), with separators (`Lawful.intercalate`), and through the templates of the dialect
(`Lawful.write`, `Lawful.writeSame`).

A template is given the texts of its slots by name. `Pairing.Filled` compares two such lists: the
slots of some names hold corresponding texts, in the order in which these were rendered, and all
others hold the same clean text.
-/

namespace QueryPlan

open Edges

variable {ts : List String} {a b keyword t : String}

namespace Pairing

/-! ## 1. Laws -/

/-- What makes a pairing fit for whole compilations. -/
structure Lawful (P : Pairing) : Prop where
  /-- The dialects differ in the marks of parameters at most. -/
  dialect : P.right.dialect = P.left.dialect.withPlaceholder P.right.dialect.placeholder
  constants : P.right.constantsAsParams = P.left.constantsAsParams
  /-- Where the left side is stricter, it may give up. -/
  strict : P.left.strict = P.right.strict ∨
    P.left.strict = true ∧ ∀ e, e.isUnsupported = true → P.Excused e
  arrangement : P.Free ∨ P.left.dialect.Orderly
  free : P.Free → ∀ {v w : List Nat} {t t' : String}, P.Text v t t' → P.Text w t t'
  freeClean : P.Free → ∀ t, P.Clean t
  ofFirm : ∀ {t : String}, firm.Fits t → P.Clean t
  cleanAppend : ∀ {a b : String}, P.Clean a → P.Clean b → P.Clean (a ++ b)
  quoteIdent : ∀ {t : String}, P.Clean t → P.Clean (P.left.dialect.quoteIdent t)
  stringLiteral : ∀ {t : String}, P.Clean t → P.Clean (P.left.dialect.conventions.stringLiteral t)
  ofPlain : ∀ {t : String}, plain.Fits t → P.Proper t
  properLiteral : ∀ {t : String}, P.Proper t →
    P.Proper (P.left.dialect.conventions.stringLiteral t)
  intervalValue : ∀ {i : Interval} {t : String},
    P.left.dialect.conventions.intervalValue i = .ok t → P.Proper t
  clean : ∀ {t : String}, P.Clean t → P.Text [] t t
  proper : ∀ {t : String}, P.Proper t → P.Text [] t t
  /-- Clean text in front. -/
  front : ∀ {v : List Nat} {a b b' : String}, P.Clean a → P.Text v b b' →
    P.Text v (a ++ b) (a ++ b')
  /-- A minus sign in front. -/
  sign : ∀ {v : List Nat} {t t' : String}, P.Operand v t t' → P.Text v ("-" ++ t) ("-" ++ t')
  /-- Text behind other text, from which it is kept apart. -/
  append : ∀ {v w : List Nat} {a a' b b' : String}, P.Text v a a' → P.Text w b b' →
    (P.Free ∨ opens b = true ∨ b = "") → P.Text (v ++ w) (a ++ b) (a' ++ b')
  present : ∀ {v : List Nat} {t t' : String}, P.Text v t t' → (t' = "" ↔ t = "")
  /-- Empty text adds nothing to a trace. -/
  empty : ∀ {v w : List Nat} {t t' : String}, P.Text w "" "" → P.Text v t t' →
    P.Text (v ++ w) t t' ∧ P.Text (w ++ v) t t'
  operandText : ∀ {v : List Nat} {t t' : String}, P.Operand v t t' → P.Text v t t'
  operand : ∀ {v : List Nat} {t t' : String}, P.Text v t t' →
    ∀ (strength : Strength) (isLeft : Bool) (parent : Strength) (associativity : Associativity),
      P.Text v (Fragment.asOperand ⟨t, strength⟩ isLeft parent associativity).text
        (Fragment.asOperand ⟨t', strength⟩ isLeft parent associativity).text
  /-- An operand that is not the left one does not begin with a sign. -/
  guarded : ∀ {v : List Nat} {t t' : String}, P.Text v t t' →
    ∀ (strength parent : Strength) (associativity : Associativity),
      P.Operand v (Fragment.asOperand ⟨t, strength⟩ false parent associativity).text
        (Fragment.asOperand ⟨t', strength⟩ false parent associativity).text
  wrapWeak : ∀ {v : List Nat} {t t' : String}, P.Text v t t' →
    P.Text v (Renderer.wrapWeak t) (Renderer.wrapWeak t')
  /-- References are simplified in the same way, or columns correspond in any case. -/
  references : P.right.simplifyReferences = P.left.simplifyReferences ∨
    ∀ source name : String, P.Sim P.Text (Renderer.field source name) (Renderer.field source name)
  named : ∀ {trace : List Nat} {c c' : Collector} {name : String} (type : Option DataType),
    P.Argument name → P.Noted trace c c' →
      ∃ v, P.Noted (trace ++ v) (c.named name type).2 (c'.named name type).2 ∧
        P.Text v (c.named name type).1 (c'.named name type).1
  value : ∀ {trace : List Nat} {c c' : Collector} (value : Value) (type : Option DataType),
    P.Noted trace c c' → ∃ v, P.Noted (trace ++ v) (c.value value type).2 (c'.value value type).2 ∧
      P.Text v (c.value value type).1 (c'.value value type).1
  /-- What was noted since a mark is noted once more. -/
  repeated : ∀ {trace v : List Nat} {c c' d d' : Collector}, P.Noted trace c c' →
    P.Noted (trace ++ v) d d' →
      P.Noted (trace ++ v ++ v) (d.repeatSince c.mark) (d'.repeatSince c'.mark)

variable {P : Pairing}

/-! ## 2. Clean texts -/

namespace Lawful

variable (hP : P.Lawful)
include hP

theorem cleanJoin (h : ∀ t ∈ ts, P.Clean t) : P.Clean (String.join ts) := by
  induction ts with
  | nil => exact hP.ofFirm (t := "") (by decide)
  | cons t rest ih =>
    rw [List.forall_mem_cons] at h
    rw [String.join_cons]
    exact hP.cleanAppend h.1 (ih h.2)

theorem cleanIntercalate {s : String} (hs : firm.Fits s) (h : ∀ t ∈ ts, P.Clean t) :
    P.Clean (s.intercalate ts) := by
  induction ts with
  | nil =>
    rw [String.intercalate_nil]
    exact hP.ofFirm (by decide)
  | cons t rest ih =>
    rw [List.forall_mem_cons] at h
    cases rest with
    | nil =>
      rw [String.intercalate_singleton]
      exact h.1
    | cons u rest =>
      rw [String.intercalate_cons_cons]
      exact hP.cleanAppend (hP.cleanAppend h.1 (hP.ofFirm hs)) (ih h.2)

theorem cleanBehind (ha : P.Clean a) (hb : firm.Fits b) : P.Clean (a ++ b) :=
  hP.cleanAppend ha (hP.ofFirm hb)

theorem nat (n : Nat) : P.Clean (toString n) :=
  hP.ofFirm ((fits_nat n).mono rfl)

end Lawful

theorem Fits.left {us : List String} (h : P.Fits (ts ++ us)) : P.Fits ts :=
  fun t ht => h t (List.mem_append_left us ht)

theorem Fits.right {us : List String} (h : P.Fits (ts ++ us)) : P.Fits us :=
  fun t ht => h t (List.mem_append_right ts ht)

theorem Fits.head (h : P.Fits (t :: ts)) : P.Clean t :=
  h t List.mem_cons_self

theorem Fits.tail (h : P.Fits (t :: ts)) : P.Fits ts :=
  fun u hu => h u (List.mem_cons_of_mem t hu)

/-! ## 3. Texts one behind the other -/

namespace Lawful

variable (hP : P.Lawful) {v w : List Nat}
include hP

/-- Text of the dialect in front. -/
theorem inFront {b' : String} (ha : firm.Fits a) (hb : P.Text v b b') :
    P.Text v (a ++ b) (a ++ b') :=
  hP.front (hP.ofFirm ha) hb

/-- Text of the dialect behind. -/
theorem behind {a' : String} (ha : P.Text v a a') (hb : firm.Fits b) (ho : opens b = true) :
    P.Text v (a ++ b) (a' ++ b) := by
  have h := hP.append ha (hP.clean (hP.ofFirm hb)) (.inr (.inl ho))
  rwa [List.append_nil] at h

/-- Text of the dialect between. -/
theorem between {a' c c' : String} (ha : P.Text v a a') (hb : firm.Fits b) (ho : opens b = true)
    (hc : P.Text w c c') : P.Text (v ++ w) (a ++ b ++ c) (a' ++ b ++ c') := by
  rw [String.append_assoc, String.append_assoc]
  exact hP.append ha (hP.inFront hb hc) (.inr (.inl (opens_append ho c)))

theorem parenthesized {t' : String} (ht : P.Text v t t') :
    P.Text v ("(" ++ t ++ ")") ("(" ++ t' ++ ")") :=
  hP.behind (hP.inFront (by decide) ht) (by decide) (by decide)

/-- Texts with a separator between them. -/
theorem intercalate {s : String} (hs : firm.Fits s) (ho : opens s = true) {ts' : List String}
    (h : Each P.Text v ts ts') : P.Text v (s.intercalate ts) (s.intercalate ts') := by
  induction h with
  | nil =>
    rw [String.intercalate_nil]
    exact hP.clean (hP.ofFirm (by decide))
  | @cons v w t t' rest rest' ht hrest ih =>
    cases hrest with
    | nil =>
      rw [String.intercalate_singleton, String.intercalate_singleton, List.append_nil]
      exact ht
    | cons hu hrest =>
      rw [String.intercalate_cons_cons, String.intercalate_cons_cons]
      exact hP.between ht hs ho ih

/-- Texts that are each kept apart from what is in front. -/
theorem join {ts' : List String} (h : Each (fun v t t' => P.Text v t t' ∧ opens t = true) v ts ts') :
    P.Text v (String.join ts) (String.join ts') := by
  induction h with
  | nil => exact hP.clean (hP.ofFirm (t := "") (by decide))
  | @cons v w t t' rest rest' ht hrest ih =>
    rw [String.join_cons, String.join_cons]
    refine hP.append ht.1 ih (.inr ?_)
    cases hrest with
    | nil => exact .inr rfl
    | cons hu _ =>
      rw [String.join_cons]
      exact .inl (opens_append hu.2 _)

end Lawful

end Pairing

/-! ## 4. Templates -/

/-- A segment with the texts of slots. -/
def Segment.fill (slots : String → String) : Segment → String
  | .text t => t
  | .slot name _ => slots name

theorem Template.renderWith_eq (t : Template) (params : Params) (keyword : String) :
    t.renderWith params keyword =
      String.join (t.segments.map (Segment.fill (slotText params keyword))) := by
  unfold Template.renderWith
  congr 2

theorem Template.slotText_cons (name t : String) (params : Params) (keyword n : String) :
    slotText ((name, t) :: params) keyword n =
      if n = name then t else slotText params keyword n := by
  unfold Template.slotText
  rw [Fields.get?_cons]
  by_cases h : n = name
  · rw [if_pos h, if_pos h]
  · rw [if_neg h, if_neg h]

theorem Params.isPresent_cons (name t : String) (params : Params) (n : String) :
    Params.isPresent ((name, t) :: params) n =
      if n = name then t != "" else Params.isPresent params n := by
  unfold Params.isPresent
  rw [Fields.get?_cons]
  by_cases h : n = name
  · rw [if_pos h, if_pos h]
  · rw [if_neg h, if_neg h]

/-- The order in which texts are given does not matter. -/
theorem Fields.get?_swap {α : Type} (hab : a ≠ b) (t u : α) (fields : List (String × α))
    (n : String) : get? ((b, u) :: (a, t) :: fields) n = get? ((a, t) :: (b, u) :: fields) n := by
  simp only [get?_cons]
  by_cases ha : n = a
  · rw [if_pos ha, if_pos ha, if_neg fun hb => hab (ha.symm.trans hb)]
  · rw [if_neg ha, if_neg ha]

/-- What is in front of the filled segments is kept apart from them. -/
theorem opens_fill {slots : String → String} {segments : List Segment}
    (h : segmentsOpen segments = true) :
    opens (String.join (segments.map (Segment.fill slots))) = true ∨
      String.join (segments.map (Segment.fill slots)) = "" := by
  cases segments with
  | nil => exact .inr rfl
  | cons segment rest =>
    cases segment with
    | text t =>
      rw [List.map_cons, String.join_cons]
      exact .inl (opens_append h _)
    | slot name strength => cases h

namespace Pairing

variable (P : Pairing)

/-- Texts of slots, by name: those of some names correspond, all others are the same and clean. -/
structure Slots (names : List String) (v : List Nat) (f f' : String → String) : Prop where
  others : ∀ n, n ∉ names → f' n = f n ∧ P.Clean (f n)
  texts : Each P.Text v (names.map f) (names.map f')

/-- Texts for a template: those of some names correspond, in their order, and all others are the
    same and clean. -/
inductive Filled : List String → List Nat → Params → Params → Prop where
  | nil : Filled [] [] [] []
  | text {n t t' : String} {names : List String} {v w : List Nat} {ps ps' : Params}
      (hn : n ∉ names) (ht : P.Text v t t') (h : Filled names w ps ps') :
      Filled (n :: names) (v ++ w) ((n, t) :: ps) ((n, t') :: ps')
  | clean {n t : String} {names : List String} {v : List Nat} {ps ps' : Params}
      (hn : n ∉ names) (ht : P.Clean t) (h : Filled names v ps ps') :
      Filled names v ((n, t) :: ps) ((n, t) :: ps')
  /-- The order of the list does not matter. -/
  | swap {a b t t' u u' : String} {names : List String} {v : List Nat} {ps ps' : Params}
      (hab : a ≠ b) (h : Filled names v ((a, t) :: (b, u) :: ps) ((a, t') :: (b, u') :: ps')) :
      Filled names v ((b, u) :: (a, t) :: ps) ((b, u') :: (a, t') :: ps')

variable {P}

namespace Filled

variable {names : List String} {v : List Nat} {ps ps' : Params}

/-- Further names do not change the texts of those before. -/
theorem map_slotText {name : String} (hn : name ∉ names) :
    names.map (Template.slotText ((name, t) :: ps) keyword) =
      names.map (Template.slotText ps keyword) := by
  refine List.map_congr_left fun m hm => ?_
  rw [Template.slotText_cons, if_neg]
  rintro rfl
  exact hn hm

theorem slots (hP : P.Lawful) (h : P.Filled names v ps ps') (hk : P.Clean keyword) :
    P.Slots names v (Template.slotText ps keyword) (Template.slotText ps' keyword) := by
  induction h with
  | nil =>
    refine ⟨fun n _ => ⟨rfl, ?_⟩, .nil⟩
    show P.Clean (if n == "keyword" then keyword else "")
    split
    · exact hk
    · exact hP.ofFirm (by decide)
  | text hn ht _ ih =>
    refine ⟨fun n hmem => ?_, ?_⟩
    · rw [List.mem_cons, not_or] at hmem
      rw [Template.slotText_cons, Template.slotText_cons, if_neg hmem.1, if_neg hmem.1]
      exact ih.others n hmem.2
    · rw [List.map_cons, List.map_cons, map_slotText hn, map_slotText hn, Template.slotText_cons,
        Template.slotText_cons, if_pos rfl, if_pos rfl]
      exact .cons ht ih.texts
  | @clean name t names v ps ps' hn ht _ ih =>
    refine ⟨fun n hmem => ?_, ?_⟩
    · rw [Template.slotText_cons, Template.slotText_cons]
      by_cases h : n = name
      · rw [if_pos h, if_pos h]
        exact ⟨rfl, ht⟩
      · rw [if_neg h, if_neg h]
        exact ih.others n hmem
    · rw [map_slotText hn, map_slotText hn]
      exact ih.texts
  | @swap a b t t' u u' names v ps ps' hab _ ih =>
    have hslots : ∀ (t u : String) (ps : Params),
        Template.slotText ((b, u) :: (a, t) :: ps) keyword =
          Template.slotText ((a, t) :: (b, u) :: ps) keyword := by
      intro t u ps
      funext n
      unfold Template.slotText
      rw [Fields.get?_swap hab]
    rw [hslots, hslots]
    exact ih

theorem isPresent (hP : P.Lawful) (h : P.Filled names v ps ps') (n : String) :
    Params.isPresent ps' n = Params.isPresent ps n := by
  induction h with
  | nil => rfl
  | @text name t t' _ _ _ _ _ _ ht _ ih =>
    have hne : (t' != "") = (t != "") := by
      rw [Bool.eq_iff_iff, bne_iff_ne, bne_iff_ne]
      exact not_congr (hP.present ht)
    rw [Params.isPresent_cons, Params.isPresent_cons, ih, hne]
  | clean _ _ _ ih => rw [Params.isPresent_cons, Params.isPresent_cons, ih]
  | swap hab _ ih =>
    unfold Params.isPresent at ih ⊢
    rw [Fields.get?_swap hab, Fields.get?_swap hab]
    exact ih

/-- Only clean texts. -/
theorem ofClean (h : ∀ p ∈ ps, P.Clean p.2) : P.Filled [] [] ps ps := by
  induction ps with
  | nil => exact .nil
  | cons p rest ih =>
    exact .clean List.not_mem_nil (h p List.mem_cons_self)
      (ih fun q hq => h q (List.mem_cons_of_mem p hq))

/-- An empty text is not printed, and adds nothing to the trace of another one. -/
theorem empty (hP : P.Lawful) {w : List Nat} {n m t' u : String} (hu : P.Text w "" u)
    (ht : P.Text v t t') :
    P.Filled [n] (v ++ w) [(n, t), (m, "")] [(n, t'), (m, u)] ∧
      P.Filled [n] (w ++ v) [(n, t), (m, "")] [(n, t'), (m, u)] := by
  obtain rfl := (hP.present hu).2 rfl
  have hfilled : ∀ {x}, P.Text x t t' → P.Filled [n] x [(n, t), (m, "")] [(n, t'), (m, "")] := by
    intro x hx
    have hlast : P.Filled [] [] [(m, "")] [(m, "")] :=
      .clean List.not_mem_nil (hP.ofFirm (by decide)) .nil
    have h := Filled.text (n := n) List.not_mem_nil hx hlast
    rwa [List.append_nil] at h
  exact (hP.empty hu ht).imp hfilled hfilled

end Filled

namespace Lawful

variable (hP : P.Lawful) {v w : List Nat} {names : List String} {f f' : String → String}
include hP

/-- Only clean texts give clean text. -/
theorem cleanFill (hc : ∀ n, P.Clean (f n)) {segments : List Segment}
    (hs : P.Free ∨ segmentsInOrder [] [] segments = true) :
    P.Clean (String.join (segments.map (Segment.fill f))) := by
  rcases hs with hf | hs
  · exact hP.freeClean hf _
  induction segments with
  | nil => exact hP.ofFirm (t := "") (by decide)
  | cons segment rest ih =>
    rw [List.map_cons, String.join_cons]
    cases segment with
    | text t =>
      simp only [segmentsInOrder, Bool.and_eq_true, decide_eq_true_eq] at hs
      exact hP.cleanAppend (hP.ofFirm hs.1) (ih hs.2)
    | slot name strength =>
      simp only [segmentsInOrder, Bool.and_eq_true] at hs
      exact hP.cleanAppend (hc name) (ih hs.2)

/-- **A template that prints in order** keeps texts in correspondence. The induction is on its
    segments, with the texts that are still to be printed. -/
theorem fillInOrder (ho : ∀ n, n ∉ names → f' n = f n ∧ P.Clean (f n)) (segments : List Segment) :
    ∀ (pending : List String) (v : List Nat), segmentsInOrder names pending segments = true →
      Each P.Text v (pending.map f) (pending.map f') →
      P.Text v (String.join (segments.map (Segment.fill f)))
        (String.join (segments.map (Segment.fill f'))) := by
  induction segments with
  | nil =>
    intro pending v hs ht
    cases pending with
    | nil =>
      cases ht
      exact hP.clean (hP.ofFirm (t := "") (by decide))
    | cons n rest => simp [segmentsInOrder] at hs
  | cons segment rest ih =>
    intro pending v hs ht
    rw [List.map_cons, List.map_cons, String.join_cons, String.join_cons]
    cases segment with
    | text t =>
      simp only [segmentsInOrder, Bool.and_eq_true, decide_eq_true_eq] at hs
      exact hP.inFront hs.1 (ih pending v hs.2 ht)
    | slot name strength =>
      have hother : ∀ pending, name ∉ names → segmentsInOrder names pending rest = true →
          Each P.Text v (pending.map f) (pending.map f') →
          P.Text v (f name ++ String.join (rest.map (Segment.fill f)))
            (f' name ++ String.join (rest.map (Segment.fill f'))) := by
        intro pending hn hs ht
        rw [(ho name hn).1]
        exact hP.front (ho name hn).2 (ih pending v hs ht)
      cases pending with
      | nil =>
        simp only [segmentsInOrder, Bool.and_eq_true, Bool.not_eq_true', List.contains_eq_mem,
          decide_eq_false_iff_not] at hs
        exact hother [] hs.1 hs.2 ht
      | cons next others =>
        simp only [segmentsInOrder] at hs
        split at hs
        · next hname =>
          subst hname
          rw [Bool.and_eq_true] at hs
          cases ht with
          | cons hfirst hothers =>
            exact hP.append hfirst (ih others _ hs.2 hothers) (.inr (opens_fill hs.1))
        · simp only [Bool.and_eq_true, Bool.not_eq_true', List.contains_eq_mem,
            decide_eq_false_iff_not] at hs
          exact hother (next :: others) hs.1 hs.2 ht

/-- Where traces do not matter, any template keeps texts in correspondence. -/
theorem fillFree (hf : P.Free) (h : P.Slots names v f f') (segments : List Segment) :
    P.Text w (String.join (segments.map (Segment.fill f)))
      (String.join (segments.map (Segment.fill f'))) := by
  have hslot : ∀ n, P.Text [] (f n) (f' n) := by
    intro n
    by_cases hn : n ∈ names
    · obtain ⟨u, hu⟩ := h.texts.of_mem_map hn
      exact hP.free hf hu
    · rw [(h.others n hn).1]
      exact hP.clean (h.others n hn).2
  induction segments with
  | nil => exact hP.free hf (hP.clean (hP.freeClean hf _))
  | cons segment rest ih =>
    rw [List.map_cons, List.map_cons, String.join_cons, String.join_cons]
    refine hP.free hf (hP.append (v := []) ?_ ih (.inl hf))
    cases segment with
    | text t => exact hP.clean (hP.freeClean hf t)
    | slot name strength => exact hslot name

end Lawful

/-! ## 5. The families of the dialect -/

/-- A key with a firm keyword, whose template prints the slots of some names in order. -/
def Prints (P : Pairing) {κ : Type} [Worded κ] (family : Formats → Registry κ) (key : κ)
    (params : Params) (names : List String) : Prop :=
  P.Free ∨ firm.Fits ((family P.left.dialect.formats).keyword key) ∧
    ((family P.left.dialect.formats).template key params).inOrder names = true

theorem Prints.ordered {κ : Type} [Worded κ] {family : Formats → Registry κ} {key : κ}
    {params : Params} {names : List String} (h : P.Prints family key params names) : P.Free ∨
      ((family P.left.dialect.formats).template key params).inOrder names = true :=
  h.imp id And.right

namespace Lawful

variable (hP : P.Lawful) {v : List Nat} {names : List String} {ps ps' : Params}
  {κ : Type} [Worded κ] {family : Formats → Registry κ} {key : κ}
include hP

theorem formats_eq : P.right.dialect.formats = P.left.dialect.formats := by
  rw [hP.dialect]; rfl

theorem has_eq (f : Feature) : P.right.dialect.has f = P.left.dialect.has f := by
  rw [hP.dialect]; rfl

theorem quoteIdent_eq (ident : String) :
    P.right.dialect.quoteIdent ident = P.left.dialect.quoteIdent ident := by
  rw [hP.dialect]; rfl

theorem conventions_eq : P.right.dialect.conventions = P.left.dialect.conventions := by
  rw [hP.dialect]; rfl

theorem selectOrder_eq : P.right.dialect.selectOrder = P.left.dialect.selectOrder := by
  rw [hP.dialect]; rfl

/-- In a family whose templates all print in order, a key prints its slots. -/
theorem prints {slots : κ → List String} (h : ∀ f : Formats, f.Orderly → (family f).Orderly slots)
    (key : κ) (params : Params) : P.Prints family key params (slots key) :=
  hP.arrangement.imp id fun ho => (h _ ho.formats key).imp id fun ht => ht params

theorem cleanKeyword {params : Params} (h : P.Prints family key params names) :
    P.Clean ((family P.left.dialect.formats).keyword key) :=
  h.elim (fun hf => hP.freeClean hf _) fun ho => hP.ofFirm ho.1

theorem renderWith (h : P.Filled names v ps ps') (hk : P.Clean keyword) {t : Template}
    (ht : P.Free ∨ t.inOrder names = true) :
    P.Text v (t.renderWith ps keyword) (t.renderWith ps' keyword) := by
  have hs := h.slots hP hk
  rw [Template.renderWith_eq, Template.renderWith_eq]
  rcases ht with hf | ho
  · exact hP.fillFree hf hs _
  · exact hP.fillInOrder hs.others _ names v ho hs.texts

/-- Which template a key has depends on what is present alone. -/
theorem lookup_agrees (r : Registry κ) (hp : ∀ n, Params.isPresent ps' n = Params.isPresent ps n) :
    P.Agrees (Equal fun l => l = ⟨r.template key ps, r.keyword key, r.strength? key⟩)
      (r.lookup key ps P.left.strict) (r.lookup key ps' P.right.strict) := by
  have ht : r.template key ps' = r.template key ps := by
    have hc : ∀ c : Condition, c.holds ps' = c.holds ps := by
      intro c
      cases c with
      | always => rfl
      | present slot => exact hp slot
    unfold Registry.template
    simp only [hc]
  unfold Registry.lookup
  rw [ht]
  rcases hP.strict with hs | ⟨hs, he⟩
  · rw [hs]
    split
    · exact .same _
    · exact .ok ⟨rfl, rfl⟩
  · rw [hs]
    cases hsup : r.supported key with
    | true => exact .ok ⟨rfl, rfl⟩
    | false => exact .excused (he _ rfl)

/-- A key written out with corresponding texts. -/
theorem get (h : P.Filled names v ps ps') (hp : P.Prints family key ps names) :
    P.Agrees (P.Text v) ((family P.left.dialect.formats).get key ps P.left.strict)
      ((family P.right.dialect.formats).get key ps' P.right.strict) := by
  rw [hP.formats_eq]
  refine (hP.lookup_agrees _ (h.isPresent hP)).andThen ?_
  rintro _ rfl
  exact .ok (hP.renderWith h (hP.cleanKeyword hp) hp.ordered)

/-- A key written out with clean texts. -/
theorem getSame (h : ∀ p ∈ ps, P.Clean p.2) (hp : P.Prints family key ps []) :
    P.Agrees (Equal P.Clean) ((family P.left.dialect.formats).get key ps P.left.strict)
      ((family P.right.dialect.formats).get key ps P.right.strict) := by
  rw [hP.formats_eq]
  refine (hP.lookup_agrees _ fun _ => rfl).andThen ?_
  rintro _ rfl
  refine .ok ⟨rfl, ?_⟩
  rw [Lookup.render, Template.renderWith_eq]
  have hs := (Filled.ofClean h).slots hP (hP.cleanKeyword hp)
  exact hP.cleanFill (fun n => (hs.others n List.not_mem_nil).2) hp.ordered

theorem write (h : P.Filled names v ps ps') (hp : P.Prints family key ps names) :
    P.Sim (Still (P.Text v)) (Compile.write family key ps) (Compile.write family key ps') :=
  Sim.onDialect (Sim.onRead (Sim.ofExcept (hP.get h hp)))

theorem writeSame (h : ∀ p ∈ ps, P.Clean p.2) (hp : P.Prints family key ps []) :
    P.Sim (Same P.Clean) (Compile.write family key ps) (Compile.write family key ps) :=
  Sim.onDialect (Sim.onRead (Sim.ofExcept (hP.getSame h hp)))

/-- How a key is written, which is the same on both sides. -/
theorem lookup (hp : ∀ n, Params.isPresent ps' n = Params.isPresent ps n) :
    P.Sim
      (Same fun l => l = ⟨(family P.left.dialect.formats).template key ps,
        (family P.left.dialect.formats).keyword key, (family P.left.dialect.formats).strength? key⟩)
      (Compile.lookup family key ps) (Compile.lookup family key ps') := by
  refine Sim.onDialect (Sim.onRead (Sim.ofExcept ?_))
  rw [hP.formats_eq]
  exact hP.lookup_agrees _ hp

end Lawful

end Pairing

end QueryPlan
