import Mathlib.Algebra.Order.BigOperators.Group.Finset
import Mathlib.Logic.Relation
import QueryPlan.Compile.Output
import QueryPlan.Proofs.Compile.Throughout
import QueryPlan.Proofs.Plan.Sizes

/-!
# Windows in place of their names

Where windows cannot be named, a named window is written in place, and what it mentions is written
in place in its turn. The windows are looked up where they are used, so that the plan alone does not
bound the recursion.

* A window refers to another if its definition mentions the name of the other, at any depth, also
  in a sub-query (`Place.Refers`); it is circular if it leads back to itself.
* The weight of a phrase is its size and the sizes of all windows that it leads to
  (`Place.weight`). As long as no window is circular, every phrase asks for lighter ones only: a
  window that is written in place of its name is not led to any more.
* `compilation_ends_unless_circular`: without circular windows the compilation ends within the size
  of the plan, and with windows that need each other (`Place.Needs`) it has no end.
-/

namespace QueryPlan

open Relation

variable {e : Expr} {name y : String} {k : Place} {p : Phrase}

/-! ## 1. Mentions -/

/-- A phrase with a named window in it, at any depth. -/
inductive Mentions : Phrase → String → Prop where
  | window {e : Expr} {name : String} : Mentions (.expr (.windowed e (.named name))) name
  | inner {e : Expr} {p : Phrase} {name : String} (hp : p ∈ e.phrases) (h : Mentions p name) :
      Mentions (.expr e) name
  | cte {s : Statement} {c : Cte} {name : String} (hc : c ∈ s.ctes)
      (h : Mentions (.statement c.statement) name) : Mentions (.statement s) name
  | branch {q : SetOperation} {s : Statement} {name : String} (hs : s ∈ q.branches)
      (h : Mentions (.statement s) name) : Mentions (.statement (.setOp q)) name
  | clause {s : Statement} {p : Phrase} {name : String} (hp : p ∈ s.clausePhrases)
      (h : Mentions p name) : Mentions (.statement s) name
  | definition {s : Statement} {w : NamedWindow} {p : Phrase} {name : String} (hw : w ∈ s.windows)
      (hp : p ∈ w.spec.phrases) (h : Mentions p name) : Mentions (.statement s) name

namespace Place

variable {k : Place} {p p' : Phrase}

/-- A window that a phrase sees refers to a name. -/
def Refers (k : Place) (x y : String) : Prop :=
  ∃ spec, k.window? x = some spec ∧ ∃ p ∈ spec.phrases, Mentions p y

/-- A window that refers to itself, directly or through others. -/
def Circular (k : Place) (name : String) : Prop :=
  TransGen k.Refers name name

/-- A phrase leads to a name that it mentions, and to all that the windows it leads to refer to. -/
def Leads (k : Place) (p : Phrase) (y : String) : Prop :=
  ∃ x, Mentions p x ∧ ReflTransGen k.Refers x y

theorem Leads.mention {x : String} (h : Mentions p x) : k.Leads p x :=
  ⟨x, h, .refl⟩

theorem Leads.refers {x : String} (h : k.Leads p x) (hxy : k.Refers x y) : k.Leads p y := by
  obtain ⟨z, hz, hzx⟩ := h
  exact ⟨z, hz, hzx.tail hxy⟩

/-- Where a phrase leads is led to from whatever leads to all that it mentions. -/
theorem Leads.trans (h : ∀ x, Mentions p' x → k.Leads p x) (hy : k.Leads p' y) : k.Leads p y := by
  obtain ⟨x, hx, hxy⟩ := hy
  induction hxy with
  | refl => exact h x hx
  | tail _ hxy ih => exact ih.refers hxy

end Place

/-! ## 2. Weights -/

/-- The names of some windows. -/
def windowNames (list : List NamedWindow) : Finset String :=
  (list.map NamedWindow.name).toFinset

/-- The size of the first window of a name. -/
def windowSize (list : List NamedWindow) (name : String) : Nat :=
  ((list.find? fun w => w.name == name).map fun w => w.spec.size).getD 0

theorem windowSize_append (list list' : List NamedWindow) (name : String) :
    windowSize (list ++ list') name =
      if name ∈ windowNames list then windowSize list name else windowSize list' name := by
  have hmem : name ∈ windowNames list ↔ (list.find? fun w => w.name == name).isSome = true := by
    simp [windowNames]
  unfold windowSize
  rw [List.find?_append]
  split
  · next h =>
    obtain ⟨w, hw⟩ := Option.isSome_iff_exists.1 (hmem.1 h)
    rw [hw, Option.some_or]
  · next h =>
    have hnone : (list.find? fun w => w.name == name) = none :=
      Option.not_isSome_iff_eq_none.1 fun hsome => h (hmem.2 hsome)
    rw [hnone, Option.none_or]

/-- Windows of the same name count once. -/
theorem sum_windowSize_le (list : List NamedWindow) :
    ∑ name ∈ windowNames list, windowSize list name ≤ windowSizes list := by
  induction list with
  | nil => simp [windowNames]
  | cons w rest ih =>
    have hnames : windowNames (w :: rest) = insert w.name ((windowNames rest).erase w.name) := by
      ext name
      by_cases h : name = w.name <;> simp [windowNames, h]
    have hfirst : windowSize (w :: rest) w.name = w.spec.size := by
      simp [windowSize]
    have hothers : ∀ name ∈ (windowNames rest).erase w.name,
        windowSize (w :: rest) name = windowSize rest name := by
      intro name hname
      have hne : (w.name == name) = false := beq_false_of_ne (Finset.ne_of_mem_erase hname).symm
      simp [windowSize, hne]
    rw [hnames, Finset.sum_insert (Finset.notMem_erase _ _), hfirst, Finset.sum_congr rfl hothers,
      windowSizes, NamedWindow.size_eq]
    refine Nat.add_le_add_left (Nat.le_trans ?_ ih) _
    exact Finset.sum_le_sum_of_subset (Finset.erase_subset _ _)

namespace Place

variable {k : Place} {p p' : Phrase}

open Classical in
/-- The windows that a phrase leads to. -/
noncomputable def pending (k : Place) (p : Phrase) : Finset String :=
  (windowNames k.windows).filter (k.Leads p)

/-- The size of a phrase and of all windows that it leads to. -/
noncomputable def weight (k : Place) (p : Phrase) : Nat :=
  p.size + ∑ name ∈ k.pending p, windowSize k.windows name

theorem mem_pending : name ∈ k.pending p ↔ name ∈ windowNames k.windows ∧ k.Leads p name := by
  simp [pending]

/-- A phrase that mentions no more leads to no more. -/
theorem pending_subset (h : ∀ x, Mentions p' x → k.Leads p x) : k.pending p' ⊆ k.pending p := by
  intro name hname
  rw [mem_pending] at hname ⊢
  exact ⟨hname.1, hname.2.trans h⟩

theorem weight_start (p : Phrase) : Place.start.weight p = p.size := by
  have hnone : Place.start.pending p = ∅ := by
    refine Finset.eq_empty_of_forall_notMem fun x hx => ?_
    exact absurd (mem_pending.1 hx).1 (Finset.notMem_empty x)
  rw [weight, hnone, Finset.sum_empty, Nat.add_zero]

/-- What a phrase asks for in its own place is lighter if it is smaller. -/
theorem weight_lt_of_size (hsize : p'.size < p.size) (h : ∀ x, Mentions p' x → k.Leads p x) :
    k.weight p' < k.weight p := by
  have hsum : ∑ name ∈ k.pending p', windowSize k.windows name ≤
      ∑ name ∈ k.pending p, windowSize k.windows name :=
    Finset.sum_le_sum_of_subset (pending_subset h)
  unfold weight
  omega

/-- A window that is not circular pays for what is written in place of its name. -/
theorem weight_lt_of_window {spec : WindowSpec} (hw : k.window? name = some spec)
    (hp : p' ∈ spec.phrases) (hc : ¬k.Circular name) :
    k.weight p' < k.weight (.expr (.windowed e (.named name))) := by
  have hsize : windowSize k.windows name = spec.size := by
    obtain ⟨w, hfind, rfl⟩ := Option.map_eq_some_iff.1 hw
    simp [windowSize, hfind]
  have hname : name ∈ windowNames k.windows := by
    obtain ⟨w, hfind, rfl⟩ := Option.map_eq_some_iff.1 hw
    have heq : w.name = name := by simpa using List.find?_some hfind
    exact List.mem_toFinset.2 (List.mem_map.2 ⟨w, List.mem_of_find?_eq_some hfind, heq⟩)
  have hrefers : ∀ x, Mentions p' x → k.Refers name x := fun x hx => ⟨spec, hw, p', hp, hx⟩
  have hleads : k.Leads (.expr (.windowed e (.named name))) name := .mention .window
  -- if the window were led to again, it would be circular
  have hfresh : name ∉ k.pending p' := by
    intro hmem
    obtain ⟨x, hx, hback⟩ := (mem_pending.1 hmem).2
    exact hc (.head' (hrefers x hx) hback)
  have hsubset : insert name (k.pending p') ⊆ k.pending (.expr (.windowed e (.named name))) := by
    intro x hx
    rcases Finset.mem_insert.1 hx with rfl | hx
    · exact mem_pending.2 ⟨hname, hleads⟩
    · exact pending_subset (fun x hx => hleads.refers (hrefers x hx)) hx
  have hsum := Finset.sum_le_sum_of_subset (f := windowSize k.windows) hsubset
  rw [Finset.sum_insert hfresh, hsize] at hsum
  have hle := Within.spec spec p' hp
  have hpos : 0 < (Phrase.expr (.windowed e (.named name))).size := Nat.succ_pos _
  unfold weight
  omega

theorem windows_inClauses (s : Statement) (post force : Bool) :
    (k.inClauses s post force).windows = s.windows ++ k.windows :=
  rfl

/-- What is led to from inside a statement is mentioned by one of its windows, or led to from
    outside. -/
theorem Leads.of_inClauses {s : Statement} {post force : Bool}
    (hy : (k.inClauses s post force).Leads p' y)
    (h : ∀ x, Mentions p' x → Mentions (.statement s) x) : k.Leads (.statement s) y := by
  obtain ⟨x, hx, hxy⟩ := hy
  induction hxy with
  | refl => exact .mention (h x hx)
  | @tail y z _ hyz ih =>
    obtain ⟨spec, hspec, q, hq, hmention⟩ := hyz
    rw [window?, windows_inClauses, List.find?_append] at hspec
    cases hfind : s.windows.find? fun w => w.name == y with
    | some w =>
      rw [hfind] at hspec
      cases hspec
      exact .mention (.definition (List.mem_of_find?_eq_some hfind) hq hmention)
    | none =>
      rw [hfind] at hspec
      exact ih.refers ⟨spec, hspec, q, hq, hmention⟩

/-- The clauses of a statement see its windows first, which the statement pays for. -/
theorem weight_lt_of_clause {s : Statement} {post force : Bool}
    (hsize : p'.size + windowSizes s.windows < s.size)
    (h : ∀ x, Mentions p' x → Mentions (.statement s) x) :
    (k.inClauses s post force).weight p' < k.weight (.statement s) := by
  have hsubset : (k.inClauses s post force).pending p' ⊆
      windowNames s.windows ∪ (k.pending (.statement s) \ windowNames s.windows) := by
    intro x hx
    obtain ⟨hname, hlead⟩ := mem_pending.1 hx
    by_cases hown : x ∈ windowNames s.windows
    · exact Finset.mem_union_left _ hown
    · refine Finset.mem_union_right _
        (Finset.mem_sdiff.2 ⟨mem_pending.2 ⟨?_, hlead.of_inClauses h⟩, hown⟩)
      rw [windows_inClauses, windowNames, List.map_append, List.toFinset_append] at hname
      exact (Finset.mem_union.1 hname).resolve_left hown
  have hown : ∑ name ∈ windowNames s.windows, windowSize (s.windows ++ k.windows) name ≤
      windowSizes s.windows := by
    refine Nat.le_trans (Finset.sum_le_sum fun name hname => ?_) (sum_windowSize_le s.windows)
    rw [windowSize_append, if_pos hname]
  have hothers : ∑ name ∈ k.pending (.statement s) \ windowNames s.windows,
      windowSize (s.windows ++ k.windows) name ≤
      ∑ name ∈ k.pending (.statement s), windowSize k.windows name := by
    refine Nat.le_trans (Finset.sum_le_sum fun name hname => ?_)
      (Finset.sum_le_sum_of_subset Finset.sdiff_subset)
    rw [windowSize_append, if_neg (Finset.mem_sdiff.1 hname).2]
  have hsum := Finset.sum_le_sum_of_subset (f := windowSize (s.windows ++ k.windows)) hsubset
  rw [Finset.sum_union Finset.disjoint_sdiff] at hsum
  unfold weight
  rw [windows_inClauses]
  show _ < s.size + _
  omega

end Place

/-! ## 3. What is asked for is lighter -/

variable {σ : Setting} {s : Statement}

/-- Where windows can be named, a phrase asks for smaller ones only. -/
theorem Asks.size_lt {p' : Phrase} {k' : Place} (h : Asks σ p k p' k')
    (hn : σ.dialect.has .namedWindows = true) : p'.size < p.size := by
  cases h with
  | inner hp => exact Expr.size_phrases hp
  | window hnot => exact absurd hn (by rw [hnot]; decide)
  | cte hs => exact Statement.size_ctes (by rw [hs]; simp)
  | branch hs => exact SetOperation.size_branches hs
  | clause hp =>
    have := Statement.size_clausePhrases hp
    simp only [Phrase.size] at this ⊢
    omega
  | @definition s w p k _ hw hp =>
    have hspec := Within.spec w.spec p' hp
    have hle := NamedWindow.size_le_windowSizes hw
    have hlt := s.windowSizes_lt
    simp only [Phrase.size] at hspec ⊢
    omega

/-- Where windows cannot be named, a phrase asks for lighter ones only, unless it is a window that
    refers to itself. -/
theorem Asks.weight_lt {p' : Phrase} {k' : Place} (h : Asks σ p k p' k')
    (hn : σ.dialect.has .namedWindows = false)
    (hc : ∀ e name, p = .expr (.windowed e (.named name)) → ¬k.Circular name) :
    k'.weight p' < k.weight p := by
  cases h with
  | inner hp =>
    exact Place.weight_lt_of_size (Expr.size_phrases hp) fun x hx => .mention (.inner hp hx)
  | @window e name _ _ _ _ hw hp => exact Place.weight_lt_of_window hw hp (hc e name rfl)
  | @cte s before after c k hs =>
    have hmem : c ∈ s.ctes := by
      rw [hs]
      simp
    have hlt : k.weight (.statement c.statement) < k.weight (.statement s) :=
      Place.weight_lt_of_size (Statement.size_ctes hmem) fun x hx => .mention (.cte hmem hx)
    exact hlt
  | @branch q s k hs =>
    have hlt : k.weight (.statement s) < k.weight (.statement (.setOp q)) :=
      Place.weight_lt_of_size (SetOperation.size_branches hs) fun x hx => .mention (.branch hs hx)
    exact hlt
  | clause hp =>
    exact Place.weight_lt_of_clause (Statement.size_clausePhrases hp) fun x hx => .clause hp hx
  | definition hnamed => exact absurd hnamed (by rw [hn]; decide)

/-- A statement that comes to no circular window. -/
def Statement.WindowsFounded (s : Statement) (σ : Setting) : Prop :=
  ∀ e name k, Reaches σ s (.expr (.windowed e (.named name))) k → ¬k.Circular name

/-- Without circular windows there is a measure, which starts with the size of the statement. -/
theorem exists_measure (h : σ.dialect.has .namedWindows = true ∨ s.WindowsFounded σ) :
    ∃ μ : Phrase → Place → Nat, μ (.statement s) .start = s.size ∧
      ∀ p k p' k', Reaches σ s p k → Asks σ p k p' k' → μ p' k' < μ p k := by
  cases hn : σ.dialect.has .namedWindows with
  | true => exact ⟨fun p _ => p.size, rfl, fun p k p' k' _ ha => ha.size_lt hn⟩
  | false =>
    have hfounded : s.WindowsFounded σ := h.resolve_left (by rw [hn]; decide)
    refine ⟨fun p k => k.weight p, Place.weight_start _, fun p k p' k' hp ha => ha.weight_lt hn ?_⟩
    rintro e name rfl
    exact hfounded e name k hp

/-! ## 4. Windows without end -/

theorem mem_exprPhrases {es : List Expr} : Phrase.expr e ∈ exprPhrases es ↔ e ∈ es := by
  simp [exprPhrases]

/-- Whether all phrases of an expression are written with it. A test against an empty list leaves
    out the value, and a case without arms its subject. -/
def Expr.isWhole : Expr → Bool
  | .member _ (.exprs []) _ => false
  | .case (some _) [] _ => false
  | _ => true

/-- An expression that cannot be written without a named window, which stands in it at any depth,
    but not in a sub-query. -/
inductive Expr.Needs : Expr → String → Prop where
  | window {e : Expr} {name : String} : Needs (.windowed e (.named name)) name
  | part {e f : Expr} {name : String} (he : e.isWhole = true) (hf : Phrase.expr f ∈ e.phrases)
      (h : Needs f name) : Needs e name

/-- A step that has no result in the states of a place. -/
def Fails {α : Type} (σ : Setting) (k : Place) (x : Compile α) : Prop :=
  ∀ c, k.Fits σ.dialect c → ∃ e, x σ c = .error e

namespace Fails

variable {α β γ : Type} {k : Place} {x : Compile α} {f : α → Compile β}

theorem bind (hx : Fails σ k x) : Fails σ k (x >>= f) := by
  intro c hc
  obtain ⟨e, he⟩ := hx c hc
  refine ⟨e, ?_⟩
  show (x σ c >>= fun p => f p.1 σ p.2) = _
  rw [he]
  rfl

theorem behind (hx : (agreement σ).Keep k x x) (hf : ∀ a, Fails σ k (f a)) :
    Fails σ k (x >>= f) := by
  intro c hc
  cases hrun : x σ c with
  | error e =>
    refine ⟨e, ?_⟩
    show (x σ c >>= fun p => f p.1 σ p.2) = _
    rw [hrun]
    rfl
  | ok p =>
    obtain ⟨hfit, -⟩ := (hx c hc).2 p.1 p.2 hrun
    rw [Compile.bind_run hrun]
    exact hf p.1 p.2 hfit

theorem mapM {f : γ → Compile α} {list : List γ}
    (hkeep : ∀ i ∈ list, (agreement σ).Keep k (f i) (f i)) {i : γ} (hi : i ∈ list)
    (h : Fails σ k (f i)) : Fails σ k (list.mapM f) := by
  induction list with
  | nil => exact absurd hi List.not_mem_nil
  | cons j rest ih =>
    rw [List.mapM_cons]
    rcases List.mem_cons.1 hi with rfl | hi
    · exact bind h
    · refine behind (hkeep j List.mem_cons_self) fun _ => bind (ih (fun i hi => ?_) hi)
      exact hkeep i (List.mem_cons_of_mem j hi)

section Parts

variable {r : Renderer} (hkeep : ∀ p, AgreeAt σ k r r p) {f : Expr} (hf : Fails σ k (r.expr f))
include hkeep hf

theorem list {es : List Expr} (hmem : f ∈ es) : Fails σ k (r.list es) :=
  bind (mapM (fun e _ => StepRelation.On.text (hkeep (.expr e))) hmem (bind hf))

/-- A window fails with any of its expressions. -/
theorem windowSpec {spec : WindowSpec} (hmem : Phrase.expr f ∈ spec.phrases) :
    Fails σ k (r.windowSpec spec) := by
  have htext : ∀ e, (agreement σ).Keep k (r.text e) (r.text e) := fun e =>
    StepRelation.On.text (hkeep (.expr e))
  have hpart : ∀ {key isEmpty} {x : Compile String}, isEmpty = false → Fails σ k x →
      Fails σ k (Renderer.windowPart key isEmpty x) := by
    rintro key _ x rfl hx
    exact behind (.keyword key []) fun _ => bind hx
  unfold Renderer.windowSpec
  rcases List.mem_append.1 hmem with hmem | hmem
  · have hitem := mem_exprPhrases.1 hmem
    refine bind (hpart (List.isEmpty_eq_false_iff.2 (List.ne_nil_of_mem hitem)) ?_)
    exact list hkeep hf hitem
  · obtain ⟨item, hitem, heq⟩ := List.mem_map.1 hmem
    cases heq
    have hlist := StepRelation.On.list fun p (_ : p ∈ exprPhrases spec.partitionBy) => hkeep p
    refine behind (StepRelation.On.windowPart _ _ hlist) fun _ => bind ?_
    refine hpart (List.isEmpty_eq_false_iff.2 (List.ne_nil_of_mem hitem)) (bind ?_)
    refine mapM (fun o _ => ?_) hitem (behind .mark fun _ => bind (bind hf))
    refine StepRelation.Keep.mark.bind fun _ => (htext o.expr).bind fun _ => ?_
    exact StepRelation.On.placeNulls _ _ _ _

theorem operator {κ : Type} [Worded κ] (family : Formats → Registry κ) (key : κ)
    (strength : Strength) (associativity : Associativity) {operands : List (String × Expr)}
    (hmem : f ∈ operands.map Prod.snd) :
    Fails σ k (r.operator family key strength associativity operands) := by
  rw [← List.zipIdx_map_fst 0 operands, List.map_map] at hmem
  obtain ⟨i, hi, rfl⟩ := List.mem_map.1 hmem
  refine behind (.lookup family key []) fun found => bind (mapM (fun i _ => ?_) hi (bind (bind hf)))
  exact .map _ (StepRelation.On.operand (hkeep (.expr i.1.2)) _ _ _)

theorem aggregate (kind : AggregateKind) (distinct : Bool) {arg filter : Option Expr}
    (hmem : f ∈ arg ∨ f ∈ filter) : Fails σ k (r.aggregate kind distinct arg filter) := by
  have hcase := StepRelation.On.filterCase fun p (_ : p ∈ exprPhrases filter.toList) => hkeep p
  rcases hmem with rfl | rfl
  · exact behind hcase fun _ => bind (bind hf)
  · -- the filter is written in front of the argument or behind it
    have hhas : ∀ c, Compile.has .aggregateFilter σ c = .ok (σ.dialect.has .aggregateFilter, c) :=
      fun _ => rfl
    have harg := StepRelation.On.aggregateArg fun p (_ : p ∈ exprPhrases arg.toList) => hkeep p
    intro c hc
    cases hclause : σ.dialect.has .aggregateFilter with
    | true =>
      have hnone : r.filterCase (some f) σ c = .ok (none, c) := by
        rw [Renderer.filterCase, Compile.bind_run (hhas c), hclause]
        rfl
      rw [Renderer.aggregate, Compile.bind_run hnone]
      exact behind (harg _) (fun _ => bind (bind (bind hf))) c hc
    | false =>
      have hfails : Fails σ k (r.filterCase (some f)) := by
        intro c hc
        rw [Renderer.filterCase, Compile.bind_run (hhas c), hclause]
        exact bind (bind hf) c hc
      exact bind hfails c hc

theorem conditions (op : Conjunction) {operands : List Expr} (hmem : f ∈ operands) :
    Fails σ k (r.conditions op operands) := by
  match operands, hmem with
  | [_], hmem =>
    rw [← List.mem_singleton.1 hmem]
    exact hf
  | _ :: _ :: _, hmem =>
    refine bind (mapM (fun e _ => ?_) hmem (bind (bind hf)))
    exact .map _ (StepRelation.On.operand (hkeep (.expr e)) _ _ _)

theorem arms {list : List (Expr × Expr)} {arm : Expr × Expr} (harm : arm ∈ list)
    (hmem : f = arm.1 ∨ f = arm.2) : Fails σ k (r.arms list) := by
  have htext : ∀ e, (agreement σ).Keep k (r.text e) (r.text e) := fun e =>
    StepRelation.On.text (hkeep (.expr e))
  refine bind (mapM (fun arm _ => (htext arm.1).bind fun _ => .map _ (htext arm.2)) harm ?_)
  rcases hmem with rfl | rfl
  · exact bind (bind hf)
  · exact behind (htext arm.1) fun _ => bind (bind hf)

theorem case {subject otherwise : Option Expr} {list : List (Expr × Expr)}
    (hwhole : (Expr.case subject list otherwise).isWhole = true)
    (hmem : Phrase.expr f ∈ (Expr.case subject list otherwise).phrases) :
    Fails σ k (r.case subject list otherwise) := by
  simp only [Expr.phrases, List.mem_append, mem_exprPhrases, Option.mem_toList] at hmem
  cases list with
  | nil =>
    cases subject with
    | some subject => cases hwhole
    | none =>
      obtain rfl : otherwise = some f := by simpa using hmem
      exact hf
  | cons arm rest =>
    have hsubject := StepRelation.On.textBehind " " fun p (_ : p ∈ exprPhrases subject.toList) =>
      hkeep p
    rcases hmem with ((rfl | hmem) | hmem) | rfl
    · exact bind (bind (bind hf))
    · obtain ⟨arm, harm, heq⟩ := List.mem_map.1 hmem
      exact behind hsubject fun _ => bind (arms hkeep hf harm (.inl heq.symm))
    · obtain ⟨arm, harm, heq⟩ := List.mem_map.1 hmem
      exact behind hsubject fun _ => bind (arms hkeep hf harm (.inr heq.symm))
    · refine behind hsubject fun _ => behind ?_ fun _ => bind (bind (bind hf))
      exact StepRelation.On.arms (fun p _ => hkeep p) fun p _ => hkeep p

theorem member {value : Expr} {list : Members} (negated : Bool)
    (hwhole : (Expr.member value list negated).isWhole = true)
    (hmem : Phrase.expr f ∈ (Expr.member value list negated).phrases) :
    Fails σ k (r.member value list negated) := by
  have hvalue : ∀ strength, (agreement σ).Keep k (r.operand value true strength .both) _ :=
    fun strength => StepRelation.On.operand (hkeep (.expr value)) _ _ _
  match list, hwhole, hmem with
  | .exprs (e :: es), _, hmem =>
    rcases List.mem_cons.1 hmem with heq | hmem
    · cases heq
      exact bind (bind hf)
    · exact behind (hvalue _) fun _ => bind (Fails.list hkeep hf (mem_exprPhrases.1 hmem))
  | .query s, _, hmem =>
    rcases List.mem_cons.1 hmem with heq | hmem
    · cases heq
      exact bind (bind hf)
    · cases List.mem_singleton.1 hmem

/-- An expression of which nothing is left out fails with any of its parts. -/
theorem part (hwhole : e.isWhole = true) (hmem : Phrase.expr f ∈ e.phrases) :
    Fails σ k (r.renderExpr e) := by
  have hoperand : ∀ e isLeft strength associativity, (agreement σ).Keep k
      (r.operand e isLeft strength associativity) (r.operand e isLeft strength associativity) :=
    fun e => StepRelation.On.operand (hkeep (.expr e))
  cases e with
  | function name es type | row es => exact bind (list hkeep hf (mem_exprPhrases.1 hmem))
  | aggregate kind distinct arg filter =>
    refine aggregate hkeep hf kind distinct ?_
    simpa [Expr.phrases, mem_exprPhrases] using hmem
  | unary op e | binary op e e' | unaryPredicate op e | binaryPredicate op e e' =>
    exact operator hkeep hf _ op _ _ (mem_exprPhrases.1 hmem)
  | conditions op operands => exact conditions hkeep hf op (mem_exprPhrases.1 hmem)
  | not operand =>
    cases List.mem_singleton.1 hmem
    exact bind (bind hf)
  | case subject list otherwise => exact case hkeep hf hwhole hmem
  | cast type operand =>
    cases List.mem_singleton.1 hmem
    exact behind (.lookup Formats.keywords .cast []) fun _ => bind (bind hf)
  | between value low high negated =>
    rcases List.mem_cons.1 hmem with heq | hmem
    · cases heq
      exact bind (bind hf)
    · refine behind (hoperand _ _ _ _) fun _ => ?_
      rcases List.mem_pair.1 hmem with heq | heq
      · cases heq
        exact bind (bind hf)
      · cases heq
        exact behind (hoperand _ _ _ _) fun _ => bind (bind hf)
  | member value list negated => exact member hkeep hf negated hwhole hmem
  | windowed e window =>
    rcases List.mem_cons.1 hmem with heq | hmem
    · cases heq
      exact bind (bind hf)
    · cases window with
      | inline spec =>
        exact behind (hoperand _ _ _ _) fun _ => bind (bind (windowSpec hkeep hf hmem))
      | named name => exact absurd hmem List.not_mem_nil
  | _ => exact absurd hmem (by simp [Expr.phrases])

end Parts

end Fails

/-- A window that cannot be written without another. -/
def Place.Needs (k : Place) (x y : String) : Prop :=
  ∃ spec, k.window? x = some spec ∧ ∃ e, Phrase.expr e ∈ spec.phrases ∧ e.Needs y

/-- What needs a window that leads back to itself is never written, however deep one goes. -/
theorem needs_fails (hn : σ.dialect.has .namedWindows = false)
    (hcircle : TransGen k.Needs name name) (fault : Error) (depth : Nat) (he : e.Needs name) :
    Fails σ k (((Renderer.stuck fault).unrolled depth).expr e) := by
  induction depth generalizing name e with
  | zero => exact fun _ _ => ⟨fault, rfl⟩
  | succ depth ih =>
    have hkeep := agreeAt_self (σ := σ) fault depth k
    cases he with
    | part hwhole hf hneeds => exact .part hkeep (ih hcircle hneeds) hwhole hf
    | @window e =>
      obtain ⟨next, ⟨spec, hspec, f, hf, hneeds⟩, hback⟩ := TransGen.head'_iff.1 hcircle
      have hnext : TransGen k.Needs next next := .tail' hback ⟨spec, hspec, f, hf, hneeds⟩
      refine .behind (StepRelation.On.operand (hkeep (.expr e)) _ _ _) fun _ => .bind ?_
      intro c hc
      have hfind : findWindow? c.scopes name = some spec := by
        rw [hc.scopes, k.findWindow?_scopes, hspec]
      obtain ⟨e', he'⟩ := Fails.bind (f := fun t => pure ("(" ++ t ++ ")"))
        (Fails.windowSpec hkeep (ih hnext hneeds) hf) c hc
      refine ⟨e', ?_⟩
      have hhas : Compile.has .namedWindows σ c = .ok (false, c) := by
        rw [← hn]
        rfl
      simp only [Renderer.windowRef]
      rw [Compile.bind_run hhas, if_neg (by decide), Compile.bind_run Compile.get_run, hfind]
      exact he'

/-! ## 5. The end of a compilation -/

/-- **A compilation ends unless windows are defined by each other.**

    * Where windows can be named, or no window leads back to itself, no phrase asks for others
      without end; the result is the one that any deeper recursion has, whatever it would do in
      the end.
    * Where windows cannot be named, a window that is defined by itself, directly or through others,
      is never written, nor is an expression with it: the recursion fails at every depth. This
      leaves out sub-queries, in which a name may stand for a window of their own. -/
theorem compilation_ends_unless_circular (d : Dialect) (o : Options) :
    (∀ s : Statement, d.has .namedWindows = true ∨ s.WindowsFounded (.ofOptions d o) →
      s.Ends (.ofOptions d o) ∧ ∀ (base : Renderer) (depth : Nat), s.size < depth →
        (base.unrolled depth).statement s (.ofOptions d o) (.start d.placeholder) =
          s.runRender d o) ∧
    (d.has .namedWindows = false → ∀ (k : Place) (name : String),
      TransGen k.Needs name name → ∀ e : Expr, e.Needs name → ∀ c : Context, k.Fits d c →
        ∀ (fault : Error) (depth : Nat), ∃ fault',
          ((Renderer.stuck fault).unrolled depth).expr e (.ofOptions d o) c = .error fault') := by
  constructor
  · intro s h
    obtain ⟨μ, hstart, hμ⟩ := exists_measure (σ := .ofOptions d o) h
    refine ⟨s.ends_of_measure hμ, fun base depth hdepth => ?_⟩
    have hagree : AgreeAt (.ofOptions d o) .start (base.unrolled depth)
        (Renderer.bottom.unrolled s.depthBound) (.statement s) :=
      agreeAt_unrolled hμ base .bottom .start (by rw [hstart]; exact hdepth)
        (by rw [hstart]; exact s.size_lt_depthBound)
    rw [Statement.runRender, Statement.render, s.renderAt_eq_unrolled]
    exact (hagree (.start d.placeholder) (Place.fits_start _ _)).1.symm
  · intro hn k name hcircle e he c hc fault depth
    exact needs_fails (σ := .ofOptions d o) hn hcircle fault depth he c hc

/-! ## 6. Statements without sub-queries -/

/-- What the compilation of a select without sub-queries comes to: some expressions, which all see
    the windows of the select. -/
theorem reaches_flat {q : Select} {parts : List Expr} (hctes : q.ctes = [])
    (hclauses : (Statement.select q).clausePhrases ⊆ exprPhrases parts)
    (hwindows : ∀ w ∈ q.windows, w.spec.phrases ⊆ exprPhrases parts)
    (hparts : ∀ e ∈ parts, e.phrases ⊆ exprPhrases parts) (h : Reaches σ (.select q) p k) :
    (p = .statement (.select q) ∧ k = .start) ∨
      (∃ e ∈ parts, p = .expr e) ∧ k.windows = q.windows := by
  have hmem : ∀ {p}, p ∈ exprPhrases parts → ∃ e ∈ parts, p = .expr e := by
    intro p hp
    obtain ⟨e, he, rfl⟩ := List.mem_map.1 hp
    exact ⟨e, he, rfl⟩
  induction h with
  | start => exact .inl ⟨rfl, rfl⟩
  | step _ ha ih =>
    refine .inr ?_
    rcases ih with ⟨rfl, rfl⟩ | ⟨⟨e, he, rfl⟩, hk⟩
    · have hwhole : ∀ post force, (Place.start.inClauses (.select q) post force).windows = q.windows :=
        fun _ _ => List.append_nil _
      cases ha with
      | cte hs =>
        rw [Statement.ctes, hctes] at hs
        exact absurd hs.symm (by simp)
      | clause hp post force => exact ⟨hmem (hclauses hp), hwhole post force⟩
      | definition _ hw hp post force => exact ⟨hmem (hwindows _ hw hp), hwhole post force⟩
    · cases ha with
      | inner hp => exact ⟨hmem (hparts e he hp), hk⟩
      | window _ hw hp =>
        obtain ⟨w, hfind, rfl⟩ := Option.map_eq_some_iff.1 hw
        rw [hk] at hfind
        exact ⟨hmem (hwindows w (List.mem_of_find?_eq_some hfind) hp), hk⟩

/-- The windows of a select without sub-queries are founded if they can be ranked, so that each
    mentions lower ones only. -/
theorem windowsFounded_of_rank {q : Select} (parts : List Expr) (hctes : q.ctes = [])
    (hclauses : (Statement.select q).clausePhrases ⊆ exprPhrases parts)
    (hwindows : ∀ w ∈ q.windows, w.spec.phrases ⊆ exprPhrases parts)
    (hparts : ∀ e ∈ parts, e.phrases ⊆ exprPhrases parts) (rank : String → Nat)
    (hrank : ∀ w ∈ q.windows, ∀ p ∈ w.spec.phrases, ∀ y, Mentions p y → rank y < rank w.name) :
    (Statement.select q).WindowsFounded σ := by
  intro e name k hreach hcircle
  rcases reaches_flat hctes hclauses hwindows hparts hreach with ⟨hp, _⟩ | ⟨_, hk⟩
  · cases hp
  · have hstep : ∀ x y, k.Refers x y → rank y < rank x := by
      rintro x y ⟨spec, hspec, p, hp, hmention⟩
      obtain ⟨w, hfind, rfl⟩ := Option.map_eq_some_iff.1 hspec
      rw [hk] at hfind
      have hname : w.name = x := by simpa using List.find?_some hfind
      rw [← hname]
      exact hrank w (List.mem_of_find?_eq_some hfind) p hp y hmention
    have hfall : TransGen (· > ·) (rank name) (rank name) := hcircle.lift rank hstep
    rw [transGen_eq_self] at hfall
    exact Nat.lt_irrefl _ hfall

/-- A rank over a named window. -/
def rankOver (name : String) : Expr :=
  .windowed (.function "rank" [] none) (.named name)

/-- A rank over a window that is defined by a rank over another. -/
def rankOfRanks : Select :=
  { Select.empty with
    projection := [⟨"r", rankOver "w"⟩]
    sources := [.table ⟨none, "t", "t", []⟩]
    windows := [⟨"w", ⟨[rankOver "v"], []⟩⟩, ⟨"v", ⟨[.field "t" "x" none], []⟩⟩] }

/-- A rank over a window that is ordered against a rank over the same window. -/
def rankOfItself : Select :=
  { rankOfRanks with windows := [⟨"w", ⟨[], [⟨.unary .neg (rankOver "w"), .asc, none⟩]⟩⟩] }

theorem rankOfRanks_founded : (Statement.select rankOfRanks).WindowsFounded σ := by
  have hfunction : ∀ y, ¬Mentions (.expr (.function "rank" [] none)) y := by
    rintro y (_ | ⟨hp, _⟩)
    exact absurd hp List.not_mem_nil
  have hfield : ∀ y, ¬Mentions (.expr (.field "t" "x" none)) y := by
    rintro y (_ | ⟨hp, _⟩)
    exact absurd hp List.not_mem_nil
  refine windowsFounded_of_rank [rankOver "w", rankOver "v", .function "rank" [] none,
    .field "t" "x" none] rfl ?_ ?_ ?_ (fun name => if name = "w" then 1 else 0) ?_
  · show [Phrase.expr (rankOver "w")] ⊆ _
    simp [exprPhrases]
  · intro w hw
    rcases List.mem_cons.1 hw with rfl | hw
    · show [Phrase.expr (rankOver "v")] ⊆ _
      simp [exprPhrases]
    · rw [List.mem_singleton.1 hw]
      show [Phrase.expr (.field "t" "x" none)] ⊆ _
      simp [exprPhrases]
  · intro e he
    simp only [List.mem_cons, List.not_mem_nil, or_false] at he
    rcases he with rfl | rfl | rfl | rfl <;>
      simp [rankOver, Expr.phrases, WindowRef.phrases, exprPhrases]
  · intro w hw p hp y hy
    rcases List.mem_cons.1 hw with rfl | hw
    · rw [show p = .expr (rankOver "v") from List.mem_singleton.1 hp] at hy
      cases hy with
      | window => decide
      | inner hp hy => exact absurd (List.mem_singleton.1 hp ▸ hy) (hfunction y)
    · rw [List.mem_singleton.1 hw] at hp
      exact absurd (List.mem_singleton.1 hp ▸ hy) (hfield y)

/-- Both cases, for a dialect that cannot name windows. -/
theorem compilation_ends_unless_circular_here :
    Dialect.msSql.has .namedWindows = false ∧
    (∀ (base : Renderer) (depth : Nat), (Statement.select rankOfRanks).size < depth →
      (base.unrolled depth).statement (.select rankOfRanks) (.ofOptions .msSql {})
        (.start Dialect.msSql.placeholder) = (Statement.select rankOfRanks).runRender .msSql {}) ∧
    (Statement.select rankOfRanks).Ends (.ofOptions .msSql {}) ∧
    ∀ (fault : Error) (depth : Nat), ∃ fault',
      ((Renderer.stuck fault).unrolled depth).expr (rankOver "w") (.ofOptions .msSql {})
        { Context.start Dialect.msSql.placeholder with
          scopes := [(Statement.select rankOfItself).scope .msSql [[]]]
          frames := [[]] } = .error fault' := by
  have hnamed : Dialect.msSql.has .namedWindows = false := by decide +kernel
  have hmain := compilation_ends_unless_circular .msSql {}
  have hends := hmain.1 (.select rankOfRanks) (.inr rankOfRanks_founded)
  refine ⟨hnamed, hends.2, hends.1, fun fault depth => ?_⟩
  have hneeds : (Expr.unary .neg (rankOver "w")).Needs "w" :=
    .part rfl (List.mem_singleton.2 rfl) .window
  refine hmain.2 hnamed (Place.start.inClauses (.select rankOfItself) false false) "w" (.single ?_)
    (rankOver "w") .window _ ⟨rfl, rfl⟩ fault depth
  exact ⟨_, rfl, _, List.mem_singleton.2 rfl, hneeds⟩

end QueryPlan
