import QueryPlan.Proofs.Compile.Orderly

/-!
# Two compilations side by side

Several facts about the compiler compare two compilations of one plan: for two ways to mark
parameters, in strict and in lenient mode. This module has what they share. A `Pairing` fixes the
two settings and says when two texts correspond; `Pairing.Sim` says that two steps of a compilation
correspond: started in corresponding states they both fail with the same error, or both succeed in
corresponding states with corresponding results. A fact about the text of a single compilation is
one about its pairing with itself.

* A *trace* (`List Nat`) goes along with the two states: one number for each placeholder written so
  far. A text corresponds to another under the trace of its own placeholders, so that the order of
  the text is compared with the order of the states.
* A pairing is *free* if it does not care about traces and characters. Any dialect can be compared
  by a free pairing; other pairings ask for a dialect that prints what it is given in order
  (`Dialect.Orderly`), and for a plan whose words are *clean*.
* In some pairings the left compilation may give up where the right one goes on; `Excused` says with
  which errors.

`Pairing.Lawful` collects what a pairing has to show for its texts and its parameters.
-/

namespace QueryPlan

/-! ## 1. Pairings -/

/-- Two settings for one compilation, and what their results have to do with each other. -/
structure Pairing where
  left : Setting
  right : Setting
  /-- Whether two texts correspond, under the trace of the placeholders in them. -/
  Text : (trace : List Nat) → String → String → Prop
  /-- Whether two texts correspond that may stand directly behind a sign. -/
  Operand : (trace : List Nat) → String → String → Prop := Text
  /-- Whether a text without placeholders corresponds to itself, whatever stands next to it. -/
  Clean : String → Prop := fun _ => True
  /-- Whether a text without placeholders corresponds to itself, kept apart from others. -/
  Proper : String → Prop := fun _ => True
  /-- Whether a parameter can have a name. -/
  Argument : String → Prop := fun _ => True
  /-- Whether the parameters of the two sides correspond, under the trace of all placeholders. -/
  Noted : (trace : List Nat) → Collector → Collector → Prop
  /-- Errors with which the left side may give up alone. -/
  Excused : Error → Prop
  /-- Whether traces and characters do not matter. -/
  Free : Prop

namespace Pairing

variable (P : Pairing)

/-- Words of a plan that are all clean. -/
def Fits (ts : List String) : Prop :=
  ∀ t ∈ ts, P.Clean t

/-- A scope that brings only clean texts. -/
def FitsScope (s : Scope) : Prop :=
  ∀ x ∈ s.printedAs, P.Clean x.2

/-- States that correspond: they differ in the parameters at most. -/
structure Paired (trace : List Nat) (c c' : Context) : Prop where
  params : P.Noted trace c.params c'.params
  rest : c' = { c with params := c'.params }
  scopes : ∀ s ∈ c.scopes, P.FitsScope s
  outputTable : ∀ x ∈ c.outputTable, P.Clean x.2

variable {α β : Type}

/-- Results that correspond, where `R` compares values under the trace of what they have added. -/
inductive Outcome (R : List Nat → α → α → Prop) (trace : List Nat) :
    Except Error (α × Context) → Except Error (α × Context) → Prop where
  | ok {v : List Nat} {a a' : α} {c c' : Context} (hc : P.Paired (trace ++ v) c c')
      (ha : R v a a') : Outcome R trace (.ok (a, c)) (.ok (a', c'))
  | same (e : Error) : Outcome R trace (.error e) (.error e)
  | excused {e : Error} {y : Except Error (α × Context)} (he : P.Excused e) :
      Outcome R trace (.error e) y

/-- Steps that correspond behind a trace. -/
def SimAt (trace : List Nat) (R : List Nat → α → α → Prop) (x x' : Compile α) : Prop :=
  ∀ c c' : Context, P.Paired trace c c' → P.Outcome R trace (x P.left c) (x' P.right c')

/-- **Steps that correspond**: in corresponding states they give corresponding results. -/
def Sim (R : List Nat → α → α → Prop) (x x' : Compile α) : Prop :=
  ∀ trace : List Nat, P.SimAt trace R x x'

/-- Values that are the same and satisfy a condition. -/
def Equal (p : α → Prop) (a a' : α) : Prop :=
  a' = a ∧ p a

/-- Values that correspond, where nothing has been added to the trace. -/
def Still (R : α → α → Prop) (v : List Nat) (a a' : α) : Prop :=
  v = [] ∧ R a a'

/-- Values that are the same and satisfy a condition, where nothing has been added to the trace. -/
abbrev Same (p : α → Prop) : List Nat → α → α → Prop :=
  Still (Equal p)

/-! ## 2. Rules for steps -/

variable {P} {R : List Nat → α → α → Prop} {Q : List Nat → β → β → Prop} {trace v : List Nat}
  {c c' : Context} {x x' : Compile α} {f f' : α → Compile β} {p : α → Prop}
  {g : Context → Context}

theorem Outcome.mono {Q : List Nat → α → α → Prop} {x x' : Except Error (α × Context)}
    (hx : P.Outcome R trace x x') (h : ∀ v a a', R v a a' → Q v a a') : P.Outcome Q trace x x' := by
  cases hx with
  | ok hc ha => exact .ok hc (h _ _ _ ha)
  | same e => exact .same e
  | excused he => exact .excused he

/-- The trace in front of a step can be counted to the step. -/
theorem Outcome.shift {Q : List Nat → α → α → Prop} {x x' : Except Error (α × Context)}
    (hx : P.Outcome (fun w => Q (v ++ w)) (trace ++ v) x x') : P.Outcome Q trace x x' := by
  cases hx with
  | ok hc ha => exact .ok (by rw [← List.append_assoc]; exact hc) ha
  | same e => exact .same e
  | excused he => exact .excused he

theorem Outcome.bind {x x' : Except Error (α × Context)}
    {f f' : α × Context → Except Error (β × Context)} (hx : P.Outcome R trace x x')
    (hf : ∀ v a a' c c', P.Paired (trace ++ v) c c' → R v a a' →
      P.Outcome (fun w => Q (v ++ w)) (trace ++ v) (f (a, c)) (f' (a', c'))) :
    P.Outcome Q trace (x >>= f) (x' >>= f') := by
  cases hx with
  | ok hc ha => exact (hf _ _ _ _ _ hc ha).shift
  | same e => exact .same e
  | excused he => exact .excused he

theorem SimAt.bind (hx : P.SimAt trace R x x')
    (hf : ∀ v a a', R v a a' → P.SimAt (trace ++ v) (fun w => Q (v ++ w)) (f a) (f' a')) :
    P.SimAt trace Q (x >>= f) (x' >>= f') := by
  intro c c' hc
  exact Outcome.bind (hx c c' hc) fun v a a' d d' hd ha => hf v a a' ha d d' hd

/-- Parameters can be replaced by others that correspond. -/
theorem Paired.withParams {w : List Nat} {p p' : Collector} (hc : P.Paired trace c c')
    (hp : P.Noted w p p') : P.Paired w { c with params := p } { c' with params := p' } :=
  ⟨hp, congrArg (fun d : Context => { d with params := p' }) hc.rest, hc.scopes, hc.outputTable⟩

/-- A change of the state that has nothing to do with the parameters and brings clean texts only. -/
structure Quiet (P : Pairing) (g : Context → Context) : Prop where
  params : ∀ c, (g c).params = c.params
  rest : ∀ c p, g { c with params := p } = { g c with params := p }
  scopes : ∀ c, (∀ s ∈ c.scopes, P.FitsScope s) → ∀ s ∈ (g c).scopes, P.FitsScope s
  outputTable : ∀ c, (∀ x ∈ c.outputTable, P.Clean x.2) → ∀ x ∈ (g c).outputTable, P.Clean x.2

theorem Quiet.paired (hg : P.Quiet g) (hc : P.Paired trace c c') : P.Paired trace (g c) (g c') := by
  refine ⟨?_, ?_, hg.scopes c hc.scopes, hg.outputTable c hc.outputTable⟩
  · rw [hg.params, hg.params]
    exact hc.params
  · rw [hg.params]
    exact (congrArg g hc.rest).trans (hg.rest c _)

/-- What does not depend on the parameters is the same in states that correspond. -/
theorem Paired.same {γ : Type} (hc : P.Paired trace c c') (f : Context → γ)
    (hf : ∀ p, f { c with params := p } = f c) : f c' = f c :=
  (congrArg f hc.rest).trans (hf _)

namespace Sim

theorem pure {a a' : α} (h : R [] a a') : P.Sim R (Pure.pure a) (Pure.pure a') := by
  intro trace c c' hc
  exact .ok (by rw [List.append_nil]; exact hc) h

theorem bind (hx : P.Sim R x x')
    (hf : ∀ v a a', R v a a' → P.Sim (fun w => Q (v ++ w)) (f a) (f' a')) :
    P.Sim Q (x >>= f) (x' >>= f') := by
  exact fun trace => (hx trace).bind fun v a a' ha => hf v a a' ha _

/-- A step that gives the same on both sides. -/
theorem andThen (hx : P.Sim (Same p) x x') (hf : ∀ a, p a → P.Sim Q (f a) (f' a)) :
    P.Sim Q (x >>= f) (x' >>= f') := by
  refine hx.bind ?_
  rintro v a a' ⟨rfl, rfl, ha⟩
  exact hf _ ha

theorem mono {Q : List Nat → α → α → Prop} (hx : P.Sim R x x') (h : ∀ v a a', R v a a' → Q v a a') :
    P.Sim Q x x' := by
  intro trace c c' hc
  exact (hx trace c c' hc).mono h

/-- A last step that adds nothing to the trace. -/
theorem ended {Q : List Nat → α → α → Prop} (hx : P.Sim (Still (Q [])) x x') : P.Sim Q x x' := by
  refine hx.mono ?_
  rintro v a a' ⟨rfl, ha⟩
  exact ha

/-- A value that is made of the result of a step. -/
theorem map {g g' : α → β} (hx : P.Sim R x x') (h : ∀ v a a', R v a a' → Q v (g a) (g' a')) :
    P.Sim Q (x >>= fun a => Pure.pure (g a)) (x' >>= fun a => Pure.pure (g' a)) := by
  refine hx.bind fun v a a' ha => pure ?_
  rw [List.append_nil]
  exact h v a a' ha

/-- A condition that both sides decide in the same way. -/
theorem ite {b : Prop} [Decidable b] {y y' : Compile α} (hx : b → P.Sim R x x')
    (hy : ¬b → P.Sim R y y') : P.Sim R (if b then x else y) (if b then x' else y') := by
  by_cases h : b
  · rw [if_pos h, if_pos h]
    exact hx h
  · rw [if_neg h, if_neg h]
    exact hy h

/-- A step that is taken under a condition, with what follows in any case. -/
theorem guard {b : Prop} [Decidable b] {x x' : Compile PUnit} {f f' : PUnit → Compile β}
    (hx : b → P.Sim (Same fun _ => True) x x') (hf : P.Sim Q (f ⟨⟩) (f' ⟨⟩)) :
    P.Sim Q (if b then x >>= f else f ⟨⟩) (if b then x' >>= f' else f' ⟨⟩) :=
  ite (fun h => (hx h).andThen fun _ _ => hf) fun _ => hf

theorem fail (e : Error) : P.Sim R (Compile.fail e) (Compile.fail e) :=
  fun _ _ _ _ => .same e

theorem onRead {f f' : Setting → Compile β} (h : P.Sim Q (f P.left) (f' P.right)) :
    P.Sim Q (read >>= f) (read >>= f') :=
  h

theorem onDialect {f f' : Dialect → Compile β} (h : P.Sim Q (f P.left.dialect) (f' P.right.dialect)) :
    P.Sim Q (Compile.dialect >>= f) (Compile.dialect >>= f') :=
  h

theorem onGet {f f' : Context → Compile β}
    (h : ∀ trace c c', P.Paired trace c c' → P.Sim Q (f c) (f' c')) :
    P.Sim Q (get >>= f) (get >>= f') :=
  fun trace c c' hc => h trace c c' hc trace c c' hc

theorem onModify (hg : P.Quiet g) : P.Sim (Same fun _ => True) (modify g) (modify g) := by
  intro trace c c' hc
  refine .ok (v := []) ?_ ⟨rfl, rfl, trivial⟩
  rw [List.append_nil]
  exact hg.paired hc

/-- A part of a statement for which something is opened and closed again. -/
theorem around {h : Context → Context} (hg : P.Quiet g) (hh : P.Quiet h) (hx : P.Sim R x x') :
    P.Sim R (do modify g; let a ← x; modify h; Pure.pure a)
      (do modify g; let a ← x'; modify h; Pure.pure a) := by
  refine (onModify hg).andThen fun _ _ => hx.bind fun v a a' ha => ?_
  refine (onModify hh).andThen fun _ _ => pure ?_
  rw [List.append_nil]
  exact ha

end Sim

/-! ## 3. Lists and options -/

/-- Lists whose items correspond one by one, under the traces of the items in order. -/
inductive Each (R : List Nat → α → α → Prop) : List Nat → List α → List α → Prop where
  | nil : Each R [] [] []
  | cons {v w : List Nat} {a a' : α} {as as' : List α} (ha : R v a a') (has : Each R w as as') :
      Each R (v ++ w) (a :: as) (a' :: as')

/-- Values that are both missing, or both there and correspond. -/
inductive Both (R : List Nat → α → α → Prop) : List Nat → Option α → Option α → Prop where
  | none : Both R [] none none
  | some {v : List Nat} {a a' : α} (ha : R v a a') : Both R v (some a) (some a')

namespace Each

variable {w : List Nat}

theorem single {a a' : α} (ha : R v a a') : Each R v [a] [a'] := by
  have h := cons ha nil
  rwa [List.append_nil] at h

theorem append {as as' bs bs' : List α} (ha : Each R v as as') (hb : Each R w bs bs') :
    Each R (v ++ w) (as ++ bs) (as' ++ bs') := by
  induction ha with
  | nil => exact hb
  | cons h _ ih =>
    rw [List.append_assoc]
    exact cons h ih

theorem flatten {ass ass' : List (List α)} (h : Each (Each R) v ass ass') :
    Each R v ass.flatten ass'.flatten := by
  induction h with
  | nil => exact nil
  | cons ha _ ih => exact ha.append ih

theorem of_mem_map {γ : Type} {f f' : γ → α} {list : List γ}
    (h : Each R v (list.map f) (list.map f')) {x : γ} (hx : x ∈ list) : ∃ u, R u (f x) (f' x) := by
  induction list generalizing v with
  | nil => cases hx
  | cons y rest ih =>
    rw [List.map_cons, List.map_cons] at h
    cases h with
    | cons ha has =>
      rcases List.mem_cons.1 hx with rfl | hx
      · exact ⟨_, ha⟩
      · exact ih has hx

/-- What is missing on both sides is left out. -/
theorem filterMap {as as' : List (Option α)} (h : Each (Both R) v as as') :
    Each R v (as.filterMap id) (as'.filterMap id) := by
  induction h with
  | nil => exact nil
  | cons ha _ ih =>
    cases ha with
    | none => exact ih
    | some ha => exact cons ha ih

end Each

theorem Both.toList {a a' : Option α} (h : Both R v a a') : Each R v a.toList a'.toList := by
  cases h with
  | none => exact .nil
  | some ha => exact .single ha

theorem Both.isSome_eq {a a' : Option α} (h : Both R v a a') : a'.isSome = a.isSome := by
  cases h <;> rfl

namespace Sim

variable {γ : Type}

/-- A step for each item of a list. -/
theorem mapM {f f' : γ → Compile α} {list : List γ} (h : ∀ x ∈ list, P.Sim R (f x) (f' x)) :
    P.Sim (Each R) (list.mapM f) (list.mapM f') := by
  induction list with
  | nil =>
    rw [List.mapM_nil, List.mapM_nil]
    exact pure .nil
  | cons x rest ih =>
    rw [List.mapM_cons, List.mapM_cons]
    refine (h x List.mem_cons_self).bind fun v a a' ha => ?_
    refine (ih fun y hy => h y (List.mem_cons_of_mem x hy)).bind fun w as as' has => ?_
    refine pure ?_
    rw [List.append_nil]
    exact .cons ha has

/-- A check for each item of a list. -/
theorem forM {f f' : γ → Compile PUnit} {list : List γ}
    (h : ∀ x ∈ list, P.Sim (Same fun _ => True) (f x) (f' x)) :
    P.Sim (Same fun _ => True) (list.forM f) (list.forM f') := by
  induction list with
  | nil => exact pure ⟨rfl, rfl, trivial⟩
  | cons x rest ih =>
    exact (h x List.mem_cons_self).andThen fun _ _ =>
      ih fun y hy => h y (List.mem_cons_of_mem x hy)

/-- Values that are the same for each item of a list. -/
theorem mapM_same {f f' : γ → Compile α} {list : List γ}
    (h : ∀ x ∈ list, P.Sim (Same p) (f x) (f' x)) :
    P.Sim (Same fun as => ∀ a ∈ as, p a) (list.mapM f) (list.mapM f') := by
  refine (mapM h).mono fun v as as' has => ?_
  induction has with
  | nil => exact ⟨rfl, rfl, by simp⟩
  | cons ha _ ih =>
    obtain ⟨rfl, rfl, hp⟩ := ha
    obtain ⟨rfl, rfl, hps⟩ := ih
    refine ⟨rfl, rfl, fun b hb => ?_⟩
    rcases List.mem_cons.1 hb with rfl | hb
    · exact hp
    · exact hps b hb

end Sim

/-! ## 4. Results without a state -/

/-- Results without a state that correspond. -/
inductive Agrees (P : Pairing) (R : α → α → Prop) : Except Error α → Except Error α → Prop where
  | ok {a a' : α} (h : R a a') : Agrees P R (.ok a) (.ok a')
  | same (e : Error) : Agrees P R (.error e) (.error e)
  | excused {e : Error} {y : Except Error α} (he : P.Excused e) : Agrees P R (.error e) y

variable {x x' : Except Error α} {f f' : α → Except Error β} {R : α → α → Prop} {Q : β → β → Prop}

theorem Agrees.bind (hx : P.Agrees R x x') (hf : ∀ a a', R a a' → P.Agrees Q (f a) (f' a')) :
    P.Agrees Q (x >>= f) (x' >>= f') := by
  cases hx with
  | ok h => exact hf _ _ h
  | same e => exact .same e
  | excused he => exact .excused he

theorem Agrees.andThen (hx : P.Agrees (Equal p) x x') (hf : ∀ a, p a → P.Agrees Q (f a) (f' a)) :
    P.Agrees Q (x >>= f) (x' >>= f') := by
  refine hx.bind ?_
  rintro a _ ⟨rfl, ha⟩
  exact hf _ ha

theorem Sim.ofExcept (h : P.Agrees R x x') :
    P.Sim (Still R) (Compile.ofExcept x) (Compile.ofExcept x') := by
  cases h with
  | ok h => exact .pure ⟨rfl, h⟩
  | same e => exact .fail e
  | excused he => exact fun _ _ _ _ => .excused he

end Pairing

end QueryPlan
