import QueryPlan.Proofs.Placeholder.Alignment
import QueryPlan.Proofs.Placeholder.Naming

/-!
# Placeholders that stay valid

A collector hands out placeholders while the list of parameters still grows: names come again,
constants stand between them, and what has come since a mark is noted once more where text is
printed a second time. A `Session` keeps what was handed out beside the collector, so that "it stays
valid" is a property of a single state.

* Numbers refer to what they were given for, whatever comes later, and names have exactly the places
  of the parameters that carry them (`Session.Numbered`, kept by each step).
* Where placeholders go by position, each of them has a parameter of its own, and names are not kept
  (`Session.Positional`).

`placeholders_stay_valid` says both of every sequence of steps.
-/

namespace QueryPlan

namespace Collector

/-! ## 1. Sessions -/

/-- What is done with a collector. -/
inductive Step where
  | ask (call : Call)
  | mark
  /-- Text is printed a second time from one of the marks on, which is given by its number. -/
  | again (number : Nat)

/-- A collector with all that it has handed out. -/
structure Session where
  collector : Collector
  /-- The placeholders, with what they were given for. -/
  given : List (Call × String)
  marks : List Nat

namespace Session

def start (style : PlaceholderStyle) : Session :=
  ⟨.empty style, [], []⟩

def step (s : Session) : Step → Session
  | .ask call =>
    { s with
      collector := (s.collector.answer call).2
      given := s.given ++ [(call, (s.collector.answer call).1)] }
  | .mark => { s with marks := s.marks ++ [s.collector.mark] }
  | .again number =>
    -- A mark that was never taken cannot be used.
    match s.marks[number]? with
    | some mark => { s with collector := s.collector.repeatSince mark }
    | none => s

def run (s : Session) (steps : List Step) : Session :=
  steps.foldl step s

/-- What holds at the start and is kept by each step holds after any steps. -/
theorem run_induction {I : Session → Prop} (hstep : ∀ s step, I s → I (s.step step)) {s : Session}
    (hs : I s) (steps : List Step) : I (s.run steps) := by
  induction steps generalizing s with
  | nil => exact hs
  | cons step rest ih => exact ih (hstep s step hs)

end Session

/-! ## 2. Numbers -/

/-- A collector whose numbers can be relied on: a name has the places of the parameters that carry
    it, of which there is then one, and only arguments carry names. -/
structure Indexed (c : Collector) : Prop where
  style : c.style = .numbered
  places : ∀ name index, Fields.get? c.names name = some index ↔
    ∃ p, c.params[index]? = some p ∧ p.name = some name
  arguments : ∀ p ∈ c.params, ∀ name, p.name = some name → p.value = none

section Numbers

variable {c : Collector}

theorem indexed_empty : (empty .numbered).Indexed where
  style := rfl
  places name index := by simp [empty, Fields.get?]
  arguments p hp := absurd hp List.not_mem_nil

theorem params_push_eq_some_iff (p : Parameter) {index : Nat} {q : Parameter} :
    (c.push p).params[index]? = some q ↔
      c.params[index]? = some q ∨ index = c.params.length ∧ q = p := by
  show (c.params ++ [p])[index]? = some q ↔ _
  rcases Nat.lt_trichotomy index c.params.length with hlt | rfl | hgt
  · rw [List.getElem?_append_left hlt]
    simp [Nat.ne_of_lt hlt]
  · simp [eq_comm]
  · have hnone : c.params[index]? = none := List.getElem?_eq_none (Nat.le_of_lt hgt)
    have hnone' : (c.params ++ [p])[index]? = none :=
      List.getElem?_eq_none (by rw [List.length_append]; exact hgt)
    rw [hnone, hnone']
    simp [Nat.ne_of_gt hgt]

/-- A constant takes a place and no name. -/
theorem Indexed.push (hc : c.Indexed) {p : Parameter} (hp : p.name = none) : (c.push p).Indexed where
  style := hc.style
  places name index := by
    refine (hc.places name index).trans ⟨?_, ?_⟩
    · rintro ⟨q, hq, hname⟩
      exact ⟨q, (params_push_eq_some_iff p).2 (.inl hq), hname⟩
    · rintro ⟨q, hq, hname⟩
      rcases (params_push_eq_some_iff p).1 hq with hq | ⟨-, rfl⟩
      · exact ⟨q, hq, hname⟩
      · cases hp.symm.trans hname
  arguments q hq name hname := by
    rcases List.mem_append.1 hq with hq | hq
    · exact hc.arguments q hq name hname
    · rw [List.mem_singleton.1 hq, hp] at hname
      cases hname

/-- An argument whose name is new takes a place under it. -/
theorem Indexed.noted (hc : c.Indexed) {name : String} (hnew : Fields.get? c.names name = none)
    (type : Option DataType) : (c.noted name ⟨some name, none, type⟩).Indexed where
  style := hc.style
  places other index := by
    -- No parameter carries the name so far, for it would have a place then.
    have hfree : ∀ q, c.params[index]? = some q → q.name ≠ some name := by
      intro q hq hname
      cases hnew.symm.trans ((hc.places name index).2 ⟨q, hq, hname⟩)
    have hparams : ∀ q, (c.noted name ⟨some name, none, type⟩).params[index]? = some q ↔
        c.params[index]? = some q ∨ index = c.params.length ∧ q = ⟨some name, none, type⟩ :=
      fun q => params_push_eq_some_iff _
    have hnames : Fields.get? (c.noted name ⟨some name, none, type⟩).names other =
        if other = name then some c.params.length else Fields.get? c.names other :=
      Fields.get?_insert _ _ _ _
    simp only [hnames, hparams]
    by_cases hother : other = name
    · subst hother
      rw [if_pos rfl]
      constructor
      · intro hindex
        cases hindex
        exact ⟨_, .inr ⟨rfl, rfl⟩, rfl⟩
      · rintro ⟨q, hq | ⟨rfl, -⟩, hname⟩
        · exact absurd hname (hfree q hq)
        · rfl
    · rw [if_neg hother, hc.places]
      constructor
      · rintro ⟨q, hq, hname⟩
        exact ⟨q, .inl hq, hname⟩
      · rintro ⟨q, hq | ⟨-, rfl⟩, hname⟩
        · exact ⟨q, hq, hname⟩
        · exact absurd (Option.some.inj hname).symm hother
  arguments q hq other hname := by
    rcases List.mem_append.1 hq with hq | hq
    · exact hc.arguments q hq other hname
    · rw [List.mem_singleton.1 hq]

/-- **One call**: the collector stays reliable, its parameters stay where they are, and the number
    that is given refers to what was asked for. -/
theorem Indexed.answer (hc : c.Indexed) (call : Call) :
    (c.answer call).2.Indexed ∧ (∃ more, (c.answer call).2.params = c.params ++ more) ∧
      ∃ number, (c.answer call).1 = "$" ++ toString number ∧
        Resolves (c.answer call).2.params number call.parameter := by
  cases call with
  | argument name type =>
    rw [Collector.answer, named, hc.style]
    dsimp only
    rw [placeOf]
    cases hget : Fields.get? c.names name with
    | some index =>
      obtain ⟨p, hp, hname⟩ := (hc.places name index).1 hget
      have hvalue := hc.arguments p (List.mem_of_getElem? hp) name hname
      exact ⟨hc, ⟨[], (List.append_nil _).symm⟩, index + 1, rfl, Nat.succ_pos _, p, hp, hname, hvalue⟩
    | none => exact ⟨hc.noted hget type, ⟨_, rfl⟩, c.params.length + 1, rfl, .last _ _⟩
  | constant v type =>
    rw [Collector.answer, value, hc.style]
    exact ⟨hc.push rfl, ⟨_, rfl⟩, c.params.length + 1, rfl, .last _ _⟩

theorem Indexed.repeatSince (hc : c.Indexed) (mark : Nat) : c.repeatSince mark = c := by
  rw [Collector.repeatSince, if_neg (by rw [hc.style]; exact PlaceholderStyle.noConfusion)]

/-- No two parameters carry one name. -/
theorem Indexed.eq_of_name (hc : c.Indexed) {i j : Nat} {p q : Parameter} {name : String}
    (hi : c.params[i]? = some p) (hj : c.params[j]? = some q) (hp : p.name = some name)
    (hq : q.name = some name) : i = j := by
  have hplace := (hc.places name i).2 ⟨p, hi, hp⟩
  exact Option.some.inj (hplace.symm.trans ((hc.places name j).2 ⟨q, hj, hq⟩))

end Numbers

namespace Session

/-- A session in which all numbers that were given can be relied on. -/
structure Numbered (s : Session) : Prop where
  collector : s.collector.Indexed
  given : ∀ x ∈ s.given, ∃ number, x.2 = "$" ++ toString number ∧
    Resolves s.collector.params number x.1.parameter

theorem Numbered.step {s : Session} (hs : s.Numbered) (step : Step) : (s.step step).Numbered := by
  cases step with
  | mark => exact ⟨hs.collector, hs.given⟩
  | again number =>
    rw [Session.step]
    split
    · rw [hs.collector.repeatSince]
      exact hs
    · exact hs
  | ask call =>
    obtain ⟨hindexed, ⟨more, hmore⟩, hnumber⟩ := hs.collector.answer call
    refine ⟨hindexed, fun x hx => ?_⟩
    rcases List.mem_append.1 hx with hx | hx
    · -- What was given earlier refers to a place that the list keeps.
      obtain ⟨number, htext, hresolves⟩ := hs.given x hx
      refine ⟨number, htext, ?_⟩
      show Resolves (s.collector.answer call).2.params number _
      rw [hmore]
      exact hresolves.append more
    · rw [List.mem_singleton.1 hx]
      exact hnumber

theorem numbered_run (steps : List Step) : ((start .numbered).run steps).Numbered :=
  run_induction (fun _ step hs => hs.step step)
    ⟨indexed_empty, fun _ hx => absurd hx List.not_mem_nil⟩ steps

/-! ## 3. Positions -/

/-- A session in which placeholders go by position: no names are kept, and marks stay inside of the
    list. -/
structure Positional (s : Session) : Prop where
  style : s.collector.style = .positional
  names : s.collector.names = []
  marks : ∀ mark ∈ s.marks, mark ≤ s.collector.params.length

end Session

theorem repeatSince_positional {c : Collector} (hstyle : c.style = .positional) (mark : Nat) :
    c.repeatSince mark = { c with params := c.params ++ c.params.drop mark } := by
  rw [repeatSince, if_pos hstyle]

namespace Session

theorem Positional.step {s : Session} (hs : s.Positional) (step : Step) :
    (s.step step).Positional := by
  cases step with
  | ask call =>
    rw [Session.step, answer_positional hs.style]
    refine ⟨hs.style, hs.names, fun mark hmark => ?_⟩
    have hle := hs.marks mark hmark
    show mark ≤ (s.collector.params ++ [call.parameter]).length
    rw [List.length_append]
    omega
  | mark =>
    refine ⟨hs.style, hs.names, fun mark hmark => ?_⟩
    rcases List.mem_append.1 hmark with hmark | hmark
    · exact hs.marks mark hmark
    · rw [List.mem_singleton.1 hmark]
      exact Nat.le_refl _
  | again number =>
    rw [Session.step]
    split
    · next taken htaken =>
      rw [repeatSince_positional hs.style]
      refine ⟨hs.style, hs.names, fun mark hmark => ?_⟩
      have hle := hs.marks mark hmark
      rw [List.length_append]
      omega
    · exact hs

theorem positional_run (steps : List Step) : ((start .positional).run steps).Positional :=
  run_induction (fun _ step hs => hs.step step)
    ⟨rfl, rfl, fun _ hmark => absurd hmark List.not_mem_nil⟩ steps

end Session

/-- **Placeholders stay valid.** After any steps of a collector that numbers its placeholders, every
    placeholder that was given is a number of the list of parameters, under which there is the
    argument or the constant that it was given for. No two parameters carry one name, names have the
    places of the parameters that carry them, and text that is printed a second time notes nothing.
    Where placeholders go by position, each call appends the parameter that it asks for, text that is
    printed a second time appends what has come since its mark, which lies inside of the list, and
    no names are kept. -/
theorem placeholders_stay_valid (steps : List Step) :
    (let s := (Session.start .numbered).run steps;
      (∀ call placeholder, (call, placeholder) ∈ s.given →
        ∃ k p, placeholder = "$" ++ toString k ∧ 1 ≤ k ∧ k ≤ s.collector.params.length ∧
          s.collector.params[k - 1]? = some p ∧
          (∀ name type, call = .argument name type → p.name = some name ∧ p.value = none) ∧
          ∀ v type, call = .constant v type → p.value = some v ∧ p.name = none) ∧
      (∀ (i j : Nat) (p q : Parameter) name, s.collector.params[i]? = some p →
        s.collector.params[j]? = some q → p.name = some name → q.name = some name → i = j) ∧
      (∀ name i, Fields.get? s.collector.names name = some i ↔
        ∃ p, s.collector.params[i]? = some p ∧ p.name = some name) ∧
      ∀ mark, s.collector.repeatSince mark = s.collector) ∧
    (let s := (Session.start .positional).run steps;
      (∀ call, s.collector.answer call =
        ("?", { s.collector with params := s.collector.params ++ [call.parameter] })) ∧
      (∀ mark ∈ s.marks, mark ≤ s.collector.params.length ∧
        s.collector.repeatSince mark =
          { s.collector with
            params := s.collector.params ++ s.collector.params.drop mark }) ∧
      s.collector.names = []) := by
  have hn := Session.numbered_run steps
  have hp := Session.positional_run steps
  refine ⟨⟨fun call placeholder hgiven => ?_, ?_, hn.collector.places, hn.collector.repeatSince⟩,
    answer_positional hp.style, ?_, hp.names⟩
  · obtain ⟨k, htext, hpos, p, hplace, hname, hvalue⟩ := hn.given _ hgiven
    have hlt := (List.getElem?_eq_some_iff.1 hplace).1
    refine ⟨k, p, htext, hpos, by omega, hplace, ?_, ?_⟩
    · rintro name type rfl
      exact ⟨hname, hvalue⟩
    · rintro v type rfl
      exact ⟨hvalue, hname⟩
  · exact fun i j p q name hi hj => hn.collector.eq_of_name hi hj
  · exact fun mark hmark => ⟨hp.marks mark hmark, repeatSince_positional hp.style mark⟩

end Collector

end QueryPlan
