import QueryPlan.Proofs.Placeholder.Binding

/-!
# Names of parameters

Where placeholders can be repeated, a collector keeps one parameter for each name, and a placeholder
stands for the parameter of its name. What that parameter is after any sequence of calls is said by
`parameterOf_answers` for arguments and by `parameterOf_constantName` for constants, which have
names of their own where placeholders are named.

* A name that no constant has belongs to the call that came first. So a placeholder leads to what
  was asked for unless an argument has the name of a constant (`named_resolves_iff`).
* The type of an argument is the one that its first call gave, and that of later calls is lost
  (`type_of_first_call`).
-/

namespace QueryPlan

namespace Collector

/-! ## 1. Sequences of calls -/

/-- What a collector can be asked for: the placeholder of an argument or of a constant. -/
inductive Call where
  | argument (name : String) (type : Option DataType)
  | constant (v : Value) (type : Option DataType)

def answer (c : Collector) : Call → String × Collector
  | .argument name type => c.named name type
  | .constant v type => c.value v type

/-- The placeholders that calls get one after the other, and the collector after them. -/
def answers (c : Collector) : List Call → List String × Collector
  | [] => ([], c)
  | call :: rest =>
    let (placeholder, c) := c.answer call
    let (placeholders, c) := c.answers rest
    (placeholder :: placeholders, c)

/-- The name of a constant, where placeholders are named. -/
def constantName (number : Nat) : String :=
  s!"p{number}"

theorem constantName_inj {m n : Nat} (h : constantName m = constantName n) : m = n := by
  have hnumber : toString m = toString n := (String.append_right_inj "p").1 h
  rw [Nat.toString_eq_ofList_toDigits, Nat.toString_eq_ofList_toDigits,
    String.ofList_inj] at hnumber
  rw [← Nat.ofDigitChars_ten_toDigits (n := m), hnumber, Nat.ofDigitChars_ten_toDigits]

/-- The constants among calls, in order. -/
def constantsOf : List Call → List Value
  | [] => []
  | .argument _ _ :: rest => constantsOf rest
  | .constant v _ :: rest => v :: constantsOf rest

/-- The names that are given to the constants among calls. -/
def constantNames (calls : List Call) : List String :=
  (List.range (constantsOf calls).length).map fun i => constantName (i + 1)

/-- The types with which an argument is asked for, in order. -/
def typesOf (name : String) : List Call → List (Option DataType)
  | [] => []
  | .argument n type :: rest => if n = name then type :: typesOf name rest else typesOf name rest
  | .constant _ _ :: rest => typesOf name rest

theorem mem_typesOf {name : String} {type : Option DataType} {calls : List Call} :
    type ∈ typesOf name calls ↔ .argument name type ∈ calls := by
  induction calls with
  | nil => simp [typesOf]
  | cons call rest ih =>
    cases call with
    | argument n t =>
      rw [typesOf]
      split
      · next hn => simp [ih, hn]
      · next hn => simp [ih, Ne.symm hn]
    | constant v t => simp [typesOf, ih]

/-! ## 2. One call -/

/-- The parameter that stands under a name. -/
def parameterOf (c : Collector) (name : String) : Option Parameter :=
  (Fields.get? c.names name).bind (c.params[·]?)

/-- A collector whose placeholders can be repeated, and whose names have places. -/
structure Sound (c : Collector) : Prop where
  repeatable : c.style ≠ .positional
  place : ∀ name index, Fields.get? c.names name = some index → index < c.params.length

theorem sound_empty {style : PlaceholderStyle} (h : style ≠ .positional) : (empty style).Sound :=
  ⟨h, fun _ _ hget => nomatch hget⟩

/-- A parameter noted under a name. -/
def noted (c : Collector) (name : String) (p : Parameter) : Collector :=
  { c.push p with names := Fields.insert c.names name c.params.length }

section Calls

variable {c : Collector}

theorem Sound.noted (hc : c.Sound) (name : String) (p : Parameter) : (c.noted name p).Sound := by
  refine ⟨hc.repeatable, fun other index hget => ?_⟩
  have hlength : (c.noted name p).params.length = c.params.length + 1 := List.length_append
  rw [hlength]
  rw [Collector.noted, Fields.get?_insert] at hget
  split at hget
  · cases hget
    exact Nat.lt_succ_self _
  · exact Nat.lt_succ_of_lt (hc.place other index hget)

theorem Sound.push (hc : c.Sound) (p : Parameter) : (c.push p).Sound := by
  refine ⟨hc.repeatable, fun name index hget => ?_⟩
  have hlength : (c.push p).params.length = c.params.length + 1 := List.length_append
  rw [hlength]
  exact Nat.lt_succ_of_lt (hc.place name index hget)

theorem parameterOf_push (hc : c.Sound) (p : Parameter) (n : String) :
    (c.push p).parameterOf n = c.parameterOf n := by
  unfold parameterOf
  show (Fields.get? c.names n).bind ((c.params ++ [p])[·]?) = _
  cases hget : Fields.get? c.names n with
  | none => rfl
  | some index => exact List.getElem?_append_left (hc.place n index hget)

theorem parameterOf_noted (hc : c.Sound) (name : String) (p : Parameter) (n : String) :
    (c.noted name p).parameterOf n = if n = name then some p else c.parameterOf n := by
  have hnames : Fields.get? (c.noted name p).names n =
      if n = name then some c.params.length else Fields.get? c.names n := Fields.get?_insert _ _ _ _
  split
  · next hn =>
    rw [parameterOf, hnames, if_pos hn]
    exact List.getElem?_concat_length
  · next hn =>
    rw [parameterOf, hnames, if_neg hn]
    exact parameterOf_push hc p n

theorem answer_argument (hc : c.Sound) (name : String) (type : Option DataType) :
    (c.answer (.argument name type)).2 =
      if (Fields.get? c.names name).isSome then c else c.noted name ⟨some name, none, type⟩ := by
  have hplace : (c.named name type).2 = (c.placeOf name ⟨some name, none, type⟩).2 := by
    unfold named
    split
    · next hstyle => exact absurd hstyle hc.repeatable
    · rfl
    · rfl
  rw [answer, hplace, placeOf]
  cases Fields.get? c.names name with
  | none | some index => rfl

theorem answer_constant (hc : c.Sound) (v : Value) (type : Option DataType) :
    (c.answer (.constant v type)).2 =
      if c.style = .named then
        { c.noted (constantName (c.constants + 1))
            ⟨some (constantName (c.constants + 1)), some v, type <|> v.impliedType⟩ with
          constants := c.constants + 1 }
      else c.push ⟨none, some v, type <|> v.impliedType⟩ := by
  unfold answer value
  dsimp only
  split
  · next hstyle => exact absurd hstyle hc.repeatable
  · next hstyle => rw [if_neg (by rw [hstyle]; exact PlaceholderStyle.noConfusion)]
  · next hstyle =>
    rw [if_pos hstyle]
    rfl

/-- An argument stands under its name, unless something stood there before. -/
theorem parameterOf_argument (hc : c.Sound) (name : String) (type : Option DataType) (n : String) :
    (c.answer (.argument name type)).2.parameterOf n =
      (c.parameterOf n).or (if name = n then some ⟨some n, none, type⟩ else none) := by
  rw [answer_argument hc]
  by_cases hn : name = n
  · subst hn
    cases hget : Fields.get? c.names name with
    | some index =>
      have hplace := hc.place name index hget
      simp [parameterOf, hget, hplace]
    | none =>
      have hnone : c.parameterOf name = none := by rw [parameterOf, hget]; rfl
      simp [parameterOf_noted hc, hnone]
  · rw [if_neg hn, Option.or_none]
    split
    · rfl
    · rw [parameterOf_noted hc, if_neg (Ne.symm hn)]

/-- A constant stands under a name of its own, whatever stood there before, if it is given one. -/
theorem parameterOf_constant (hc : c.Sound) (v : Value) (type : Option DataType) (n : String) :
    (c.answer (.constant v type)).2.parameterOf n =
      if c.style = .named ∧ n = constantName (c.constants + 1) then
        some ⟨some n, some v, type <|> v.impliedType⟩
      else c.parameterOf n := by
  rw [answer_constant hc]
  by_cases hstyle : c.style = .named
  · simp only [hstyle, true_and, if_true]
    refine (parameterOf_noted hc _ _ n).trans ?_
    split
    · next hn => rw [hn]
    · rfl
  · simp only [hstyle, false_and, if_false]
    exact parameterOf_push hc _ n

theorem Sound.answer (hc : c.Sound) (call : Call) : (c.answer call).2.Sound := by
  cases call with
  | argument name type =>
    rw [answer_argument hc]
    split
    · exact hc
    · exact hc.noted _ _
  | constant v type =>
    rw [answer_constant hc]
    split
    · exact ⟨hc.repeatable, (hc.noted _ _).place⟩
    · exact hc.push _

theorem style_answer (hc : c.Sound) (call : Call) : (c.answer call).2.style = c.style := by
  cases call with
  | argument name type =>
    rw [answer_argument hc]
    split <;> rfl
  | constant v type =>
    rw [answer_constant hc]
    split <;> rfl

/-- Where placeholders are named, constants are counted. -/
theorem constants_answer (hc : c.Sound) (hstyle : c.style = .named) (call : Call) :
    (c.answer call).2.constants = c.constants + (constantsOf [call]).length := by
  cases call with
  | argument name type =>
    rw [answer_argument hc]
    split <;> rfl
  | constant v type =>
    rw [answer_constant hc, if_pos hstyle]
    rfl

end Calls

/-! ## 3. Runs -/

section Runs

variable {c : Collector} {calls rest : List Call} {call : Call} {name : String}

theorem answers_cons (call : Call) (rest : List Call) :
    c.answers (call :: rest) =
      ((c.answer call).1 :: ((c.answer call).2.answers rest).1,
        ((c.answer call).2.answers rest).2) :=
  rfl

theorem length_constantsOf_cons (call : Call) (rest : List Call) :
    (constantsOf (call :: rest)).length =
      (constantsOf [call]).length + (constantsOf rest).length := by
  cases call with
  | argument name type => simp [constantsOf]
  | constant v type => simp [constantsOf, Nat.add_comm]

/-- A name that is given to no constant among calls. -/
def Avoids (c : Collector) (calls : List Call) (name : String) : Prop :=
  c.style = .named → ∀ i < (constantsOf calls).length, name ≠ constantName (c.constants + i + 1)

theorem Avoids.tail (hc : c.Sound) (h : c.Avoids (call :: rest) name) :
    (c.answer call).2.Avoids rest name := by
  intro hstyle i hi
  rw [style_answer hc] at hstyle
  rw [constants_answer hc hstyle, Nat.add_assoc c.constants]
  refine h hstyle _ ?_
  rw [length_constantsOf_cons call rest]
  exact Nat.add_lt_add_left hi _

/-- **A name that no constant has belongs to the call that came first.** -/
theorem parameterOf_answers (hc : c.Sound) (h : c.Avoids calls name) :
    (c.answers calls).2.parameterOf name =
      (c.parameterOf name).or
        ((typesOf name calls).head?.map fun type => ⟨some name, none, type⟩) := by
  induction calls generalizing c with
  | nil => rw [answers, typesOf, List.head?_nil, Option.map_none, Option.or_none]
  | cons call rest ih =>
    rw [answers_cons, ih (hc.answer call) (h.tail hc)]
    cases call with
    | argument n type =>
      rw [parameterOf_argument hc, typesOf]
      split
      · rw [Option.or_assoc, List.head?_cons]
        rfl
      · rw [Option.or_none]
    | constant v type =>
      have hother : ¬(c.style = .named ∧ name = constantName (c.constants + 1)) :=
        fun hnamed => h hnamed.1 0 (Nat.succ_pos _) hnamed.2
      rw [parameterOf_constant hc, if_neg hother, typesOf]

/-- A constant stays under its name, as the constants that follow have greater numbers. -/
theorem parameterOf_own_name (hc : c.Sound) (hstyle : c.style = .named) (v : Value)
    (type : Option DataType) (rest : List Call) :
    ((c.answer (.constant v type)).2.answers rest).2.parameterOf (constantName (c.constants + 1)) =
      some ⟨some (constantName (c.constants + 1)), some v, type <|> v.impliedType⟩ := by
  have hrest : (c.answer (.constant v type)).2.Avoids rest (constantName (c.constants + 1)) := by
    intro _ k _ heq
    rw [constants_answer hc hstyle] at heq
    have hnumber := constantName_inj heq
    simp only [constantsOf, List.length_singleton] at hnumber
    omega
  rw [parameterOf_answers (hc.answer _) hrest, parameterOf_constant hc, if_pos ⟨hstyle, rfl⟩,
    Option.some_or]

/-- **A constant stands under its name for good.** -/
theorem parameterOf_constantName (hc : c.Sound) (hstyle : c.style = .named) {i : Nat} {v : Value}
    (h : (constantsOf calls)[i]? = some v) :
    ∃ p, (c.answers calls).2.parameterOf (constantName (c.constants + i + 1)) = some p ∧
      p.value = some v := by
  induction calls generalizing c i with
  | nil => cases h
  | cons call rest ih =>
    -- The number counts from the constants of `c`, so a constant that has been passed shifts it.
    have hlater {k : Nat} (hk : (constantsOf rest)[k]? = some v) :=
      ih (hc.answer call) ((style_answer hc call).trans hstyle) hk
    simp only [constants_answer hc hstyle] at hlater
    cases call with
    | argument n type => exact hlater h
    | constant w type =>
      cases i with
      | zero =>
        cases h
        exact ⟨_, parameterOf_own_name hc hstyle v type rest, rfl⟩
      | succ i =>
        rw [Nat.add_comm i 1, ← Nat.add_assoc]
        exact hlater h

theorem mem_constantNames :
    name ∈ constantNames calls ↔ ∃ i < (constantsOf calls).length, name = constantName (i + 1) := by
  simp [constantNames, eq_comm]

/-- An argument that has been asked for has a parameter, with the type of its first call. -/
theorem parameterOf_of_mem {style : PlaceholderStyle} (hstyle : style ≠ .positional)
    (hfree : style = .named → name ∉ constantNames calls) {type : Option DataType}
    (hcall : .argument name type ∈ calls) :
    ∃ first, (typesOf name calls).head? = some first ∧
      ((empty style).answers calls).2.parameterOf name = some ⟨some name, none, first⟩ := by
  have havoids : (empty style).Avoids calls name := by
    intro hnamed i hi heq
    refine hfree hnamed (mem_constantNames.2 ⟨i, hi, ?_⟩)
    rw [heq, empty, Nat.zero_add]
  obtain ⟨first, rest, htypes⟩ := List.exists_cons_of_ne_nil
    (List.ne_nil_of_mem (mem_typesOf.2 hcall))
  refine ⟨first, by rw [htypes, List.head?_cons], ?_⟩
  rw [parameterOf_answers (sound_empty hstyle) havoids, htypes]
  rfl

end Runs

/-! ## 4. Named placeholders -/

/-- Every parameter has a name, and the name has the place of the parameter. -/
def Placed (c : Collector) : Prop :=
  ∀ i p, c.params[i]? = some p → ∃ name, p.name = some name ∧ Fields.get? c.names name = some i

/-- The parameter that a named placeholder stands for. -/
def resolve? (c : Collector) (placeholder : String) : Option Parameter :=
  match placeholder.toList with
  | '@' :: name => c.parameterOf (String.ofList name)
  | _ => none

/-- A placeholder that stands for what it was given for: an argument, which the plan gives no value,
    or a constant. -/
def Call.Resolves (c : Collector) : Call → (placeholder : String) → Prop
  | .argument _ _, placeholder => ∃ p, c.resolve? placeholder = some p ∧ p.value = none
  | .constant v _, placeholder => ∃ p, c.resolve? placeholder = some p ∧ p.value = some v

/-- The placeholder of a call among others with some constants, where `before` constants have been
    named already. -/
def Call.Gets (before : Nat) (constants : List Value) : Call → (placeholder : String) → Prop
  | .argument name _, placeholder => placeholder = "@" ++ name
  | .constant v _, placeholder =>
    ∃ i, constants[i]? = some v ∧ placeholder = "@" ++ constantName (before + i + 1)

section Named

variable {c : Collector} {calls : List Call}

theorem resolve?_name (c : Collector) (name : String) :
    c.resolve? ("@" ++ name) = c.parameterOf name := by
  have hchars : ("@" ++ name).toList = '@' :: name.toList := by
    rw [String.toList_append]
    rfl
  rw [resolve?, hchars]
  exact congrArg c.parameterOf String.ofList_toList

theorem gets_answers (hc : c.Sound) (hstyle : c.style = .named) (calls : List Call) :
    List.Forall₂ (Call.Gets c.constants (constantsOf calls)) calls (c.answers calls).1 := by
  induction calls generalizing c with
  | nil => exact .nil
  | cons call rest ih =>
    have hrest := ih (hc.answer call) ((style_answer hc call).trans hstyle)
    rw [constants_answer hc hstyle] at hrest
    rw [answers_cons]
    cases call with
    | argument name type =>
      refine .cons ?_ hrest
      show (c.named name type).1 = _
      rw [named, hstyle]
    | constant v type =>
      refine .cons ⟨0, rfl, ?_⟩ (hrest.imp fun call placeholder hgets => ?_)
      · show (c.value v type).1 = _
        rw [value, hstyle]
        rfl
      · cases call with
        | argument name type => exact hgets
        | constant w type =>
          obtain ⟨i, hi, rfl⟩ := hgets
          refine ⟨i + 1, hi, ?_⟩
          rw [Nat.add_comm i 1, ← Nat.add_assoc]
          rfl

theorem Placed.nodup (hplaced : c.Placed) : (c.params.map Parameter.name).Nodup := by
  refine List.pairwise_iff_getElem.2 fun i j hi hj hij heq => ?_
  rw [List.length_map] at hi hj
  rw [List.getElem_map, List.getElem_map] at heq
  obtain ⟨name, hname, hplace⟩ := hplaced i _ (List.getElem?_eq_getElem hi)
  obtain ⟨name', hname', hplace'⟩ := hplaced j _ (List.getElem?_eq_getElem hj)
  rw [hname, hname'] at heq
  cases heq
  cases hplace.symm.trans hplace'
  exact Nat.lt_irrefl _ hij

theorem Placed.noted (hplaced : c.Placed) {name : String} (hnew : Fields.get? c.names name = none)
    {p : Parameter} (hp : p.name = some name) : (c.noted name p).Placed := by
  intro i q hq
  have hparams : (c.params ++ [p])[i]? = some q := hq
  have hnames : ∀ n, Fields.get? (c.noted name p).names n =
      if n = name then some c.params.length else Fields.get? c.names n :=
    Fields.get?_insert _ _ _
  rcases Nat.lt_trichotomy i c.params.length with hi | rfl | hi
  · rw [List.getElem?_append_left hi] at hparams
    obtain ⟨n, hn, hplace⟩ := hplaced i q hparams
    refine ⟨n, hn, ?_⟩
    rw [hnames, if_neg, hplace]
    rintro rfl
    cases hnew.symm.trans hplace
  · rw [List.getElem?_concat_length] at hparams
    cases hparams
    exact ⟨name, hp, by rw [hnames, if_pos rfl]⟩
  · rw [List.getElem?_eq_none (by rw [List.length_append]; exact hi)] at hparams
    cases hparams

/-- Names that the constants among calls will be given, and that nothing else takes. -/
def Reserved (c : Collector) (calls : List Call) : Prop :=
  ∀ i < (constantsOf calls).length,
    Fields.get? c.names (constantName (c.constants + i + 1)) = none ∧
      ∀ type, .argument (constantName (c.constants + i + 1)) type ∉ calls

theorem Reserved.tail (hc : c.Sound) (hstyle : c.style = .named) {call : Call} {rest : List Call}
    (h : c.Reserved (call :: rest)) : (c.answer call).2.Reserved rest := by
  intro i hi
  have hlength := length_constantsOf_cons call rest
  rw [constants_answer hc hstyle, Nat.add_assoc c.constants]
  obtain ⟨hnone, hother⟩ := h ((constantsOf [call]).length + i) (by omega)
  refine ⟨?_, fun type hmem => hother type (List.mem_cons_of_mem _ hmem)⟩
  cases call with
  | argument name type =>
    rw [answer_argument hc]
    split
    · exact hnone
    · rw [noted, Fields.get?_insert, if_neg]
      · exact hnone
      · -- The argument itself is among the calls that do not take the name.
        intro heq
        rw [heq] at hother
        exact hother type List.mem_cons_self
  | constant v type =>
    rw [answer_constant hc, if_pos hstyle]
    show Fields.get? (Fields.insert _ _ _) _ = _
    rw [Fields.get?_insert, if_neg]
    · exact hnone
    · intro heq
      have hnumber := constantName_inj heq
      simp only [constantsOf, List.length_singleton] at hnumber
      omega

/-- Names stay apart as long as no argument takes the name of a constant. -/
theorem Placed.answers (hc : c.Sound) (hstyle : c.style = .named) (hplaced : c.Placed)
    (hreserved : c.Reserved calls) : (c.answers calls).2.Placed := by
  induction calls generalizing c with
  | nil => exact hplaced
  | cons call rest ih =>
    rw [answers_cons]
    refine ih (hc.answer call) ((style_answer hc call).trans hstyle) ?_ (hreserved.tail hc hstyle)
    cases call with
    | argument name type =>
      rw [answer_argument hc]
      split
      · exact hplaced
      · next hnew => exact hplaced.noted (by simpa using hnew) rfl
    | constant v type =>
      rw [answer_constant hc, if_pos hstyle]
      exact hplaced.noted (hreserved 0 (Nat.succ_pos _)).1 rfl

theorem forall₂_iff_forall {α β : Type} {P : α → β → Prop} {Q : α → Prop} {xs : List α}
    {ys : List β} (h : List.Forall₂ (fun x y => P x y ↔ Q x) xs ys) :
    List.Forall₂ P xs ys ↔ ∀ x ∈ xs, Q x := by
  induction h with
  | nil => simp
  | cons hxy _ ih => rw [List.forall₂_cons, List.forall_mem_cons, hxy, ih]

/-- The placeholder of a call stands for what it was given for, unless the call is for an argument
    that has the name of a constant. -/
theorem resolves_iff {call : Call} (hmem : call ∈ calls) {placeholder : String}
    (hgets : call.Gets 0 (constantsOf calls) placeholder) :
    call.Resolves ((empty .named).answers calls).2 placeholder ↔
      ∀ name type, call = .argument name type → name ∉ constantNames calls := by
  have hsound : (empty .named).Sound := sound_empty PlaceholderStyle.noConfusion
  cases call with
  | constant v type =>
    obtain ⟨i, hi, rfl⟩ := hgets
    obtain ⟨p, hp, hvalue⟩ := parameterOf_constantName hsound rfl hi
    refine iff_of_true ⟨p, ?_, hvalue⟩ fun _ _ heq => Call.noConfusion heq
    rw [resolve?_name]
    exact hp
  | argument name type =>
    cases hgets
    have hname : (∀ n t, Call.argument name type = .argument n t → n ∉ constantNames calls) ↔
        name ∉ constantNames calls :=
      ⟨fun h => h name type rfl, fun h n t heq => by cases heq; exact h⟩
    rw [hname, Call.Resolves, resolve?_name]
    constructor
    · -- The parameter under the name of a constant has a value, which is that of the constant.
      rintro ⟨p, hp, hvalue⟩ hconstant
      obtain ⟨i, hi, rfl⟩ := mem_constantNames.1 hconstant
      obtain ⟨q, hq, hvalue'⟩ := parameterOf_constantName hsound rfl (List.getElem?_eq_getElem hi)
      rw [empty, Nat.zero_add] at hq
      cases hp.symm.trans hq
      cases hvalue.symm.trans hvalue'
    · intro hfree
      obtain ⟨first, -, hfound⟩ := parameterOf_of_mem hsound.repeatable (fun _ => hfree) hmem
      exact ⟨_, hfound, rfl⟩

/-- **Named placeholders are confused only by arguments that have names of constants.** After any
    calls, the placeholder of a constant stands for that constant, and the placeholder of an
    argument stands for an argument if and only if no constant has been given its name. All of them
    stand for what they were given for, with distinct names that have the places of their
    parameters, if and only if no argument has such a name. -/
theorem named_resolves_iff (calls : List Call) :
    let c := ((empty .named).answers calls).2
    let placeholders := ((empty .named).answers calls).1
    List.Forall₂ (fun call placeholder => call.Resolves c placeholder ↔
      ∀ name type, call = .argument name type → name ∉ constantNames calls) calls placeholders ∧
    ((c.params.map Parameter.name).Nodup ∧ c.Placed ∧
        List.Forall₂ (Call.Resolves c) calls placeholders ↔
      ∀ name type, .argument name type ∈ calls → name ∉ constantNames calls) := by
  intro c placeholders
  have hsound : (empty .named).Sound := sound_empty PlaceholderStyle.noConfusion
  have hcalls : List.Forall₂ (fun call placeholder => call.Resolves c placeholder ↔
      ∀ name type, call = .argument name type → name ∉ constantNames calls) calls placeholders := by
    have hgets := gets_answers hsound rfl calls
    refine ((List.forall₂_and_left calls placeholders).2 ⟨fun call hmem => hmem, hgets⟩).imp ?_
    exact fun call placeholder h => resolves_iff h.1 h.2
  have hall := forall₂_iff_forall hcalls
  refine ⟨hcalls, ?_, ?_⟩
  · rintro ⟨-, -, hresolves⟩ name type hmem
    exact hall.1 hresolves _ hmem name type rfl
  · intro hfree
    have hreserved : (empty .named).Reserved calls := by
      intro i hi
      refine ⟨rfl, fun type hmem => hfree _ type hmem (mem_constantNames.2 ⟨i, hi, ?_⟩)⟩
      rw [empty, Nat.zero_add]
    have hplaced : c.Placed := Placed.answers hsound rfl (fun i p hp => nomatch hp) hreserved
    refine ⟨hplaced.nodup, hplaced, hall.2 ?_⟩
    exact fun call hmem name type heq => hfree name type (heq ▸ hmem)

end Named

/-! ## 5. Types of arguments -/

/-- The parameter of a call where each placeholder has one of its own. -/
def Call.parameter : Call → Parameter
  | .argument name type => ⟨some name, none, type⟩
  | .constant v type => ⟨none, some v, type <|> v.impliedType⟩

theorem answer_positional {c : Collector} (hstyle : c.style = .positional) (call : Call) :
    c.answer call = ("?", c.push call.parameter) := by
  cases call with
  | argument name type => rw [answer, named, hstyle]; rfl
  | constant v type => rw [answer, value, hstyle]; rfl

theorem params_positional {c : Collector} (hstyle : c.style = .positional) (calls : List Call) :
    (c.answers calls).2.params = c.params ++ calls.map Call.parameter := by
  induction calls generalizing c with
  | nil => exact (List.append_nil _).symm
  | cons call rest ih =>
    rw [answers_cons, answer_positional hstyle]
    refine (ih (c := c.push call.parameter) hstyle).trans ?_
    rw [push, List.append_assoc]
    rfl

/-- **The type of an argument is that of its first call.** Let an argument be asked for with one
    type, or without a type, where placeholders can be repeated and no constant has been given its
    name. Its parameter has the type if and only if the first call for it has, and then coerces what
    it is given. Else it has no type and leaves what it is given as it is, also for the placeholders
    that were asked for with the type. Where each placeholder has a parameter of its own, there is
    one with the type in any case. -/
theorem type_of_first_call {style : PlaceholderStyle} (hstyle : style ≠ .positional)
    {calls : List Call} {name : String} (hfree : style = .named → name ∉ constantNames calls)
    {type : DataType} (hcall : .argument name (some type) ∈ calls)
    (hone : ∀ type', .argument name (some type') ∈ calls → type' = type) :
    ∃ p, ((empty style).answers calls).2.parameterOf name = some p ∧
      (p.type = some type ↔ (typesOf name calls).head? = some (some type)) ∧
      (p.type = some type →
        ∀ args v, Fields.get? args name = some v → p.bind args = v.coerce type) ∧
      (p.type ≠ some type →
        p.type = none ∧ ∀ args v, Fields.get? args name = some v → p.bind args = .ok v) ∧
      ⟨some name, none, some type⟩ ∈ ((empty .positional).answers calls).2.params := by
  obtain ⟨first, hfirst, hfound⟩ := parameterOf_of_mem hstyle hfree hcall
  have hbind (args : List (String × Value)) (v : Value) (hv : Fields.get? args name = some v) :
      Parameter.bind ⟨some name, none, first⟩ args =
        Parameter.coerced ⟨some name, none, first⟩ v :=
    Parameter.bind_of_supplied hv
  refine ⟨⟨some name, none, first⟩, hfound, ?_, ?_, ?_, ?_⟩
  · rw [hfirst, Option.some_inj]
  · rintro rfl
    exact hbind
  · intro hother
    cases first with
    | none => exact ⟨rfl, hbind⟩
    | some type' =>
      exact absurd (congrArg some (hone type' (mem_typesOf.1 (List.mem_of_head? hfirst)))) hother
  · rw [params_positional rfl]
    exact List.mem_append_right _ (List.mem_map_of_mem hcall)

/-- An argument that is first asked for without a type: it is bound as the text that it is given as,
    although it is asked for as an integer later. -/
theorem type_of_first_call_here :
    let calls : List Call :=
      [.argument "id" none, .constant (.bool true) none, .argument "id" (some .integer)]
    "id" ∉ constantNames calls ∧
      (∀ type', .argument "id" (some type') ∈ calls → type' = .integer) ∧
      ∃ p, ((empty .named).answers calls).2.parameterOf "id" = some p ∧ p.type = none ∧
        p.bind [("id", .text "7")] = .ok (.text "7") := by
  intro calls
  have hfree : "id" ∉ constantNames calls := by decide
  have hone : ∀ type', .argument "id" (some type') ∈ calls → type' = .integer := by
    intro type' hmem
    simpa [calls] using hmem
  obtain ⟨p, hp, htype, -, hnone, -⟩ := type_of_first_call PlaceholderStyle.noConfusion
    (fun _ : PlaceholderStyle.named = .named => hfree) (List.mem_of_getLast? rfl) hone
  obtain ⟨hnone, hbind⟩ := hnone fun h => nomatch htype.1 h
  exact ⟨hfree, hone, p, hp, hnone, hbind _ _ rfl⟩

end Collector

end QueryPlan
