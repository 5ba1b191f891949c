import QueryPlan.Proofs.Coerce.Keeping
import QueryPlan.Proofs.Placeholder.Binding

/-!
# Constants as parameters

A constant of a plan without a declared type becomes a parameter of the type that it implies, and
binding coerces it to that type. A scalar suits its own type. An array implies the type of its first
item that implies one, and all other items are coerced to it, at every depth: `[1, 2.5]` cannot be
bound, and `[[], [1]]` is bound as `[[], ["1"]]`. `constant_bound_as_itself_iff` says for which
constants this does no harm.
-/

namespace QueryPlan

/-! ## 1. Uniform values -/

namespace Value

mutual

/-- Whether the items of each array in a value imply one type, apart from nulls. -/
def isUniform : Value → Bool
  | array items => areUniform (impliedElement items) items
  | _ => true

def areUniform (element : Option DataType) : List Value → Bool
  | [] => true
  | item :: rest =>
    (decide (item.impliedType = none ∨ item.impliedType = element) && isUniform item) &&
      areUniform element rest

end

theorem eq_null_of_impliedType {v : Value} (h : v.impliedType = none) : v = null := by
  cases v with
  | null => rfl
  | _ => cases h

theorem areUniform_eq_true_iff {element : Option DataType} {items : List Value} :
    areUniform element items = true ↔
      ∀ item ∈ items,
        (item.impliedType = none ∨ item.impliedType = element) ∧ item.isUniform = true := by
  induction items with
  | nil => simp [areUniform]
  | cons item rest ih =>
    rw [areUniform, Bool.and_eq_true, Bool.and_eq_true, decide_eq_true_iff, ih,
      List.forall_mem_cons]

/-- A uniform value suits the type that it implies. The induction is on the type, as the items of an
    array are typed by its element. -/
theorem suits_of_isUniform {v : Value} {t : DataType} (hv : v.isUniform = true)
    (h : v.impliedType = some t) : v.suits t := by
  induction t generalizing v with
  | array element ih =>
    cases v with
    | array items =>
      refine array_suits_iff.2 fun item hitem => ?_
      rw [isUniform] at hv
      obtain ⟨himplied, huniform⟩ := areUniform_eq_true_iff.1 hv item hitem
      rcases himplied with hnone | hsame
      · rw [eq_null_of_impliedType hnone]
        exact suits_null element
      · cases hsome : item.impliedType with
        | none =>
          rw [eq_null_of_impliedType hsome]
          exact suits_null element
        | some t =>
          have helement : t = element := by
            rw [impliedType, ← hsame, hsome] at h
            exact DataType.array.inj (Option.some.inj h)
          exact ih huniform (hsome.trans (congrArg some helement))
    | _ => cases h
  | _ =>
    refine suits_impliedType h ?_
    rintro items rfl
    cases h

end Value

/-! ## 2. Binding a constant -/

/-- In each style a constant is noted behind the parameters so far. -/
theorem Collector.params_value (c : Collector) (v : Value) (type : Option DataType) :
    ∃ name, (c.value v type).2.params =
      c.params ++ [⟨name, some v, type <|> v.impliedType⟩] := by
  unfold Collector.value
  split
  · exact ⟨none, rfl⟩
  · exact ⟨none, rfl⟩
  · exact ⟨_, rfl⟩

theorem bindAll_between {args : List (String × Value)} {before after : List Parameter}
    {xs ys : List Value} (hbefore : bindAll before args = .ok xs)
    (hafter : bindAll after args = .ok ys) {p : Parameter} {w : Value} :
    bindAll (before ++ p :: after) args = .ok (xs ++ w :: ys) ↔ p.bind args = .ok w := by
  unfold bindAll at hbefore hafter ⊢
  rw [List.mapM_append, List.mapM_cons, hbefore, hafter]
  cases p.bind args with
  | error e => simp [bind, Except.bind]
  | ok w' => simp [bind, Except.bind, pure, Except.pure]

/-- A parameter of a constant without a declared type takes the constant as it is if and only if the
    items of an array suit the type that they imply together. -/
theorem Parameter.bind_constant_iff (name : Option String) (v : Value)
    (args : List (String × Value)) :
    (∃ w, Parameter.bind ⟨name, some v, v.impliedType⟩ args = .ok w ∧ w.toJson = v.toJson) ↔
      ∀ items, v = .array items →
        ∀ item ∈ items, item.suits ((Value.impliedElement items).getD .text) := by
  have hsupplied : Parameter.supplied? ⟨name, some v, v.impliedType⟩ args = some v := rfl
  rw [Parameter.bind_of_supplied hsupplied]
  unfold Parameter.coerced
  dsimp only
  cases himplied : v.impliedType with
  | none =>
    refine ⟨fun _ items hv => ?_, fun _ => ⟨v, rfl, rfl⟩⟩
    rw [hv] at himplied
    cases himplied
  | some t =>
    dsimp only
    rw [Value.coerce_keeps_iff]
    constructor
    · rintro hsuits items rfl
      cases himplied
      exact Value.array_suits_iff.1 hsuits
    · intro hall
      by_cases hv : ∃ items, v = .array items
      · obtain ⟨items, rfl⟩ := hv
        cases himplied
        exact Value.array_suits_iff.2 (hall items rfl)
      · exact Value.suits_impliedType himplied fun items h => hv ⟨items, h⟩

/-- **When a constant is bound as itself.** Let a constant without a declared type be lifted to a
    parameter, among others that can be bound. Binding gives it the same JSON if and only if it is no
    array, or each of its items suits the type that the first of them with a type implies. That is
    so for all constants whose arrays are uniform at every depth. -/
theorem constant_bound_as_itself_iff (c : Collector) (v : Value) {out : Compiled}
    {after : List Parameter} {args : List (String × Value)} {xs ys : List Value}
    (hout : out.params = (c.value v none).2.params ++ after)
    (hbefore : bindAll c.params args = .ok xs) (hafter : bindAll after args = .ok ys) :
    ((∃ w, out.bind args = .ok (xs ++ w :: ys) ∧ w.toJson = v.toJson) ↔
      ∀ items, v = .array items →
        ∀ item ∈ items, item.suits ((Value.impliedElement items).getD .text)) ∧
    (v.isUniform = true → ∃ w, out.bind args = .ok (xs ++ w :: ys) ∧ w.toJson = v.toJson) := by
  obtain ⟨name, hvalue⟩ := c.params_value v none
  have hparams : out.params = c.params ++ ⟨name, some v, v.impliedType⟩ :: after := by
    rw [hout, hvalue, List.append_assoc]
    rfl
  have hiff : (∃ w, out.bind args = .ok (xs ++ w :: ys) ∧ w.toJson = v.toJson) ↔
      ∀ items, v = .array items →
        ∀ item ∈ items, item.suits ((Value.impliedElement items).getD .text) := by
    rw [← Parameter.bind_constant_iff name v args, Compiled.bind, hparams]
    simp only [bindAll_between hbefore hafter]
  refine ⟨hiff, fun huniform => hiff.2 ?_⟩
  rintro items rfl
  exact Value.array_suits_iff.1 (Value.suits_of_isUniform huniform rfl)

/-- A query that compares a column with an array, between two parameters. -/
def usersByScores (scores : Value) : Statement :=
  .select { Select.empty with
    sources := [.table (.ofName "users")]
    predicates := [.binaryPredicate .eq (.column "id") (.parameter "id"),
      .binaryPredicate .eq (.column "scores") (.ofValue scores),
      .binaryPredicate .eq (.column "name") (.parameter "name")] }

def nestedScores : Value := .array [.array [.int 1, .null], .array [.int 2]]

def mixedScores : Value := .array [.int 1, .float (.ofRatio false 5 2)]

def userArguments : List (String × Value) := [("id", .int 7), ("name", .text "a")]

/-- Nested integers are bound as themselves; an integer beside a double is not. -/
theorem constant_bound_as_itself_here :
    (∃ out w, compileWith (usersByScores nestedScores) .postgres {} = .ok out ∧
      out.bind userArguments = .ok ([.int 7] ++ w :: [.text "a"]) ∧
      w.toJson = nestedScores.toJson) ∧
    ∃ out, compileWith (usersByScores mixedScores) .postgres {} = .ok out ∧
      ¬∃ w, out.bind userArguments = .ok ([.int 7] ++ w :: [.text "a"]) ∧
        w.toJson = mixedScores.toJson := by
  let c : Collector := ((Collector.empty .numbered).named "id" none).2
  have hbefore : bindAll c.params userArguments = .ok [.int 7] := rfl
  have hafter : bindAll [⟨some "name", none, none⟩] userArguments = .ok [.text "a"] := rfl
  constructor
  · have hcompiled : (compileWith (usersByScores nestedScores) .postgres {}).map Compiled.params =
        .ok ((c.value nestedScores none).2.params ++ [⟨some "name", none, none⟩]) := rfl
    obtain ⟨out, hout, hparams⟩ := Except.map_eq_ok_iff.1 hcompiled
    obtain ⟨w, hw⟩ := (constant_bound_as_itself_iff c nestedScores hparams hbefore hafter).2 rfl
    exact ⟨out, w, hout, hw⟩
  · have hcompiled : (compileWith (usersByScores mixedScores) .postgres {}).map Compiled.params =
        .ok ((c.value mixedScores none).2.params ++ [⟨some "name", none, none⟩]) := rfl
    obtain ⟨out, hout, hparams⟩ := Except.map_eq_ok_iff.1 hcompiled
    refine ⟨out, hout, fun hbound => ?_⟩
    have hsuits := (constant_bound_as_itself_iff c mixedScores hparams hbefore hafter).1.1 hbound _
      rfl (.float (.ofRatio false 5 2)) (by simp)
    exact hsuits

/-- The empty array implies texts for its neighbour. -/
example : Parameter.bind ⟨none, some (.array [.array [], .array [.int 1]]),
    Value.impliedType (.array [.array [], .array [.int 1]])⟩ [] =
      .ok (.array [.array [], .array [.text "1"]]) := by
  rfl

end QueryPlan
