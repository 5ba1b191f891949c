import QueryPlan.Proofs.Compile.References

/-!
# Conditions and their values

Conditions are formulas: tests of columns, joined by `AND` and `OR` over any number of operands, and
negated. A test is true, false or unknown, and so is a formula (`Formula.value`); without operands a
conjunction is true and a disjunction is false.

Formulas are over leaves of any kind. Those of a plan are tests (`ColumnTest`, `Formula.toExpr`),
and those that a reader gives are over the texts of predicates.
-/

namespace QueryPlan

/-! ## 1. Truth values -/

/-- The truth values of conditions. -/
inductive Truth where
  | true
  | false
  | unknown
  deriving DecidableEq

namespace Truth

def not : Truth → Truth
  | true => false
  | false => true
  | unknown => unknown

/-- The value of a conjunction or a disjunction. -/
def combine : Conjunction → Truth → Truth → Truth
  | .and, true, b => b
  | .and, false, _ => false
  | .and, unknown, false => false
  | .and, unknown, _ => unknown
  | .or, false, b => b
  | .or, true, _ => true
  | .or, unknown, true => true
  | .or, unknown, _ => unknown

/-- The value of a conjunction or a disjunction of nothing. -/
def neutral : Conjunction → Truth
  | .and => true
  | .or => false

theorem combine_assoc (op : Conjunction) (a b c : Truth) :
    combine op (combine op a b) c = combine op a (combine op b c) := by
  cases op <;> cases a <;> cases b <;> cases c <;> rfl

theorem neutral_combine (op : Conjunction) (a : Truth) : combine op (neutral op) a = a := by
  cases op <;> rfl

theorem combine_neutral (op : Conjunction) (a : Truth) : combine op a (neutral op) = a := by
  cases op <;> cases a <;> rfl

def join (op : Conjunction) (list : List Truth) : Truth :=
  list.foldr (combine op) (neutral op)

theorem join_singleton (op : Conjunction) (a : Truth) : join op [a] = a :=
  combine_neutral op a

theorem join_append (op : Conjunction) (list list' : List Truth) :
    join op (list ++ list') = combine op (join op list) (join op list') := by
  induction list with
  | nil => exact (neutral_combine op _).symm
  | cons a list ih =>
    change combine op a (join op (list ++ list')) = combine op (combine op a (join op list)) _
    rw [ih, combine_assoc]

end Truth

/-! ## 2. Formulas -/

/-- A formula over leaves. -/
inductive Formula (α : Type) where
  | leaf (a : α)
  | not (operand : Formula α)
  | conditions (op : Conjunction) (operands : List (Formula α))

namespace Formula

variable {α β : Type}

/-- Induction over formulas, where the operands of a condition are the members of a list. -/
@[elab_as_elim, induction_eliminator]
theorem induction {motive : Formula α → Prop} (leaf : ∀ a, motive (.leaf a))
    (not : ∀ operand, motive operand → motive (.not operand))
    (conditions : ∀ op operands, (∀ f ∈ operands, motive f) → motive (.conditions op operands)) :
    (t : Formula α) → motive t
  | .leaf a => leaf a
  | .not operand => not operand (induction leaf not conditions operand)
  | .conditions op operands =>
    conditions op operands fun f _ => induction leaf not conditions f

mutual

/-- Replaces the constructors of a formula. -/
def fold (leaf : α → β) (not : β → β) (conditions : Conjunction → List β → β) : Formula α → β
  | .leaf a => leaf a
  | .not operand => not (operand.fold leaf not conditions)
  | .conditions op operands => conditions op (foldAll leaf not conditions operands)

def foldAll (leaf : α → β) (not : β → β) (conditions : Conjunction → List β → β) :
    List (Formula α) → List β
  | [] => []
  | f :: rest => f.fold leaf not conditions :: foldAll leaf not conditions rest

end

theorem foldAll_eq_map (leaf : α → β) (not : β → β) (conditions : Conjunction → List β → β)
    (list : List (Formula α)) :
    foldAll leaf not conditions list = list.map (fold leaf not conditions) := by
  induction list with
  | nil => rfl
  | cons f rest ih => rw [foldAll, ih, List.map_cons]

theorem fold_conditions (leaf : α → β) (not : β → β) (conditions : Conjunction → List β → β)
    (op : Conjunction) (operands : List (Formula α)) :
    (Formula.conditions op operands).fold leaf not conditions =
      conditions op (operands.map (fold leaf not conditions)) := by
  rw [fold, foldAll_eq_map]

/-- The value of a formula where its leaves have values. -/
def value (ρ : α → Truth) : Formula α → Truth :=
  fold ρ Truth.not Truth.join

/-- The formula with formulas in place of its leaves. -/
def bind (f : α → Formula β) : Formula α → Formula β :=
  fold f .not .conditions

/-- The leaves from left to right. -/
def leaves : Formula α → List α :=
  fold (fun a => [a]) id fun _ => List.flatten

theorem value_conditions (ρ : α → Truth) (op : Conjunction) (operands : List (Formula α)) :
    (conditions op operands).value ρ = Truth.join op (operands.map (value ρ)) :=
  fold_conditions _ _ _ op operands

theorem bind_conditions (f : α → Formula β) (op : Conjunction) (operands : List (Formula α)) :
    (conditions op operands).bind f = conditions op (operands.map (bind f)) :=
  fold_conditions _ _ _ op operands

theorem mem_leaves_conditions {a : α} {op : Conjunction} {operands : List (Formula α)} :
    a ∈ (conditions op operands).leaves ↔ ∃ f ∈ operands, a ∈ f.leaves := by
  have h : (conditions op operands).leaves = (operands.map leaves).flatten :=
    fold_conditions _ _ _ op operands
  simp [h]

/-! ## 3. Disjunctions of conjunctions -/

/-- A condition, where a single operand stands for itself. -/
def joinBy (op : Conjunction) : List (Formula α) → Formula α
  | [single] => single
  | operands => conditions op operands

/-- The disjunction of some conjunctions. -/
def ofRows (rows : List (List (Formula α))) : Formula α :=
  joinBy .or (rows.map (joinBy .and))

/-- The value of a conjunction. -/
def rowValue (ρ : α → Truth) (row : List (Formula α)) : Truth :=
  Truth.join .and (row.map (value ρ))

/-- The value of a disjunction of conjunctions. -/
def rowsValue (ρ : α → Truth) (rows : List (List (Formula α))) : Truth :=
  Truth.join .or (rows.map (rowValue ρ))

theorem value_joinBy (ρ : α → Truth) (op : Conjunction) (list : List (Formula α)) :
    (joinBy op list).value ρ = Truth.join op (list.map (value ρ)) := by
  unfold joinBy
  split
  · exact (Truth.join_singleton op _).symm
  · exact value_conditions ρ op _

theorem value_ofRows (ρ : α → Truth) (rows : List (List (Formula α))) :
    (ofRows rows).value ρ = rowsValue ρ rows := by
  have hrow : value ρ ∘ joinBy .and = rowValue ρ := by
    funext row
    exact value_joinBy ρ .and row
  rw [ofRows, value_joinBy, List.map_map, hrow]
  rfl

theorem bind_joinBy (f : α → Formula β) (op : Conjunction) (list : List (Formula α)) :
    (joinBy op list).bind f = joinBy op (list.map (bind f)) := by
  cases list with
  | nil => exact bind_conditions f op []
  | cons a rest =>
    cases rest with
    | nil => rfl
    | cons b rest => exact bind_conditions f op (a :: b :: rest)

theorem bind_ofRows (f : α → Formula β) (rows : List (List (Formula α))) :
    (ofRows rows).bind f = ofRows (rows.map (List.map (bind f))) := by
  have hrow : bind f ∘ joinBy .and = joinBy .and ∘ List.map (bind f) := by
    funext row
    exact bind_joinBy f .and row
  rw [ofRows, bind_joinBy, List.map_map, hrow, ofRows, List.map_map]

end Formula

/-! ## 4. Conditions of plans -/

/-- A test of columns. -/
inductive ColumnTest where
  | compare (op : BinaryPredicate) (left right : ColumnRef)
  | isNull (column : ColumnRef) (negated : Bool)
  | between (value low high : ColumnRef) (negated : Bool)
  /-- The list is not empty. -/
  | member (value first : ColumnRef) (rest : List ColumnRef) (negated : Bool)

def ColumnTest.toExpr : ColumnTest → Expr
  | compare op left right => .binaryPredicate op left.toExpr right.toExpr
  | isNull column negated => .unaryPredicate (if negated then .isNotNull else .isNull) column.toExpr
  | between value low high negated => .between value.toExpr low.toExpr high.toExpr negated
  | member value first rest negated =>
    .member value.toExpr (.exprs ((first :: rest).map ColumnRef.toExpr)) negated

/-- A condition as an expression of a plan. -/
def Formula.toExpr : Formula ColumnTest → Expr :=
  fold ColumnTest.toExpr .not .conditions

theorem Formula.toExpr_conditions (op : Conjunction) (operands : List (Formula ColumnTest)) :
    (conditions op operands).toExpr = .conditions op (operands.map toExpr) :=
  fold_conditions _ _ _ op operands

end QueryPlan
