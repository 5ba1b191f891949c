import QueryPlan.Compile.Literal
import QueryPlan.Text.Alphanumeric

/-!
# Expressions

How expressions are written. Expressions hold statements and statements hold expressions, so that
each piece here takes a `Renderer` for the expressions and statements inside; `Compile.Statement`
ties the pieces together.

Parameters are noted in the order in which their placeholders are written.
-/

namespace QueryPlan

/-- How the parts of an expression or a statement are written. -/
structure Renderer where
  expr : Expr → Compile Fragment
  statement : Statement → Compile String

namespace Renderer

open Compile

variable (r : Renderer)

/-! ## 1. Operands and lists -/

/-- The text of an expression that stands for itself. -/
def text (e : Expr) : Compile String :=
  return (← r.expr e).text

/-- An operand with the parentheses that it needs. -/
def operand (e : Expr) (isLeft : Bool) (parent : Strength) (associativity : Associativity) :
    Compile Fragment :=
  return (← r.expr e).asOperand isLeft parent associativity

/-- Expressions with commas between them. -/
def list (es : List Expr) : Compile String :=
  return ", ".intercalate (← es.mapM r.text)

/-- A column, with its qualifier where it needs one. -/
def field (source name : String) : Compile String := do
  let column ← quote name
  if source == "" then return column
  match ← qualifier source name with
  | some qualifier => return s!"{qualifier}.{column}"
  | none => return column

/-! ## 2. Operators -/

/-- The operands of an operator as the texts of their slots. The first of two operands stands on
    the left. -/
def operandTexts (template : Template) (strength : Strength) (associativity : Associativity)
    (binary : Bool) (operands : List (String × Expr)) : Compile Params :=
  operands.zipIdx.mapM fun ((slot, e), index) => do
    let parent := (template.slotStrength? slot).getD strength
    let f ← r.operand e (binary && index == 0) parent associativity
    return (slot, f.text)

/-- An operator written by its template. Its slots may ask for a strength of their own, and its
    entry may say how the result binds. -/
def operator {κ : Type} [Worded κ] (family : Formats → Registry κ) (key : κ) (strength : Strength)
    (associativity : Associativity) (operands : List (String × Expr)) : Compile Fragment := do
  let found ← lookup family key []
  let texts ←
    r.operandTexts found.template strength associativity (1 < operands.length) operands
  let params := Fields.insert (Fields.ofList texts) "keyword" found.keyword
  return ⟨found.template.render params, found.strength.getD strength⟩

/-! ## 3. Aggregates -/

/-- The filter of an aggregate as the condition of a case, where the dialect has no clause for
    it. -/
def filterCase (filter : Option Expr) : Compile (Option String) := do
  let hasClause ← has .aggregateFilter
  match filter with
  | some filter => if hasClause then return none else return some (← r.text filter)
  | none => return none

/-- The argument of an aggregate. Without one it counts rows, in a case by a constant. -/
def aggregateArg (arg : Option Expr) (inCase : Bool) : Compile String :=
  match arg with
  | some arg => r.text arg
  | none => pure (if inCase then "1" else "*")

/-- The filter of an aggregate as the text of its slot. -/
def filterParam (filterCase : Option String) (filter : Option Expr) : Compile Params :=
  match filterCase, filter with
  | some text, _ => pure [("filter_case", text)]
  | none, some filter => return [("filter", ← r.text filter)]
  | none, none => pure []

/-- An aggregate. A filter is a clause where the dialect has one; else the argument becomes a case,
    whose condition is written in front of it. -/
def aggregate (kind : AggregateKind) (distinct : Bool) (arg filter : Option Expr) :
    Compile Fragment := do
  let filterCase ← r.filterCase filter
  let arg ← r.aggregateArg arg filterCase.isSome
  let filter ← r.filterParam filterCase filter
  let params := (if distinct then [("distinct", "DISTINCT ")] else []) ++ [("arg", arg)] ++ filter
  let found ← lookup Formats.aggregates kind params
  return ⟨found.render params, found.strength.getD atomStrength⟩

/-! ## 4. Conditions -/

/-- The condition that holds always, or never. -/
def emptyConditions (op : Conjunction) : Compile Fragment := do
  let key :=
    match op with
    | .and => Keyword.truePredicate
    | .or => Keyword.falsePredicate
  let found ← lookup Formats.keywords key []
  return ⟨found.render [], found.strength.getD atomStrength⟩

/-- Conditions joined by `AND` or `OR`. -/
def conditions (op : Conjunction) (operands : List Expr) : Compile Fragment :=
  match operands with
  | [] => emptyConditions op
  | [single] => r.expr single
  | _ => do
    let texts ← operands.mapM fun e => return (← r.operand e true op.strength .both).text
    return ⟨(" " ++ Worded.keyword op ++ " ").intercalate texts, op.strength⟩

/-- The conditions of a clause, which all have to hold. -/
def predicates (es : List Expr) : Compile String :=
  match es with
  | [single] => r.text single
  | _ => do
    let texts ← es.mapM fun e => return (← r.operand e true Conjunction.and.strength .both).text
    return " AND ".intercalate texts

/-- What a membership test searches. -/
def members : Members → Compile String
  | .exprs es => r.list es
  | .query query => r.statement query

/-- A membership test. Nothing is in an empty list. -/
def member (value : Expr) (list : Members) (negated : Bool) : Compile Fragment :=
  match list with
  | .exprs [] => emptyConditions (if negated then .and else .or)
  | _ => do
    let value ← r.operand value true rangeOperandStrength .both
    let list ← r.members list
    let key := if negated then Keyword.notMember else Keyword.member
    return ⟨← keyword key [("value", value.text), ("list", list)], rangeStrength⟩

def between (value low high : Expr) (negated : Bool) : Compile Fragment := do
  let value ← r.operand value true rangeOperandStrength .both
  let low ← r.operand low true rangeOperandStrength .both
  let high ← r.operand high true rangeOperandStrength .both
  let key := if negated then Keyword.notBetween else Keyword.between
  return ⟨← keyword key [("value", value.text), ("low", low.text), ("high", high.text)],
    rangeStrength⟩

def rowsExist (query : Statement) (negated : Bool) : Compile Fragment := do
  let params := [("query", ← r.statement query)]
  if negated then return ⟨← keyword .noRowsExist params, notStrength⟩
  else return .atom (← keyword .rowsExist params)

/-! ## 5. Cases and casts -/

/-- The arms of a case. -/
def arms (list : List (Expr × Expr)) : Compile String := do
  let texts ← list.mapM fun (condition, result) => do
    let condition ← r.text condition
    let result ← r.text result
    return s!" WHEN {condition} THEN {result}"
  return String.join texts

/-- An expression with a text in front of it, if there is one. -/
def textBehind (front : String) (e : Option Expr) : Compile String :=
  match e with
  | some e => return front ++ (← r.text e)
  | none => pure ""

/-- A case. Without arms it is what stands otherwise. -/
def case (subject : Option Expr) (list : List (Expr × Expr)) (otherwise : Option Expr) :
    Compile Fragment :=
  match list with
  | [] =>
    match otherwise with
    | some otherwise => r.expr otherwise
    | none => literal .null
  | _ => do
    let subject ← r.textBehind " " subject
    let arms ← r.arms list
    let otherwise ← r.textBehind " ELSE " otherwise
    return .atom s!"CASE{subject}{arms}{otherwise} END"

def cast (type : DataType) (e : Expr) : Compile Fragment := do
  let found ← lookup Formats.keywords .cast []
  let strength := (found.template.slotStrength? "operand").getD atomStrength
  let operand ← r.operand e true strength .both
  return .atom (← keyword .cast [("operand", operand.text), ("type", ← typeName type)])

/-- A row; without a constructor for rows it is a list in parentheses. -/
def row (elements : List Expr) : Compile Fragment := do
  let elements ← r.list elements
  if ← has .rowConstructor then return .atom (← keyword .row [("elements", elements)])
  else return ⟨s!"({elements})", parenStrength⟩

/-! ## 6. Orderings and windows -/

/-- Whether a character can be part of a single term. -/
def isTermChar (c : Char) : Bool :=
  Text.isAlphanumeric c ||
    ['_', '.', '"', '\x60', '[', ']', '$', '@', '?'].contains c

/-- Text in parentheses, unless it is clearly a single term. -/
def wrapWeak (text : String) : String :=
  if text.toList.all isTermChar then text else s!"({text})"

/-- The direction of an item, where it is not the usual one. -/
def directionText : Direction → String
  | .asc => ""
  | .desc => " " ++ Worded.keyword Direction.desc

def nullsKeyword : Nulls → Keyword
  | .first => .nullsFirst
  | .last => .nullsLast

/-- The ranks of nulls and of all else in a sort key. -/
def nullRanks : Nulls → String × String
  | .first => ("0", "1")
  | .last => ("1", "0")

/-- An item of an ordering with its place for nulls. Where nulls cannot be placed by a keyword, a
    sort key in front of the item places them, in which the expression is written a second time. -/
def placeNulls (start : Nat) (e direction : String) (nulls : Option Nulls) :
    Compile (List String) := do
  match nulls with
  | none => return [e ++ direction]
  | some nulls =>
    if ← has .nullsOrdering then
      return [e ++ direction ++ " " ++ (← keyword (nullsKeyword nulls))]
    else
      let isNull ← write Formats.unaryPredicates .isNull [("operand", wrapWeak e)]
      repeatSince start
      let (nullRank, otherRank) := nullRanks nulls
      return [s!"CASE WHEN {isNull} THEN {nullRank} ELSE {otherRank} END", e ++ direction]

/-- An item of an ordering. -/
def orderItem (o : OrderBy) : Compile (List String) := do
  let start ← mark
  let e ← r.text o.expr
  placeNulls start e (directionText o.direction) o.nulls

/-- The items of an ordering. -/
def ordering (items : List OrderBy) : Compile String :=
  return ", ".intercalate (← items.mapM r.orderItem).flatten

/-- A part of a window, unless it is empty. -/
def windowPart (key : Keyword) (isEmpty : Bool) (body : Compile String) : Compile (List String) := do
  if isEmpty then return []
  let word ← keyword key
  return [word ++ " " ++ (← body)]

/-- The inside of a window. -/
def windowSpec (spec : WindowSpec) : Compile String := do
  let partition ← windowPart .partitionBy spec.partitionBy.isEmpty (r.list spec.partitionBy)
  let order ← windowPart .orderBy spec.orderBy.isEmpty (r.ordering spec.orderBy)
  return " ".intercalate (partition ++ order)

/-- A window; a named one is written in place where windows cannot be named. -/
def windowRef (window : WindowRef) : Compile String :=
  match window with
  | .inline spec => return "(" ++ (← r.windowSpec spec) ++ ")"
  | .named name => do
    if ← has .namedWindows then quote name
    else
      match findWindow? (← get).scopes name with
      | some spec => return "(" ++ (← r.windowSpec spec) ++ ")"
      | none => fail (.ofCause (.notFound name "window"))

def windowed (e : Expr) (window : WindowRef) : Compile Fragment := do
  let e ← r.operand e true atomStrength .both
  let window ← r.windowRef window
  return .atom (← keyword .windowed [("expr", e.text), ("window", window)])

end Renderer

end QueryPlan
