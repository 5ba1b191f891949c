import QueryPlan.Json.Printer
import QueryPlan.Plan.Basic

/-!
# The texts of a plan that are printed

A compiled statement is put together from the wording of its dialect and from texts that the plan
brings along: names, labels, function names, raw text, names of types, and the texts of constants
that are written in place. `Statement.texts` collects them, so that "no text of the plan contains
such a character" is `∀ t ∈ s.texts inPlace, …`.

* What is never printed is not collected: names of parameters, declared types and declared columns.
* Constants count only where they are written in place (`inPlace`); as parameters they are not part
  of the text.
-/

namespace QueryPlan

/-! ## 1. Constants, types and tables -/

/-- The texts of a type that are printed. -/
def DataType.texts : DataType → List String
  | .array element => element.texts
  | .custom name => [name]
  | _ => []

mutual

/-- The texts of a constant that is written in place. -/
def Value.texts : Value → List String
  | .decimal digits => [digits]
  | .text s => [s]
  | .json j => [j.render]
  | .object fields => [(Value.object fields).toJson.render]
  | .array items => valueTexts items
  | _ => []

def valueTexts : List Value → List String
  | [] => []
  | v :: rest => v.texts ++ valueTexts rest

end

def Table.texts (t : Table) : List String :=
  t.schema.toList ++ [t.name, t.label]

/-! ## 2. Expressions and statements -/

section

variable (inPlace : Bool)

mutual

/-- The texts of an expression that are printed. -/
def Expr.texts : Expr → List String
  | .constant value _ => if inPlace then value.texts else []
  | .field source name _ => [source, name]
  | .param _ _ => []
  | .function name args _ => name :: exprTexts args
  | .aggregate _ _ arg filter => optionTexts arg ++ optionTexts filter
  | .unary _ operand => operand.texts
  | .binary _ left right => left.texts ++ right.texts
  | .unaryPredicate _ operand => operand.texts
  | .binaryPredicate _ left right => left.texts ++ right.texts
  | .conditions _ operands => exprTexts operands
  | .not operand => operand.texts
  | .case subject arms otherwise =>
    optionTexts subject ++ armTexts arms ++ optionTexts otherwise
  | .cast type operand => type.texts ++ operand.texts
  | .between value low high _ => value.texts ++ low.texts ++ high.texts
  | .member value list _ => value.texts ++ list.texts
  | .rowsExist query _ => query.texts
  | .row elements => exprTexts elements
  | .raw sql => [sql]
  | .default => []
  | .query statement => statement.texts
  | .windowed expr window => expr.texts ++ window.texts
  | .excluded column => [column]

def exprTexts : List Expr → List String
  | [] => []
  | e :: rest => e.texts ++ exprTexts rest

def rowTexts : List (List Expr) → List String
  | [] => []
  | row :: rest => exprTexts row ++ rowTexts rest

def optionTexts : Option Expr → List String
  | none => []
  | some e => e.texts

def armTexts : List (Expr × Expr) → List String
  | [] => []
  | (condition, result) :: rest => condition.texts ++ result.texts ++ armTexts rest

def Members.texts : Members → List String
  | .exprs list => exprTexts list
  | .query statement => statement.texts

def WindowRef.texts : WindowRef → List String
  | .named name => [name]
  | .inline spec => spec.texts

def WindowSpec.texts : WindowSpec → List String
  | ⟨partitionBy, orderBy⟩ => exprTexts partitionBy ++ orderTexts orderBy

def OrderBy.texts : OrderBy → List String
  | ⟨expr, _, _⟩ => expr.texts

def orderTexts : List OrderBy → List String
  | [] => []
  | o :: rest => o.texts ++ orderTexts rest

def Source.texts : Source → List String
  | .table table => table.texts
  | .derived label statement => label :: statement.texts
  | .values label columns rows => label :: columns ++ rowTexts rows
  | .join _ source condition => source.texts ++ optionTexts condition

def sourceTexts : List Source → List String
  | [] => []
  | s :: rest => s.texts ++ sourceTexts rest

def Projection.texts : Projection → List String
  | ⟨label, expr⟩ => label :: expr.texts

def projectionTexts : List Projection → List String
  | [] => []
  | p :: rest => p.texts ++ projectionTexts rest

def NamedWindow.texts : NamedWindow → List String
  | ⟨name, spec⟩ => name :: spec.texts

def windowTexts : List NamedWindow → List String
  | [] => []
  | w :: rest => w.texts ++ windowTexts rest

def Distinct.texts : Distinct → List String
  | .all => []
  | .on exprs => exprTexts exprs

def distinctTexts : Option Distinct → List String
  | none => []
  | some d => d.texts

def Cte.texts : Cte → List String
  | ⟨label, statement, _⟩ => label :: statement.texts

def cteTexts : List Cte → List String
  | [] => []
  | c :: rest => c.texts ++ cteTexts rest

def Select.texts : Select → List String
  | ⟨ctes, distinct, projection, sources, predicates, groupBy, having, windows, orderBy, _, _, _⟩ =>
    cteTexts ctes ++ distinctTexts distinct ++ projectionTexts projection ++
      sourceTexts sources ++ exprTexts predicates ++ exprTexts groupBy ++ optionTexts having ++
      windowTexts windows ++ orderTexts orderBy

def SetOperation.texts : SetOperation → List String
  | ⟨ctes, first, rest, orderBy, _, _, _⟩ =>
    cteTexts ctes ++ first.texts ++ branchTexts rest ++ orderTexts orderBy

def branchTexts : List (SetOperator × Statement) → List String
  | [] => []
  | (_, statement) :: rest => statement.texts ++ branchTexts rest

def Assignment.texts : Assignment → List String
  | ⟨column, value⟩ => column :: value.texts

def assignmentTexts : List Assignment → List String
  | [] => []
  | a :: rest => a.texts ++ assignmentTexts rest

def InsertSource.texts : InsertSource → List String
  | .values rows => rowTexts rows
  | .query statement => statement.texts
  | .defaultValues => []

def ConflictAction.texts : ConflictAction → List String
  | .doNothing => []
  | .doUpdate assignments => assignmentTexts assignments

def OnConflict.texts : OnConflict → List String
  | ⟨target, action⟩ => target ++ action.texts

def conflictTexts : Option OnConflict → List String
  | none => []
  | some c => c.texts

def Insert.texts : Insert → List String
  | ⟨ctes, table, columns, source, onConflict, _, _, returning, _⟩ =>
    cteTexts ctes ++ table.texts ++ columns ++ source.texts ++ conflictTexts onConflict ++
      projectionTexts returning

def Update.texts : Update → List String
  | ⟨ctes, table, assignments, sources, predicates, orderBy, _, returning, _⟩ =>
    cteTexts ctes ++ table.texts ++ assignmentTexts assignments ++ sourceTexts sources ++
      exprTexts predicates ++ orderTexts orderBy ++ projectionTexts returning

def Delete.texts : Delete → List String
  | ⟨ctes, table, sources, predicates, orderBy, _, returning, _⟩ =>
    cteTexts ctes ++ table.texts ++ sourceTexts sources ++ exprTexts predicates ++
      orderTexts orderBy ++ projectionTexts returning

/-- The texts of a statement that are printed. -/
def Statement.texts : Statement → List String
  | .select query => query.texts
  | .insert change => change.texts
  | .update change => change.texts
  | .delete change => change.texts
  | .setOp query => query.texts

end

end

end QueryPlan
