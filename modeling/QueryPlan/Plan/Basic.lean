import QueryPlan.Plan.Operator
import QueryPlan.Value.Basic

/-!
# Plans

A plan is a `Statement`: a query, a change of a table, or a combination of queries. It is made of
expressions (`Expr`), which may again hold statements, and reads from sources (`Source`): tables,
derived tables, rows given in place, and joins.

The types refer to each other and are declared together, from expressions to statements.
-/

namespace QueryPlan

/-- A column of a table, with its type if it is known. -/
structure Column where
  name : String
  type : Option DataType
  deriving DecidableEq

/-- A table under a label. A table without columns is one whose columns are not known. -/
structure Table where
  schema : Option String
  name : String
  label : String
  columns : List Column
  deriving DecidableEq

mutual

/-- An expression. -/
inductive Expr where
  | constant (value : Value) (type : Option DataType)
  /-- A column of the source with a label; without a label it is left to the database. -/
  | field (source name : String) (type : Option DataType)
  | param (name : String) (type : Option DataType)
  | function (name : String) (args : List Expr) (type : Option DataType)
  /-- An aggregate; without an argument it counts rows. -/
  | aggregate (kind : AggregateKind) (distinct : Bool) (arg filter : Option Expr)
  | unary (op : UnaryOperator) (operand : Expr)
  | binary (op : BinaryOperator) (left right : Expr)
  | unaryPredicate (op : UnaryPredicate) (operand : Expr)
  | binaryPredicate (op : BinaryPredicate) (left right : Expr)
  | conditions (op : Conjunction) (operands : List Expr)
  | not (operand : Expr)
  | case (subject : Option Expr) (arms : List (Expr × Expr)) (otherwise : Option Expr)
  | cast (type : DataType) (operand : Expr)
  | between (value low high : Expr) (negated : Bool)
  | member (value : Expr) (list : Members) (negated : Bool)
  /-- Whether a query has rows. -/
  | rowsExist (query : Statement) (negated : Bool)
  | row (elements : List Expr)
  /-- Text that is copied as it is. -/
  | raw (sql : String)
  | default
  | query (statement : Statement)
  | windowed (expr : Expr) (window : WindowRef)
  /-- The value that an insert proposed for a column, in its conflict clause. -/
  | excluded (column : String)

/-- What a membership test searches. -/
inductive Members where
  | exprs (list : List Expr)
  | query (statement : Statement)

/-- A window: the name of one that the query declares, or one given in place. -/
inductive WindowRef where
  | named (name : String)
  | inline (spec : WindowSpec)

structure WindowSpec where
  partitionBy : List Expr
  orderBy : List OrderBy

structure OrderBy where
  expr : Expr
  direction : Direction
  nulls : Option Nulls

/-- What a statement reads from. -/
inductive Source where
  | table (table : Table)
  | derived (label : String) (statement : Statement)
  | values (label : String) (columns : List String) (rows : List (List Expr))
  | join (kind : JoinKind) (source : Source) (condition : Option Expr)

/-- A column of a result. -/
structure Projection where
  label : String
  expr : Expr

/-- A window that a query declares. -/
structure NamedWindow where
  name : String
  spec : WindowSpec

inductive Distinct where
  | all
  | on (exprs : List Expr)

/-- A common table expression. -/
structure Cte where
  label : String
  statement : Statement
  recursive : Bool

structure Select where
  ctes : List Cte
  distinct : Option Distinct
  projection : List Projection
  sources : List Source
  predicates : List Expr
  groupBy : List Expr
  having : Option Expr
  windows : List NamedWindow
  orderBy : List OrderBy
  limit : Option UInt64
  offset : Option UInt64
  shape : Shape

/-- Queries combined from left to right. -/
structure SetOperation where
  ctes : List Cte
  first : Statement
  rest : List (SetOperator × Statement)
  orderBy : List OrderBy
  limit : Option UInt64
  offset : Option UInt64
  shape : Shape

structure Assignment where
  column : String
  value : Expr

inductive InsertSource where
  | values (rows : List (List Expr))
  | query (statement : Statement)
  | defaultValues

inductive ConflictAction where
  | doNothing
  | doUpdate (assignments : List Assignment)

structure OnConflict where
  target : List String
  action : ConflictAction

structure Insert where
  ctes : List Cte
  table : Table
  columns : List String
  source : InsertSource
  onConflict : Option OnConflict
  ignore : Bool
  priority : Option InsertPriority
  returning : List Projection
  shape : Shape

structure Update where
  ctes : List Cte
  table : Table
  assignments : List Assignment
  sources : List Source
  predicates : List Expr
  orderBy : List OrderBy
  limit : Option UInt64
  returning : List Projection
  shape : Shape

structure Delete where
  ctes : List Cte
  table : Table
  sources : List Source
  predicates : List Expr
  orderBy : List OrderBy
  limit : Option UInt64
  returning : List Projection
  shape : Shape

inductive Statement where
  | select (query : Select)
  | insert (change : Insert)
  | update (change : Update)
  | delete (change : Delete)
  | setOp (query : SetOperation)

end

instance : Inhabited Expr := ⟨.default⟩

/-! ## 1. Expressions -/

namespace Expr

/-- The type that an expression is declared with. -/
def type? : Expr → Option DataType
  | constant _ type => type
  | field _ _ type => type
  | param _ type => type
  | function _ _ type => type
  | cast type _ => some type
  | windowed expr _ => expr.type?
  | _ => none

/-- The name that a column takes from its expression. -/
def impliedLabel? : Expr → Option String
  | field _ name _ => some name
  | _ => none

end Expr

/-! ## 2. Tables and sources -/

namespace Table

/-- The reference to a column, with the type that the table declares for it. -/
def col (t : Table) (name : String) : Expr :=
  .field t.label name ((t.columns.find? fun c => c.name == name).bind Column.type)

/-- References to all columns. -/
def allColumns (t : Table) : List Expr :=
  t.columns.map fun c => t.col c.name

end Table

/-! ## 3. Statements -/

namespace Statement

/-- The word for a statement in messages. -/
def kindName : Statement → String
  | select _ => "select"
  | insert _ => "insert"
  | update _ => "update"
  | delete _ => "delete"
  | setOp _ => "set operation"

def shape : Statement → Shape
  | select s => s.shape
  | insert s => s.shape
  | update s => s.shape
  | delete s => s.shape
  | setOp s => s.shape

def withShape (shape : Shape) : Statement → Statement
  | select s => select { s with shape }
  | insert s => insert { s with shape }
  | update s => update { s with shape }
  | delete s => delete { s with shape }
  | setOp s => setOp { s with shape }

/-- The columns of the result. Those of a combination are those of its first query. -/
def projection : Statement → List Projection
  | select s => s.projection
  | insert s => s.returning
  | update s => s.returning
  | delete s => s.returning
  | setOp ⟨_, first, _, _, _, _, _⟩ => first.projection

def ctes : Statement → List Cte
  | select s => s.ctes
  | insert s => s.ctes
  | update s => s.ctes
  | delete s => s.ctes
  | setOp s => s.ctes

/-- Whether a statement changes a table. -/
def isMutation : Statement → Bool
  | insert _ => true
  | update _ => true
  | delete _ => true
  | _ => false

def orderBy : Statement → List OrderBy
  | select s => s.orderBy
  | update s => s.orderBy
  | delete s => s.orderBy
  | setOp s => s.orderBy
  | insert _ => []

def limit? : Statement → Option UInt64
  | select s => s.limit
  | update s => s.limit
  | delete s => s.limit
  | setOp s => s.limit
  | insert _ => none

def offset? : Statement → Option UInt64
  | select s => s.offset
  | setOp s => s.offset
  | _ => none

end Statement

/-- The queries that are combined. -/
def SetOperation.branches (s : SetOperation) : List Statement :=
  s.first :: s.rest.map Prod.snd

namespace Source

def label : Source → String
  | table t => t.label
  | derived label _ => label
  | values label _ _ => label
  | join _ source _ => source.label

/-- The names of the columns that a source has, if they are known. -/
def exposedColumns? : Source → Option (List String)
  | table t => if t.columns.isEmpty then none else some (t.columns.map Column.name)
  | derived _ statement =>
    let columns := statement.projection.map Projection.label
    if columns.isEmpty then none else some columns
  | values _ columns _ => some columns
  | join _ source _ => source.exposedColumns?

/-- The reference to a column of a source. -/
def col (s : Source) (name : String) : Expr :=
  match s with
  | table t => t.col name
  | join _ source _ => source.col name
  | derived label _ => .field label name none
  | values label _ _ => .field label name none

end Source

end QueryPlan
