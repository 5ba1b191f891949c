import QueryPlan.Plan.Basic

/-!
# Building plans

Functions that put plans together step by step. Each takes the plan so far and gives back the plan
with one thing more, so that they chain: `Select.empty.readFrom t |>.filter p`.
-/

namespace QueryPlan

/-! ## 1. Expressions -/

namespace Expr

/-- A constant without a declared type. -/
def ofValue (value : Value) : Expr := .constant value none

def typedConstant (value : Value) (type : DataType) : Expr := .constant value (some type)

def null : Expr := ofValue .null

/-- A column of a source. -/
def fieldOf (source name : String) : Expr := .field source name none

/-- A column that the database has to find. -/
def column (name : String) : Expr := fieldOf "" name

def parameter (name : String) : Expr := .param name none

def typedParameter (name : String) (type : DataType) : Expr := .param name (some type)

def call (name : String) (args : List Expr) : Expr := .function name args none

def countRows : Expr := .aggregate .count false none none

def aggregateOf (kind : AggregateKind) (arg : Expr) : Expr := .aggregate kind false (some arg) none

/-- The conditions that all have to hold. -/
def all (operands : List Expr) : Expr := .conditions .and operands

/-- The conditions of which one has to hold. -/
def any (operands : List Expr) : Expr := .conditions .or operands

def caseWhen (arms : List (Expr × Expr)) (otherwise : Option Expr) : Expr :=
  .case none arms otherwise

def caseOf (subject : Expr) (arms : List (Expr × Expr)) (otherwise : Option Expr) : Expr :=
  .case (some subject) arms otherwise

def and (left right : Expr) : Expr := all [left, right]

def or (left right : Expr) : Expr := any [left, right]

def within (value low high : Expr) : Expr := .between value low high false

def inList (value : Expr) (list : List Expr) : Expr := .member value (.exprs list) false

def notInList (value : Expr) (list : List Expr) : Expr := .member value (.exprs list) true

def inQuery (value : Expr) (query : Statement) : Expr := .member value (.query query) false

/-- An aggregate over different values only; any other expression stays as it is. -/
def distinct : Expr → Expr
  | .aggregate kind _ arg filter => .aggregate kind true arg filter
  | e => e

/-- An aggregate over the rows that fulfil a condition; any other expression stays as it is. -/
def filter (e condition : Expr) : Expr :=
  match e with
  | .aggregate kind distinct arg _ => .aggregate kind distinct arg (some condition)
  | e => e

/-- Declares the type of an expression that carries one; any other expression stays as it is. -/
def withType (e : Expr) (type : DataType) : Expr :=
  match e with
  | .constant value _ => .constant value (some type)
  | .field source name _ => .field source name (some type)
  | .param name _ => .param name (some type)
  | .function name args _ => .function name args (some type)
  | e => e

def overNamed (e : Expr) (window : String) : Expr := .windowed e (.named window)

def overSpec (e : Expr) (spec : WindowSpec) : Expr := .windowed e (.inline spec)

def asc (e : Expr) : OrderBy := ⟨e, .asc, none⟩

def desc (e : Expr) : OrderBy := ⟨e, .desc, none⟩

end Expr

/-! ## 2. Orderings and windows -/

namespace OrderBy

def nullsFirst (o : OrderBy) : OrderBy := { o with nulls := some .first }

def nullsLast (o : OrderBy) : OrderBy := { o with nulls := some .last }

end OrderBy

namespace WindowSpec

def empty : WindowSpec := ⟨[], []⟩

def partition (w : WindowSpec) (e : Expr) : WindowSpec :=
  { w with partitionBy := w.partitionBy ++ [e] }

def order (w : WindowSpec) (o : OrderBy) : WindowSpec :=
  { w with orderBy := w.orderBy ++ [o] }

end WindowSpec

/-! ## 3. Tables and sources -/

namespace Table

/-- A table under its own name, whose columns are not known. -/
def ofName (name : String) : Table := ⟨none, name, name, []⟩

def withLabel (t : Table) (label : String) : Table := { t with label }

def withSchema (t : Table) (schema : String) : Table := { t with schema := some schema }

def withColumn (t : Table) (name : String) (type : Option DataType) : Table :=
  { t with columns := t.columns ++ [⟨name, type⟩] }

end Table

/-! ## 4. Queries -/

namespace Select

/-- A query of nothing. -/
def empty : Select :=
  { ctes := []
    distinct := none
    projection := []
    sources := []
    predicates := []
    groupBy := []
    having := none
    windows := []
    orderBy := []
    limit := none
    offset := none
    shape := .rows }

def withCte (s : Select) (label : String) (statement : Statement) : Select :=
  { s with ctes := s.ctes ++ [⟨label, statement, false⟩] }

def withRecursive (s : Select) (label : String) (statement : Statement) : Select :=
  { s with ctes := s.ctes ++ [⟨label, statement, true⟩] }

def readFrom (s : Select) (source : Source) : Select :=
  { s with sources := s.sources ++ [source] }

def join (s : Select) (kind : JoinKind) (source : Source) (condition : Option Expr) : Select :=
  s.readFrom (.join kind source condition)

def project (s : Select) (label : String) (e : Expr) : Select :=
  { s with projection := s.projection ++ [⟨label, e⟩] }

/-- Projects expressions under the names that they imply, or else under a number. -/
def projectAll (s : Select) (exprs : List Expr) : Select :=
  exprs.foldl (fun s e => s.project (e.impliedLabel?.getD s!"_{s.projection.length}") e) s

def filter (s : Select) (condition : Expr) : Select :=
  { s with predicates := s.predicates ++ [condition] }

def groupOn (s : Select) (e : Expr) : Select :=
  { s with groupBy := s.groupBy ++ [e] }

/-- Adds a condition on groups to those that have to hold already. -/
def filterGroups (s : Select) (condition : Expr) : Select :=
  { s with
    having := some (match s.having with
      | some old => old.and condition
      | none => condition) }

def declareWindow (s : Select) (name : String) (spec : WindowSpec) : Select :=
  { s with windows := s.windows ++ [⟨name, spec⟩] }

def order (s : Select) (o : OrderBy) : Select :=
  { s with orderBy := s.orderBy ++ [o] }

def withLimit (s : Select) (n : UInt64) : Select := { s with limit := some n }

def withOffset (s : Select) (n : UInt64) : Select := { s with offset := some n }

def distinctRows (s : Select) : Select := { s with distinct := some .all }

def distinctOn (s : Select) (exprs : List Expr) : Select := { s with distinct := some (.on exprs) }

def withShape (s : Select) (shape : Shape) : Select := { s with shape }

end Select

namespace SetOperation

def ofFirst (first : Statement) : SetOperation :=
  { ctes := []
    first
    rest := []
    orderBy := []
    limit := none
    offset := none
    shape := .rows }

def combine (s : SetOperation) (op : SetOperator) (other : Statement) : SetOperation :=
  { s with rest := s.rest ++ [(op, other)] }

def withCte (s : SetOperation) (label : String) (statement : Statement) : SetOperation :=
  { s with ctes := s.ctes ++ [⟨label, statement, false⟩] }

def order (s : SetOperation) (o : OrderBy) : SetOperation :=
  { s with orderBy := s.orderBy ++ [o] }

def withLimit (s : SetOperation) (n : UInt64) : SetOperation := { s with limit := some n }

def withOffset (s : SetOperation) (n : UInt64) : SetOperation := { s with offset := some n }

def withShape (s : SetOperation) (shape : Shape) : SetOperation := { s with shape }

end SetOperation

/-! ## 5. Changes -/

/-- Projections of columns of a table under their own names. -/
def Table.projections (t : Table) (columns : List String) : List Projection :=
  columns.map fun name => ⟨name, t.col name⟩

namespace Insert

def into (table : Table) : Insert :=
  { ctes := []
    table
    columns := []
    source := .values []
    onConflict := none
    ignore := false
    priority := none
    returning := []
    shape := .rows }

def withCte (s : Insert) (label : String) (statement : Statement) : Insert :=
  { s with ctes := s.ctes ++ [⟨label, statement, false⟩] }

def withColumns (s : Insert) (columns : List String) : Insert := { s with columns }

/-- Adds a row to those given in place; any other source of rows is dropped. -/
def addRow (s : Insert) (row : List Expr) : Insert :=
  match s.source with
  | .values rows => { s with source := .values (rows ++ [row]) }
  | _ => { s with source := .values [row] }

def fromQuery (s : Insert) (statement : Statement) : Insert := { s with source := .query statement }

def defaultRow (s : Insert) : Insert := { s with source := .defaultValues }

def onConflictDoNothing (s : Insert) (target : List String) : Insert :=
  { s with onConflict := some ⟨target, .doNothing⟩ }

def onConflictDoUpdate (s : Insert) (target : List String) (assignments : List (String × Expr)) :
    Insert :=
  let assignments := assignments.map fun (column, value) => ⟨column, value⟩
  { s with onConflict := some ⟨target, .doUpdate assignments⟩ }

def ignoring (s : Insert) : Insert := { s with ignore := true }

def withPriority (s : Insert) (priority : InsertPriority) : Insert :=
  { s with priority := some priority }

def returnExpr (s : Insert) (label : String) (e : Expr) : Insert :=
  { s with returning := s.returning ++ [⟨label, e⟩] }

def returnColumns (s : Insert) (columns : List String) : Insert :=
  { s with returning := s.returning ++ s.table.projections columns }

def withShape (s : Insert) (shape : Shape) : Insert := { s with shape }

end Insert

namespace Update

def of (table : Table) : Update :=
  { ctes := []
    table
    assignments := []
    sources := []
    predicates := []
    orderBy := []
    limit := none
    returning := []
    shape := .rows }

def withCte (s : Update) (label : String) (statement : Statement) : Update :=
  { s with ctes := s.ctes ++ [⟨label, statement, false⟩] }

def assign (s : Update) (column : String) (value : Expr) : Update :=
  { s with assignments := s.assignments ++ [⟨column, value⟩] }

def readFrom (s : Update) (source : Source) : Update :=
  { s with sources := s.sources ++ [source] }

def filter (s : Update) (condition : Expr) : Update :=
  { s with predicates := s.predicates ++ [condition] }

def order (s : Update) (o : OrderBy) : Update :=
  { s with orderBy := s.orderBy ++ [o] }

def withLimit (s : Update) (n : UInt64) : Update := { s with limit := some n }

def returnExpr (s : Update) (label : String) (e : Expr) : Update :=
  { s with returning := s.returning ++ [⟨label, e⟩] }

def returnColumns (s : Update) (columns : List String) : Update :=
  { s with returning := s.returning ++ s.table.projections columns }

end Update

namespace Delete

def of (table : Table) : Delete :=
  { ctes := []
    table
    sources := []
    predicates := []
    orderBy := []
    limit := none
    returning := []
    shape := .rows }

def withCte (s : Delete) (label : String) (statement : Statement) : Delete :=
  { s with ctes := s.ctes ++ [⟨label, statement, false⟩] }

def readFrom (s : Delete) (source : Source) : Delete :=
  { s with sources := s.sources ++ [source] }

def filter (s : Delete) (condition : Expr) : Delete :=
  { s with predicates := s.predicates ++ [condition] }

def order (s : Delete) (o : OrderBy) : Delete :=
  { s with orderBy := s.orderBy ++ [o] }

def withLimit (s : Delete) (n : UInt64) : Delete := { s with limit := some n }

def returnExpr (s : Delete) (label : String) (e : Expr) : Delete :=
  { s with returning := s.returning ++ [⟨label, e⟩] }

def returnColumns (s : Delete) (columns : List String) : Delete :=
  { s with returning := s.returning ++ s.table.projections columns }

end Delete

end QueryPlan
