import QueryPlan.Dialect.Basic
import QueryPlan.Plan.Basic

/-!
# Scopes

While a statement is compiled, a scope says what its expressions can see: the sources with their
columns as far as they are known, the names that its projection gives, and its windows. Scopes form
a stack, innermost first, and so do the frames of common table expressions.

The scope decides how a column is referred to. A column can stand without its qualifier if its
scope has one source only, or if the columns of all sources are known and just one source has a
column of that name, once.
-/

namespace QueryPlan

/-- The columns of the common table expressions of one statement, as far as they are known. -/
abbrev Frame := List (String × Option (List String))

/-- What the expressions of a statement can see. -/
structure Scope where
  /-- The label of each source, with its columns if they are known. -/
  sources : List (String × Option (List String))
  /-- What is printed in place of a label. -/
  printedAs : List (String × String)
  /-- Names of the projection that would capture an unqualified column where they are visible. -/
  shadowing : List String
  /-- Whether the names of the projection are visible. -/
  postProjection : Bool
  /-- Whether every column keeps its qualifier. -/
  forceQualified : Bool
  windows : List NamedWindow

/-- The columns that the innermost common table expression of a name has. -/
def findCte (frames : List Frame) (name : String) : Option (List String) :=
  (frames.findSome? fun frame => Fields.get? frame name).join

/-- The columns of a source, as far as they are known. A table that declares none may be a common
    table expression. -/
def knownColumns (frames : List Frame) : Source → Option (List String)
  | .table t =>
    if t.columns.isEmpty then findCte frames t.name else some (t.columns.map Column.name)
  | source => source.exposedColumns?

/-- Whether a projection is a column under its own name. -/
def Projection.isOwnName (p : Projection) : Bool :=
  match p.expr with
  | .field _ name _ => name == p.label
  | _ => false

namespace Scope

/-- The scope of a statement that reads some sources. -/
def ofSources (frames : List Frame) (sources : List Source) (projection : List Projection) :
    Scope :=
  { sources := sources.map fun s => (s.label, knownColumns frames s)
    printedAs := []
    shadowing := (projection.filter fun p => !p.isOwnName).map Projection.label
    postProjection := false
    forceQualified := false
    windows := [] }

def labels (s : Scope) : List String :=
  s.sources.map Prod.fst

def hasLabel (s : Scope) (label : String) : Bool :=
  s.labels.contains label

/-- Whether the columns of all sources are known. -/
def allKnown (s : Scope) : Bool :=
  s.sources.all fun (_, columns) => columns.isSome

/-- The labels of the sources that have a column, one for each time that they have it. -/
def owners (s : Scope) (name : String) : List String :=
  s.sources.flatMap fun (label, columns) =>
    ((columns.getD []).filter (· == name)).map fun _ => label

/-- Whether a column can stand without its qualifier. -/
def canSimplify (s : Scope) (simplify : Bool) (label name : String) : Bool :=
  simplify && !s.forceQualified && !(s.postProjection && s.shadowing.contains name) &&
    (s.sources.length == 1 || (s.allKnown && s.owners name == [label]))

/-- What is printed for a label. -/
def printed (s : Scope) (d : Dialect) (label : String) : String :=
  (Fields.get? s.printedAs label).getD (d.quoteIdent label)

end Scope

/-- The qualifier of a column, or nothing if the column can stand without one. A column of an outer
    scope keeps its qualifier, and so does one that no scope knows. -/
def qualifier? (d : Dialect) (simplify : Bool) (scopes : List Scope) (label name : String) :
    Option String :=
  match scopes with
  | [] => some (d.quoteIdent label)
  | scope :: _ =>
    if scope.hasLabel label then
      if scope.canSimplify simplify label name then none else some (scope.printed d label)
    else
      match scopes.find? fun s => s.hasLabel label with
      | some outer => some (outer.printed d label)
      | none => some (d.quoteIdent label)

/-- The window of a name in the innermost scope that has one. -/
def findWindow? (scopes : List Scope) (name : String) : Option WindowSpec :=
  ((scopes.flatMap Scope.windows).find? fun w => w.name == name).map NamedWindow.spec

end QueryPlan
