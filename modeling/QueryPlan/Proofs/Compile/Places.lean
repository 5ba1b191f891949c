import Mathlib.Data.List.TakeDrop
import QueryPlan.Compile.Statement

/-!
# The phrases of a plan and the places where they are written

The compiler writes a plan phrase by phrase: an expression asks for the expressions and statements
in it, a statement for those of its clauses. What a phrase means depends on the place where it is
written. This module says which phrases are asked for, and in which places.

* A `Phrase` is an expression or a statement.
* A `Place` names the statements around a phrase: for each scope the statement that has opened it
  (`Opened`), and for each frame the list of common table expressions that it stands for, up to the
  place (`Level`). `Place.Fits` says that the state of a compilation is as its place says.
* `Asks` relates a phrase in its place to the phrases that it asks for in theirs; `Reaches` collects
  all that the compilation of a statement comes to.

Nothing here depends on texts and parameters, nor on what the dialect can say, except that windows
are written in place where they cannot be named.
-/

namespace QueryPlan

/-! ## 1. Phrases -/

/-- What a renderer is asked to write. -/
inductive Phrase where
  | expr (e : Expr)
  | statement (s : Statement)

def exprPhrases (es : List Expr) : List Phrase :=
  es.map .expr

def orderPhrases (items : List OrderBy) : List Phrase :=
  items.map fun o => .expr o.expr

def WindowSpec.phrases (spec : WindowSpec) : List Phrase :=
  exprPhrases spec.partitionBy ++ orderPhrases spec.orderBy

def WindowRef.phrases : WindowRef → List Phrase
  | .named _ => []
  | .inline spec => spec.phrases

def Members.phrases : Members → List Phrase
  | .exprs es => exprPhrases es
  | .query s => [.statement s]

/-- The phrases of an expression. Those of a named window are not among them. -/
def Expr.phrases : Expr → List Phrase
  | .function _ args _ => exprPhrases args
  | .aggregate _ _ arg filter => exprPhrases arg.toList ++ exprPhrases filter.toList
  | .unary _ operand => [.expr operand]
  | .binary _ left right => [.expr left, .expr right]
  | .unaryPredicate _ operand => [.expr operand]
  | .binaryPredicate _ left right => [.expr left, .expr right]
  | .conditions _ operands => exprPhrases operands
  | .not operand => [.expr operand]
  | .case subject arms otherwise =>
    exprPhrases subject.toList ++ exprPhrases (arms.map Prod.fst) ++ exprPhrases (arms.map Prod.snd) ++
      exprPhrases otherwise.toList
  | .cast _ operand => [.expr operand]
  | .between value low high _ => [.expr value, .expr low, .expr high]
  | .member value list _ => .expr value :: list.phrases
  | .rowsExist q _ => [.statement q]
  | .row elements => exprPhrases elements
  | .query s => [.statement s, .statement (limitToFirst s.shape s)]
  | .windowed e window => .expr e :: window.phrases
  | _ => []

def Source.phrases : Source → List Phrase
  | .table _ => []
  | .derived _ s => [.statement s]
  | .values _ _ rows => rows.flatMap exprPhrases
  | .join _ source condition => source.phrases ++ exprPhrases condition.toList

def sourcePhrases (sources : List Source) : List Phrase :=
  sources.flatMap Source.phrases

/-- The sources in front of the first join, and those from there on. -/
theorem splitSources_subset (list : List Source) :
    (splitSources list).1 ⊆ list ∧ (splitSources list).2 ⊆ list := by
  unfold splitSources
  rw [List.span_eq_takeWhile_dropWhile]
  exact ⟨(List.takeWhile_sublist _).subset, (List.dropWhile_sublist _).subset⟩

def projectionPhrases (list : List Projection) : List Phrase :=
  list.map fun p => .expr p.expr

def assignmentPhrases (list : List Assignment) : List Phrase :=
  list.map fun a => .expr a.value

def distinctPhrases : Option Distinct → List Phrase
  | some (.on es) => exprPhrases es
  | _ => []

def InsertSource.phrases : InsertSource → List Phrase
  | .values rows => rows.flatMap exprPhrases
  | .query s => [.statement s]
  | .defaultValues => []

def conflictPhrases : Option OnConflict → List Phrase
  | some ⟨_, .doUpdate list⟩ => assignmentPhrases list
  | _ => []

/-- Sources without the join in front, and the condition of that join. -/
def detached : List Source → List Source × List Expr
  | .join _ source condition :: rest => (source :: rest, condition.toList)
  | sources => (sources, [])

/-- The condition that the further sources of a change may become. -/
def existsPhrase (sources : List Source) (predicates : List Expr) : Phrase :=
  .expr (existsCondition (detached sources).1 ((detached sources).2 ++ predicates))

/-- The phrases of the clauses of a statement, which see its scope. -/
def Statement.clausePhrases : Statement → List Phrase
  | .select q =>
    distinctPhrases q.distinct ++ projectionPhrases q.projection ++ sourcePhrases q.sources ++
      exprPhrases q.predicates ++ exprPhrases q.groupBy ++ exprPhrases q.having.toList ++
      orderPhrases q.orderBy
  | .setOp q => orderPhrases q.orderBy
  | .insert i => i.source.phrases ++ conflictPhrases i.onConflict ++ projectionPhrases i.returning
  | .update u =>
    existsPhrase u.sources u.predicates :: assignmentPhrases u.assignments ++ sourcePhrases u.sources ++
      exprPhrases u.predicates ++ orderPhrases u.orderBy ++ projectionPhrases u.returning
  | .delete d =>
    existsPhrase d.sources d.predicates :: sourcePhrases d.sources ++ exprPhrases d.predicates ++
      orderPhrases d.orderBy ++ projectionPhrases d.returning

def Statement.windows : Statement → List NamedWindow
  | .select q => q.windows
  | _ => []

/-! ## 2. Places -/

/-- The columns of a common table expression, if they are known. -/
def Cte.columns? (c : Cte) : Option (List String) :=
  let columns := c.statement.projection.map Projection.label
  if columns.isEmpty then none else some columns

/-- A list of common table expressions as it is seen from a place: those in front of the place, and
    the one whose body the place is in, if it is in one. -/
structure Level where
  before : List Cte
  inside : Option Cte

/-- The common table expressions that have been noted when the place is written. -/
def Level.noted (l : Level) : List Cte :=
  l.before ++ l.inside.toList

/-- Notes a common table expression in a frame. -/
def Frame.note (f : Frame) (c : Cte) : Frame :=
  Fields.insert f c.label c.columns?

def Level.frame (l : Level) : Frame :=
  l.noted.foldl Frame.note []

/-- A table by its name, with its schema, as it is written. -/
def Dialect.tableName (d : Dialect) (t : Table) : String :=
  match t.schema with
  | some schema => d.quoteIdent schema ++ "." ++ d.quoteIdent t.name
  | none => d.quoteIdent t.name

/-- The table that a statement changes. -/
def Statement.target? : Statement → Option Table
  | .insert i => some i.table
  | .update u => some u.table
  | .delete d => some d.table
  | _ => none

/-- The sources that a statement brings into its scope, the target of a change in front. -/
def Statement.scopeSources : Statement → List Source
  | .select q => q.sources
  | .setOp _ => []
  | .insert i => [.table i.table]
  | .update u => .table u.table :: u.sources
  | .delete d => .table d.table :: d.sources

/-- The labels of a statement that would capture a column: none for a combination, whose columns
    are seen by their names only. -/
def Statement.scopeProjection : Statement → List Projection
  | .setOp _ => []
  | s => s.projection

/-- The scope that a statement opens for its clauses. -/
def Statement.scope (d : Dialect) (frames : List Frame) (s : Statement) : Scope :=
  { Scope.ofSources frames s.scopeSources s.scopeProjection with
    printedAs := s.target?.toList.map fun t => (t.label, d.tableName t)
    windows := s.windows }

/-- A statement that has opened its scope, with the levels around its clauses. -/
structure Opened where
  statement : Statement
  levels : List Level
  postProjection : Bool
  forceQualified : Bool

def Opened.frames (o : Opened) : List Frame :=
  o.levels.map Level.frame

def Opened.scope (d : Dialect) (o : Opened) : Scope :=
  { o.statement.scope d o.frames with
    postProjection := o.postProjection
    forceQualified := o.forceQualified }

/-- The labels of the sources that a statement has brought into its scope. -/
def Opened.labels (o : Opened) : List String :=
  o.statement.scopeSources.map Source.label

/-- The statements around a phrase. -/
structure Place where
  /-- Innermost first. -/
  opened : List Opened
  /-- Innermost first. -/
  levels : List Level

namespace Place

/-- Where a compilation starts. -/
def start : Place := ⟨[], []⟩

/-- Behind the list of common table expressions of a statement. -/
def behind (k : Place) (ctes : List Cte) : Place :=
  { k with levels := ⟨ctes, none⟩ :: k.levels }

/-- In the body of a common table expression. -/
def inBody (k : Place) (before : List Cte) (c : Cte) : Place :=
  { k with levels := ⟨before, some c⟩ :: k.levels }

/-- In a scope that a statement has opened behind its common table expressions. -/
def inClauses (k : Place) (s : Statement) (postProjection forceQualified : Bool) : Place :=
  { k.behind s.ctes with
    opened := ⟨s, (k.behind s.ctes).levels, postProjection, forceQualified⟩ :: k.opened }

def scopes (k : Place) (d : Dialect) : List Scope :=
  k.opened.map (Opened.scope d)

def frames (k : Place) : List Frame :=
  k.levels.map Level.frame

/-- The windows that have been declared around a phrase, innermost first. -/
def windows (k : Place) : List NamedWindow :=
  k.opened.flatMap fun o => o.statement.windows

/-- The window of a name that a phrase sees. -/
def window? (k : Place) (name : String) : Option WindowSpec :=
  (k.windows.find? fun w => w.name == name).map NamedWindow.spec

/-- A state that is as its place says. -/
structure Fits (k : Place) (d : Dialect) (c : Context) : Prop where
  scopes : c.scopes = k.scopes d
  frames : c.frames = k.frames

theorem fits_start (d : Dialect) (style : PlaceholderStyle) : start.Fits d (.start style) :=
  ⟨rfl, rfl⟩

/-- What a state says about windows is what its place says. -/
theorem findWindow?_scopes (k : Place) (d : Dialect) (name : String) :
    findWindow? (k.scopes d) name = k.window? name := by
  have hwindows : (k.scopes d).flatMap Scope.windows = k.windows := by
    rw [scopes, List.flatMap_map]
    rfl
  rw [findWindow?, hwindows, window?]

end Place

/-! ## 3. What is asked for -/

/-- A phrase in its place asks for a phrase in its own. -/
inductive Asks (σ : Setting) : Phrase → Place → Phrase → Place → Prop where
  | inner {e : Expr} {p : Phrase} {k : Place} (hp : p ∈ e.phrases) : Asks σ (.expr e) k p k
  /-- A named window, where it is written in place. -/
  | window {e : Expr} {name : String} {spec : WindowSpec} {p : Phrase} {k : Place}
      (hn : σ.dialect.has .namedWindows = false)
      (hw : k.window? name = some spec) (hp : p ∈ spec.phrases) :
      Asks σ (.expr (.windowed e (.named name))) k p k
  /-- A common table expression, which sees those in front of it and itself. -/
  | cte {s : Statement} {before after : List Cte} {c : Cte} {k : Place}
      (hs : s.ctes = before ++ c :: after) :
      Asks σ (.statement s) k (.statement c.statement) (k.inBody before c)
  /-- A branch, which is outside of the scope of the whole. -/
  | branch {q : SetOperation} {s : Statement} {k : Place} (hs : s ∈ q.branches) :
      Asks σ (.statement (.setOp q)) k (.statement s) (k.behind q.ctes)
  | clause {s : Statement} {p : Phrase} {k : Place} (hp : p ∈ s.clausePhrases) (post force : Bool) :
      Asks σ (.statement s) k p (k.inClauses s post force)
  /-- The definition of a window, where windows can be named. -/
  | definition {s : Statement} {w : NamedWindow} {p : Phrase} {k : Place}
      (hn : σ.dialect.has .namedWindows = true) (hw : w ∈ s.windows) (hp : p ∈ w.spec.phrases)
      (post force : Bool) : Asks σ (.statement s) k p (k.inClauses s post force)

/-- The phrases that the compilation of a statement comes to, with their places. -/
inductive Reaches (σ : Setting) (s : Statement) : Phrase → Place → Prop where
  | start : Reaches σ s (.statement s) .start
  | step {p p' : Phrase} {k k' : Place} (h : Reaches σ s p k) (ha : Asks σ p k p' k') :
      Reaches σ s p' k'

end QueryPlan
