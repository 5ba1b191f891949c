import QueryPlan.Compile.Query
import QueryPlan.Plan.Build

/-!
# Changes

Inserts, updates and deletes. Where a dialect lacks a form, another that means the same is taken:

* rows that are already there are skipped by a modifier of the insert or by a conflict clause;
* further sources of an update or delete stand in a clause of their own, are joined to the target,
  or become a sub-query of the condition;
* returned columns stand at the end, or are put out in front of the rows.
-/

namespace QueryPlan

/-! ## 1. Conflicts -/

/-- How an insert deals with rows that are already there. -/
inductive Upsert where
  /-- A conflict clause, which does nothing if there are no assignments. -/
  | onConflict (target : List String) (assignments : Option (List Assignment))
  | onDuplicateKey (assignments : List Assignment)

/-! ## 2. Further sources -/

/-- How the further sources of an update or delete are written. -/
inductive SourceStrategy where
  | none
  /-- In a clause of their own. -/
  | clause
  /-- Joined to the target. -/
  | multiTable
  /-- In a sub-query of the condition. -/
  | subquery
  deriving DecidableEq

/-- The condition that rows of some sources exist. What it says about the target of the change stays
    qualified, which ties the sub-query to the changed row. -/
def existsCondition (sources : List Source) (predicates : List Expr) : Expr :=
  .rowsExist
    (.select { Select.empty with sources, predicates, projection := [⟨"_one", .raw "1"⟩] }) false

/-! ## 3. Returned columns -/

/-- Where returned columns are written. -/
inductive Returning where
  /-- In a clause at the end. -/
  | clause
  /-- In an output clause that reads a pseudo table. -/
  | output (pseudo : Keyword)
  deriving DecidableEq

namespace Compile

/-- How an insert skips rows that are already there: by a modifier, or by a conflict clause. -/
def planIgnore (ignore : Bool) : Compile (Bool × Option Upsert) := do
  let onConflict ← has .onConflict
  let insertIgnore ← has .insertIgnore
  if !ignore then return (false, none)
  else if insertIgnore then return (true, none)
  else if onConflict then return (false, some (.onConflict [] none))
  else
    missing "INSERT IGNORE"
    return (false, none)

/-- The modifier of an insert that skips rows, and its conflict clause. -/
def planConflict (i : Insert) : Compile (Bool × Option Upsert) := do
  let onConflict ← has .onConflict
  let insertIgnore ← has .insertIgnore
  let ignoring ← planIgnore i.ignore
  match i.onConflict with
  | none => return ignoring
  | some ⟨target, .doNothing⟩ =>
    if onConflict then return (ignoring.1, some (.onConflict target none))
    else if insertIgnore then return (true, ignoring.2)
    else
      missing "upsert"
      return ignoring
  | some ⟨target, .doUpdate assignments⟩ =>
    if onConflict then return (ignoring.1, some (.onConflict target (some assignments)))
    else if ← has .upsertOnDuplicate then
      return (ignoring.1, some (.onDuplicateKey assignments))
    else
      missing "upsert"
      return ignoring

/-- How further sources are written. -/
def planSources (sources : List Source) (feature : Feature) (clause : Clause)
    (order : List Clause) : Compile SourceStrategy := do
  if sources.isEmpty then return .none
  else if (← has feature) && order.contains clause then return .clause
  else if ← has .multiTableMutation then return .multiTable
  else return .subquery

/-- The sources that a clause can start with: a join in front becomes a plain source, and its
    condition a predicate. -/
def detachJoin (sources : List Source) (strategy : SourceStrategy) :
    Compile (List Source × List Expr) := do
  match strategy, sources with
  | .none, _ | .multiTable, _ => return (sources, [])
  | _, .join kind source condition :: rest =>
    if kind ≠ .inner ∧ kind ≠ .cross then missing "outer join to the mutation target"
    return (source :: rest, condition.toList)
  | _, _ => return (sources, [])

/-- Where returned columns are written. If nowhere, this is noted, as the result of the statement is
    then the number of changed rows. -/
def planReturning (returning : List Projection) (order : List Clause) (pseudo : Keyword) :
    Compile (Option Returning) := do
  if returning.isEmpty then return none
  let canReturn ← has .returning
  if canReturn && order.contains .returning then return some .clause
  else if canReturn && order.contains .output then return some (.output pseudo)
  else
    missing "RETURNING"
    modify fun c => { c with droppedReturning := true }
    return none

/-- Column names in parentheses, or nothing if there are none. -/
def columnList (columns : List String) : Compile String := do
  if columns.isEmpty then return ""
  return " (" ++ ", ".intercalate (← columns.mapM quote) ++ ")"

/-- The priority of an insert. -/
def insertPriority (priority : Option InsertPriority) : Compile (List String) := do
  match priority with
  | none => return []
  | some priority =>
    if ← has .insertPriority then
      let key :=
        match priority with
        | .low => Keyword.lowPriority
        | .delayed => Keyword.delayed
        | .high => Keyword.highPriority
      return [← keyword key]
    else
      missing "INSERT priority"
      return []

/-- The modifier of an insert that skips rows. -/
def ignoreModifier (ignore : Bool) : Compile (List String) := do
  if ignore then return [← keyword .insertIgnore] else return []

/-- The modifiers of an insert. -/
def insertModifiers (priority : List String) (ignore : Bool) : Compile String := do
  let ignoring ← ignoreModifier ignore
  return String.join ((priority ++ ignoring).map (" " ++ ·))

/-- The scope of a change, in which its target is printed by its name. -/
def targetScope (target : Table) (sources : List Source) (returning : List Projection) :
    Compile Scope := do
  let name ← tableName target
  let scope ← scopeOf (.table target :: sources) returning
  return { scope with printedAs := [(target.label, name)] }

end Compile

namespace Renderer

open Compile

variable (r : Renderer)

/-! ## 4. Shared clauses -/

/-- Assignments, with the name of the target in front of each column if one is given. -/
def assignments (list : List Assignment) (target : Option String) : Compile String := do
  let items ← list.mapM fun a => do
    let column ← quote a.column
    let value ← r.text a.value
    return (match target with
      | some target => target ++ "."
      | none => "") ++ s!"{column} = {value}"
  return ", ".intercalate items

/-- Sources behind a keyword, with the joins at the end. -/
def sourceClause (key : Keyword) (list : List Source) : Compile (Option String) := do
  if list.isEmpty then return none
  let (plain, joins) := splitSources list
  let word ← keyword key
  let text := word ++ " " ++ (← r.sources plain)
  if joins.isEmpty then return some text else return some (text ++ " " ++ (← r.joins joins))

def filter (predicates : List Expr) : Compile (Option String) := do
  if predicates.isEmpty then return none
  headed .filter (r.predicates predicates)

/-- Returned columns, if the clause is the one that they stand in. -/
def returning (clause : Clause) (placement : Option Returning) (list : List Projection)
    (target : Table) : Compile (Option String) := do
  match clause, placement with
  | .returning, some .clause => headed .returning (r.projection list)
  | .output, some (.output pseudo) =>
    let pseudo ← keyword pseudo
    headed .output (inOutput target.label pseudo (r.projection list))
  | _, _ => return none

/-! ## 5. Inserts -/

/-- The rows of an insert. -/
def insertRows (table : Table) (columns : List String) (rows : List (List Expr)) :
    Compile String := do
  match rows with
  | [] => fail (.ofFault (.insertWithoutRows table.name))
  | first :: _ =>
    let width := if columns.isEmpty then first.length else columns.length
    let texts ← rows.mapM fun row => do
      if row.length ≠ width then fail (.ofFault (.insertRowWidth table.name width row.length))
      return "(" ++ (← r.list row) ++ ")"
    return (← keyword .values) ++ " " ++ ", ".intercalate texts

def insertSource (i : Insert) : Compile String :=
  match i.source with
  | .values rows => r.insertRows i.table i.columns rows
  | .query query => r.statement query
  | .defaultValues => keyword .defaultValues

/-- What a conflict clause does. In its assignments the old and the new row are both visible. -/
def conflictAction (assignments : Option (List Assignment)) : Compile String :=
  match assignments with
  | none => pure "DO NOTHING"
  | some list => return "DO UPDATE SET " ++ (← forceQualified (r.assignments list none))

/-- A conflict clause. -/
def upsert : Upsert → Compile String
  | .onConflict target assignments => do
    let target ← columnList target
    let action ← r.conflictAction assignments
    keyword .onConflict [("target", target), ("action", action)]
  | .onDuplicateKey list => do
    let list ← r.assignments list none
    keyword .onDuplicateKey [("assignments", list)]

/-- The clauses of an insert, in its scope. -/
def insertClauses (i : Insert) (ctes : Option String) : Compile String := do
  let order := (← dialect).insertOrder
  let priority ← insertPriority i.priority
  let (ignore, upsert) ← planConflict i
  let modifiers ← insertModifiers priority ignore
  let returning ← planReturning i.returning order .inserted
  checkClauses order [(.ctes, ctes.isSome), (.upsert, upsert.isSome)]
  inOrder order fun clause isFirst =>
    match clause with
    | .ctes => pure (once isFirst ctes)
    | .insert => do
      let columns ← columnList i.columns
      let table ← tableName i.table
      return some (← keyword .insert
        [("modifiers", modifiers), ("table", table), ("columns", columns)])
    | .values => return some (← r.insertSource i)
    | .upsert =>
      match upsert with
      | some upsert => return some (← r.upsert upsert)
      | none => pure none
    | clause => r.returning clause returning i.returning i.table

def insert (i : Insert) : Compile String := do
  let ctes ← r.ctes i.ctes
  inScope (← targetScope i.table [] i.returning) (r.insertClauses i ctes)

/-! ## 6. Updates -/

/-- The sources and the conditions of an update or delete, as they are written. -/
def changeParts (strategy : SourceStrategy) (sources : List Source) (predicates : List Expr) :
    Compile (List Source × List Expr) := do
  let (sources, detached) ← detachJoin sources strategy
  let predicates := detached ++ predicates
  if strategy = .subquery then return (sources, [existsCondition sources predicates])
  else return (sources, predicates)

/-- The target of an update or delete, with the further sources that are joined to it. -/
def joinedTarget (table : String) (strategy : SourceStrategy) (sources : List Source) :
    Compile String := do
  if strategy = .multiTable then return table ++ " " ++ (← r.joins sources) else return table

/-- The clauses of an update, in its scope. -/
def updateClauses (u : Update) (ctes : Option String) (strategy : SourceStrategy) :
    Compile String := do
  let order := (← dialect).updateOrder
  let (sources, predicates) ← changeParts strategy u.sources u.predicates
  let returning ← planReturning u.returning order .inserted
  let paging ← Compile.paging u.limit none (!u.orderBy.isEmpty) false
  checkClauses order
    [(.ctes, ctes.isSome), (.sources, strategy = .clause && !sources.isEmpty),
      (.filter, !predicates.isEmpty), (.orderBy, !u.orderBy.isEmpty),
      (.paging, paging.tail.isSome)]
  let table ← tableName u.table
  inOrder order fun clause isFirst =>
    match clause with
    | .ctes => pure (once isFirst ctes)
    | .update => do
      let target ← r.joinedTarget table strategy sources
      return some (← keyword .update [("table", target)])
    | .assign => do
      let target := if strategy = .multiTable then some table else none
      return some (← keyword .assign [("assignments", ← r.assignments u.assignments target)])
    | .sources => if strategy = .clause then r.sourceClause .sources sources else pure none
    | .filter => r.filter predicates
    | .orderBy => r.orderBy u.orderBy
    | .paging => pure (once isFirst paging.tail)
    | clause => r.returning clause returning u.returning u.table

def update (u : Update) : Compile String := do
  if u.assignments.isEmpty then fail (.ofFault (.updateWithoutAssignments u.table.name))
  let ctes ← r.ctes u.ctes
  let strategy ← planSources u.sources .updateFrom .sources (← dialect).updateOrder
  if strategy = .subquery then missing "UPDATE with additional sources"
  inScope (← targetScope u.table u.sources u.returning) (r.updateClauses u ctes strategy)

/-! ## 7. Deletes -/

/-- The clauses of a delete, in its scope. -/
def deleteClauses (d : Delete) (ctes : Option String) (strategy : SourceStrategy) :
    Compile String := do
  let order := (← dialect).deleteOrder
  let (sources, predicates) ← changeParts strategy d.sources d.predicates
  let returning ← planReturning d.returning order .deleted
  let paging ← Compile.paging d.limit none (!d.orderBy.isEmpty) false
  checkClauses order
    [(.ctes, ctes.isSome), (.using, strategy = .clause && !sources.isEmpty),
      (.filter, !predicates.isEmpty), (.orderBy, !d.orderBy.isEmpty),
      (.paging, paging.tail.isSome)]
  inOrder order fun clause isFirst =>
    match clause with
    | .ctes => pure (once isFirst ctes)
    | .delete => do
      let table ← tableName d.table
      let joined ← r.joinedTarget table strategy sources
      let target := if strategy = .multiTable then [("target", table)] else []
      return some (← keyword .delete (target ++ [("table", joined)]))
    | .using => if strategy = .clause then r.sourceClause .using sources else pure none
    | .filter => r.filter predicates
    | .orderBy => r.orderBy d.orderBy
    | .paging => pure (once isFirst paging.tail)
    | clause => r.returning clause returning d.returning d.table

def delete (d : Delete) : Compile String := do
  let ctes ← r.ctes d.ctes
  let strategy ← planSources d.sources .deleteUsing .using (← dialect).deleteOrder
  inScope (← targetScope d.table d.sources d.returning) (r.deleteClauses d ctes strategy)

end Renderer

end QueryPlan
