import QueryPlan.Compile.Source

/-!
# Queries

Selects and set operations, and the clauses that they share with changes: common table expressions,
projections, orderings and paging. A statement is written clause by clause in the order of the
dialect; a clause that the statement uses and the dialect cannot place is an error in strict mode,
and left out otherwise.
-/

namespace QueryPlan

/-! ## 1. Clauses -/

namespace Compile

/-- Reports the clauses that a statement uses and an order does not have. -/
def checkClauses (order : List Clause) (used : List (Clause × Bool)) : Compile Unit :=
  used.forM fun (clause, isUsed) => do
    if isUsed && !order.contains clause then missing (Named.name clause ++ " clause")

/-- The clauses of an order, each with whether it stands there for the first time. -/
def firstTimes : List Clause → List Clause → List (Clause × Bool)
  | _, [] => []
  | seen, clause :: rest => (clause, !seen.contains clause) :: firstTimes (clause :: seen) rest

/-- Writes the clauses of an order one after the other. -/
def inOrder (order : List Clause) (write : Clause → Bool → Compile (Option String)) :
    Compile String := do
  let parts ← (firstTimes [] order).mapM fun (clause, isFirst) => write clause isFirst
  return " ".intercalate (parts.filterMap id)

/-- A text that is written once only. -/
def once (isFirst : Bool) (text : Option String) : Option String :=
  if isFirst then text else none

/-- A clause that is written if an order has a place for it. -/
def placed (order : List Clause) (clause : Clause) (write : Compile (Option String)) :
    Compile (Option String) :=
  if order.contains clause then write else pure none

/-- A keyword with what follows it. -/
def headed (key : Keyword) (body : Compile String) : Compile (Option String) := do
  let word ← keyword key
  return some (word ++ " " ++ (← body))

end Compile

/-! ## 2. Paging -/

/-- The paging of a statement: what is written behind `SELECT`, and what behind the ordering. -/
structure Paging where
  top : Option String
  tail : Option String

namespace Setting

def writeKeyword (s : Setting) (key : Keyword) (params : Params) : Except Error String :=
  s.dialect.formats.keywords.get key params s.strict

def limitPart (s : Setting) (limit : Option UInt64) : Except Error (List String) :=
  match limit with
  | some n => return [← s.writeKeyword .limit [("limit", toString n.toNat)]]
  | none => pure []

/-- An offset without a limit may need one that does not bound anything. -/
def offsetPart (s : Setting) (offset : Option UInt64) (hasLimit : Bool) :
    Except Error (List String) :=
  match offset with
  | some m => do
    let unbounded := if hasLimit then [] else [("unbounded", "true")]
    return [← s.writeKeyword .offset (("offset", toString m.toNat) :: unbounded)]
  | none => pure []

/-- Paging by `LIMIT` and `OFFSET`. -/
def limitOffset (s : Setting) (limit offset : Option UInt64) : Except Error String := do
  let limitPart ← s.limitPart limit
  let offsetPart ← s.offsetPart offset limit.isSome
  return " ".intercalate (limitPart ++ offsetPart)

/-- Paging by `OFFSET` and `FETCH`, with an ordering in front if the engine needs one and there is
    none. -/
def offsetFetch (s : Setting) (limit offset : Option UInt64) (hasOrder : Bool) :
    Except Error String := do
  let limitParam :=
    match limit with
    | some n => [("limit", toString n.toNat)]
    | none => []
  let tail ← s.writeKeyword .fetch (("offset", toString (offset.getD 0).toNat) :: limitParam)
  if !hasOrder && s.dialect.conventions.fetchNeedsOrder then
    return (← s.writeKeyword .fetchOrder []) ++ " " ++ tail
  else return tail

/-- The paging of a statement. -/
def paging (s : Setting) (limit offset : Option UInt64) (hasOrder canTop : Bool) :
    Except Error Paging :=
  match limit, offset with
  | none, none => pure ⟨none, none⟩
  | _, _ =>
    match canTop, limit, offset with
    | true, some n, none => do
      return ⟨some (← s.writeKeyword .top [("limit", toString n.toNat)]), none⟩
    | _, _, _ =>
      if s.dialect.has .limitOffset then
        return ⟨none, some (← s.limitOffset limit offset)⟩
      else return ⟨none, some (← s.offsetFetch limit offset hasOrder)⟩

end Setting

def Compile.paging (limit offset : Option UInt64) (hasOrder canTop : Bool) : Compile Paging := do
  ofExcept ((← read).paging limit offset hasOrder canTop)

namespace Renderer

open Compile

variable (r : Renderer)

/-! ## 3. Common table expressions -/

/-- A common table expression. Its columns are noted first, so that its own body can refer to
    it. -/
def cte (c : Cte) : Compile String := do
  if c.statement.isMutation && !(← has .mutationCte) then
    missing "data-modifying statements in WITH"
  let columns := c.statement.projection.map Projection.label
  registerCte c.label (if columns.isEmpty then none else some columns)
  let body ← r.statement c.statement
  return (← quote c.label) ++ " AS (" ++ body ++ ")"

/-- The common table expressions of a statement. -/
def ctes (list : List Cte) : Compile (Option String) := do
  if list.isEmpty then return none
  let items ← list.mapM r.cte
  let key := if list.any Cte.recursive then Keyword.recursiveCtes else Keyword.ctes
  return some ((← keyword key) ++ " " ++ ", ".intercalate items)

/-! ## 4. Projections and orderings -/

/-- A column of a result, with its label unless that is its own name. -/
def projected (p : Projection) : Compile String := do
  let e ← r.text p.expr
  if p.isOwnName then return e else return e ++ " AS " ++ (← quote p.label)

/-- The columns of a result; without any it has all. -/
def projection (list : List Projection) : Compile String := do
  if list.isEmpty then return "*"
  return ", ".intercalate (← list.mapM r.projected)

def distinct : Option Distinct → Compile (Option String)
  | none => pure none
  | some .all => return some (← keyword .distinct)
  | some (.on es) => do
    if ← has .distinctOn then
      let es ← postProjection (r.list es)
      return some (← keyword .distinctOn [("exprs", es)])
    else
      missing "DISTINCT ON"
      return some (← keyword .distinct)

def orderBy (items : List OrderBy) : Compile (Option String) := do
  if items.isEmpty then return none
  headed .orderBy (postProjection (r.ordering items))

def windows (list : List NamedWindow) : Compile (Option String) := do
  let items ← list.mapM fun w => do
    let spec ← r.windowSpec w.spec
    return (← quote w.name) ++ " AS (" ++ spec ++ ")"
  return some ((← keyword .window) ++ " " ++ ", ".intercalate items)

/-- The clause that turns rows into JSON, if it is wanted. -/
def forJson (json : Option Bool) : Compile (Option String) :=
  match json with
  | some single => return some (← keyword .forJson (if single then [("single", "true")] else []))
  | none => pure none

/-! ## 5. Selects -/

/-- The clauses of a select, in its scope. -/
def selectClauses (s : Select) (ctes : Option String) (json : Option Bool) : Compile String := do
  let order := (← dialect).selectOrder
  let (plain, joins) := splitSources s.sources
  let canTop := order.contains .top && (← has .top)
  let paging ← Compile.paging s.limit s.offset (!s.orderBy.isEmpty) canTop
  let namedWindows := !s.windows.isEmpty && (← has .namedWindows)
  checkClauses order
    [(.ctes, ctes.isSome), (.distinct, s.distinct.isSome), (.sources, !plain.isEmpty),
      (.joins, !joins.isEmpty), (.filter, !s.predicates.isEmpty), (.groupBy, !s.groupBy.isEmpty),
      (.having, s.having.isSome), (.windows, namedWindows), (.orderBy, !s.orderBy.isEmpty),
      (.paging, paging.tail.isSome), (.forJson, json.isSome)]
  inOrder order fun clause isFirst =>
    match clause with
    | .ctes => pure (once isFirst ctes)
    | .select => return some (← keyword .select)
    | .distinct => r.distinct s.distinct
    | .top => pure (once isFirst paging.top)
    | .projection => return some (← r.projection s.projection)
    | .sources => if plain.isEmpty then pure none else headed .sources (r.sources plain)
    | .joins => if joins.isEmpty then pure none else return some (← r.joins joins)
    | .filter =>
      if s.predicates.isEmpty then pure none else headed .filter (r.predicates s.predicates)
    | .groupBy =>
      if s.groupBy.isEmpty then pure none
      else headed .groupBy (postProjection (r.list s.groupBy))
    | .having =>
      match s.having with
      | some having => headed .having (postProjection (r.text having))
      | none => pure none
    | .windows => if namedWindows then r.windows s.windows else pure none
    | .orderBy => r.orderBy s.orderBy
    | .paging => pure (once isFirst paging.tail)
    | .forJson => forJson json
    | _ => pure none

def select (s : Select) : Compile String := do
  let json ← takeForJson
  let ctes ← r.ctes s.ctes
  let scope ← scopeOf s.sources s.projection
  inScope { scope with windows := s.windows } (r.selectClauses s ctes json)

/-! ## 6. Set operations -/

/-- Whether a branch can be written without a derived table around it: a select that does not order,
    page or declare anything of its own. -/
def isInlineBranch : Statement → Bool
  | .select s => s.ctes.isEmpty && s.orderBy.isEmpty && s.limit.isNone && s.offset.isNone
  | _ => false

def branch (s : Statement) : Compile String := do
  let text ← r.statement s
  if isInlineBranch s then return text
  let label ← freshBranchTable
  let select ← keyword .select
  let sources ← keyword .sources
  return s!"{select} * {sources} ({text}) AS " ++ (← quote label)

/-- The ordering and paging of a set operation, which see the combined rows by their names only. -/
def setOperationTail (s : SetOperation) (json : Option Bool) : Compile (List String) := do
  let order := (← dialect).selectOrder
  let paging ← Compile.paging s.limit s.offset (!s.orderBy.isEmpty) false
  checkClauses order
    [(.orderBy, !s.orderBy.isEmpty), (.paging, paging.tail.isSome), (.forJson, json.isSome)]
  let orderPart ← placed order .orderBy (r.orderBy s.orderBy)
  let pagingPart ← placed order .paging (pure paging.tail)
  let jsonPart ← placed order .forJson (forJson json)
  return [orderPart, pagingPart, jsonPart].filterMap id

def setOperation (s : SetOperation) : Compile String := do
  let json ← takeForJson
  let ctes ← r.ctes s.ctes
  let width := s.first.projection.length
  s.rest.forM fun (_, branch) => do
    let found := branch.projection.length
    if found ≠ width then fail (.ofFault (.branchWidth width found))
  let first ← r.branch s.first
  let rest ← s.rest.mapM fun (op, statement) => do
    let word ← write Formats.setOps op []
    return [word, ← r.branch statement]
  let scope ← scopeOf [] []
  let tail ← inScope scope (r.setOperationTail s json)
  return " ".intercalate (ctes.toList ++ first :: rest.flatten ++ tail)

end Renderer

end QueryPlan
