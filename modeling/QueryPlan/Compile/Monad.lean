import QueryPlan.Compile.Parameter
import QueryPlan.Compile.Scope
import QueryPlan.Options

/-!
# The state of a compilation

`Compile` is what the pieces of the compiler work in: a fixed setting, a state that they pass on,
and an error that ends the compilation. Whatever is opened for a part of a statement (a frame, a
scope, a flag of the scope) is opened by a function that runs that part and closes it again.
-/

namespace QueryPlan

/-- What is fixed for a compilation. -/
structure Setting where
  dialect : Dialect
  /-- Whether what the dialect lacks is an error. -/
  strict : Bool
  constantsAsParams : Bool
  simplifyReferences : Bool

def Setting.ofOptions (dialect : Dialect) (o : Options) : Setting :=
  { dialect
    strict := o.strict
    constantsAsParams := o.constantsAsParams
    simplifyReferences := o.simplifyReferences }

/-- The state of a compilation. -/
structure Context where
  params : Collector
  /-- Innermost first. -/
  scopes : List Scope
  /-- Innermost first. -/
  frames : List Frame
  /-- The number of derived tables made for nested queries. -/
  jsonTables : Nat
  /-- The number of derived tables made for branches of set operations. -/
  branchTables : Nat
  /-- In an output clause: the label of the target, and the pseudo table that stands for it. -/
  outputTable : Option (String × String)
  /-- Set for a query that has to end as JSON; whether it is a single row. -/
  forJson : Option Bool
  /-- Whether a list of returned columns was left out. -/
  droppedReturning : Bool

def Context.start (style : PlaceholderStyle) : Context :=
  { params := .empty style
    scopes := []
    frames := []
    jsonTables := 0
    branchTables := 0
    outputTable := none
    forJson := none
    droppedReturning := false }

/-- A step of a compilation. -/
abbrev Compile := ReaderT Setting (StateT Context (Except Error))

namespace Compile

variable {α : Type}

/-! ## 1. The dialect -/

def dialect : Compile Dialect :=
  return (← read).dialect

def fail (e : Error) : Compile α :=
  throw e

/-- A result that may be an error. -/
def ofExcept (x : Except Error α) : Compile α :=
  match x with
  | .ok a => pure a
  | .error e => fail e

def has (f : Feature) : Compile Bool :=
  return (← dialect).has f

/-- Reports a missing feature in strict mode; else the caller makes do without it. -/
def missing (feature : String) : Compile Unit := do
  if (← read).strict then fail (Error.unsupported feature)

def quote (ident : String) : Compile String :=
  return (← dialect).quoteIdent ident

/-- A key of a family, written out. -/
def write {κ : Type} [Worded κ] (family : Formats → Registry κ) (key : κ) (params : Params) :
    Compile String := do
  ofExcept ((family (← dialect).formats).get key params (← read).strict)

/-- How a key of a family is written. -/
def lookup {κ : Type} [Worded κ] (family : Formats → Registry κ) (key : κ) (params : Params) :
    Compile Lookup := do
  ofExcept ((family (← dialect).formats).lookup key params (← read).strict)

def keyword (key : Keyword) (params : Params := []) : Compile String :=
  write Formats.keywords key params

/-! ## 2. Parameters and names -/

/-- The placeholder of an argument. -/
def argument (name : String) (type : Option DataType) : Compile String := do
  let (text, params) := (← get).params.named name type
  modify fun c => { c with params }
  return text

/-- The placeholder of a constant. -/
def constant (value : Value) (type : Option DataType) : Compile String := do
  let (text, params) := (← get).params.value value type
  modify fun c => { c with params }
  return text

def mark : Compile Nat :=
  return (← get).params.mark

def repeatSince (mark : Nat) : Compile Unit :=
  modify fun c => { c with params := c.params.repeatSince mark }

/-- A name for the derived table of a nested query. -/
def freshJsonTable : Compile String := do
  let n := (← get).jsonTables
  modify fun c => { c with jsonTables := n + 1 }
  return s!"_j{n}"

/-- A name for the derived table of a branch. -/
def freshBranchTable : Compile String := do
  let n := (← get).branchTables
  modify fun c => { c with branchTables := n + 1 }
  return s!"_s{n}"

/-! ## 3. Frames -/

/-- Runs a part with a frame of its own. -/
def inFrame (part : Compile α) : Compile α := do
  modify fun c => { c with frames := [] :: c.frames }
  let a ← part
  modify fun c => { c with frames := c.frames.tail }
  return a

/-- Notes a common table expression in the innermost frame. -/
def registerCte (label : String) (columns : Option (List String)) : Compile Unit :=
  modify fun c =>
    match c.frames with
    | [] => { c with frames := [[(label, columns)]] }
    | frame :: outer => { c with frames := Fields.insert frame label columns :: outer }

/-! ## 4. Scopes -/

/-- Runs a part with a scope of its own. -/
def inScope (scope : Scope) (part : Compile α) : Compile α := do
  modify fun c => { c with scopes := scope :: c.scopes }
  let a ← part
  modify fun c => { c with scopes := c.scopes.tail }
  return a

/-- Changes the innermost scope. -/
def modifyScope (change : Scope → Scope) : Compile Unit :=
  modify fun c =>
    match c.scopes with
    | [] => c
    | scope :: outer => { c with scopes := change scope :: outer }

/-- The scope of a statement that reads some sources. -/
def scopeOf (sources : List Source) (projection : List Projection) : Compile Scope :=
  return Scope.ofSources (← get).frames sources projection

/-- Runs a part in which the names of the projection are visible. -/
def postProjection (part : Compile α) : Compile α := do
  modifyScope fun s => { s with postProjection := true }
  let a ← part
  modifyScope fun s => { s with postProjection := false }
  return a

/-- Runs a part in which every column keeps its qualifier. -/
def forceQualified (part : Compile α) : Compile α := do
  modifyScope fun s => { s with forceQualified := true }
  let a ← part
  modifyScope fun s => { s with forceQualified := false }
  return a

/-- Runs a part in which the target of a change is printed as a pseudo table. -/
def inOutput (target pseudo : String) (part : Compile α) : Compile α := do
  modify fun c => { c with outputTable := some (target, pseudo) }
  let a ← part
  modify fun c => { c with outputTable := none }
  return a

/-- Runs a part whose query has to end as JSON. -/
def inForJson (single : Bool) (part : Compile α) : Compile α := do
  modify fun c => { c with forJson := some single }
  let a ← part
  modify fun c => { c with forJson := none }
  return a

/-- Whether the query has to end as JSON, which holds for it alone and not for what is inside. -/
def takeForJson : Compile (Option Bool) := do
  let forJson := (← get).forJson
  modify fun c => { c with forJson := none }
  return forJson

/-- The qualifier of a column, or nothing if the column can stand without one. -/
def qualifier (label name : String) : Compile (Option String) := do
  let c ← get
  let plain := qualifier? (← dialect) (← read).simplifyReferences c.scopes label name
  match c.outputTable with
  | some (target, pseudo) => return if target == label then some pseudo else plain
  | none => return plain

end Compile

end QueryPlan
