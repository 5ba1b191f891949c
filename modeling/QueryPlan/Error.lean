/-!
# Errors

An error is a cause, with hints and a code for machines where there is one. The wording of every
cause stands in `Cause.message`.
-/

namespace QueryPlan

/-- A rule for plans that a plan breaks. -/
inductive PlanFault where
  /-- A sub-query is nested as JSON and projects nothing. -/
  | nestedWithoutProjection (statement : String)
  /-- A statement other than a query is nested as JSON. -/
  | nestedMutation (statement : String)
  | insertWithoutRows (table : String)
  | insertRowWidth (table : String) (expected found : Nat)
  | updateWithoutAssignments (table : String)
  | branchWidth (expected found : Nat)
  | sourceWithoutRows (label : String)
  | sourceRowWidth (label : String) (columns found : Nat)
  /-- Windows are defined by each other without end. -/
  | endlessWindows
  deriving DecidableEq

def PlanFault.message : PlanFault → String
  | nestedWithoutProjection statement =>
    s!"a nested {statement} sub-query needs an explicit projection"
  | nestedMutation statement => s!"{statement} statements cannot be nested as JSON"
  | insertWithoutRows table => s!"insert into `{table}` has no rows"
  | insertRowWidth table expected found =>
    s!"insert into `{table}` expected rows of {expected} values, but found {found}"
  | updateWithoutAssignments table => s!"update of `{table}` has no assignments"
  | branchWidth expected found =>
    "branches of a set operation must have the same number of columns: " ++
      s!"expected {expected}, but found {found}"
  | sourceWithoutRows label => s!"inline rows `{label}` must have at least one row"
  | sourceRowWidth label columns found =>
    s!"inline rows `{label}` declare {columns} columns, but a row has {found}"
  | endlessWindows => "windows are defined by each other without end"

/-- What went wrong. -/
inductive Cause where
  | plan (fault : PlanFault)
  /-- A message of its own. -/
  | note (text : String)
  | expected (who : Option String) (wanted found : String)
  | unexpected (found : String)
  | notFound (name family : String)
  /-- The dialect lacks something and has no other way to say it. -/
  | unsupported (feature : String) (dialect : Option String)
  /-- A row has not as many values as the statement projects. -/
  | rowWidth (statement : String) (row expected found : Nat)
  /-- A state that should not be reached. -/
  | internal (details : Option String)
  deriving DecidableEq

def Cause.message : Cause → String
  | plan fault => fault.message
  | note text => text
  | expected who wanted found =>
    (match who with
      | some who => who ++ " "
      | none => "") ++ s!"expected {wanted}, but found {found}"
  | unexpected found => s!"unexpected {found}"
  | notFound name family => s!"{family} `{name}` not found"
  | unsupported feature dialect =>
    s!"{feature} is not supported" ++
      (match dialect with
        | some dialect => s!" by dialect {dialect}"
        | none => "")
  | rowWidth statement row wanted found =>
    s!"cannot decode row {row} of {statement} statement: " ++
      s!"expected {wanted} columns, but found {found}"
  | internal details =>
    "internal compiler error" ++
      (match details with
        | some details => "; " ++ details
        | none => "")

/-- A cause with hints and a code. -/
structure Error where
  cause : Cause
  hints : List String
  code : Option String
  deriving DecidableEq

namespace Error

def ofCause (cause : Cause) : Error := ⟨cause, [], none⟩

def ofFault (fault : PlanFault) : Error := ofCause (.plan fault)

/-- The code of errors about what a dialect lacks. -/
def unsupportedCode : String := "E0101"

/-- A feature is missing, in a dialect that is not known yet. -/
def unsupported (feature : String) : Error :=
  ⟨.unsupported feature none, [], some unsupportedCode⟩

def isUnsupported (e : Error) : Bool :=
  match e.cause with
  | .unsupported _ _ => true
  | _ => false

/-- Names the dialect in an error about a missing feature, unless it is named already. -/
def inDialect (name : String) (e : Error) : Error :=
  match e.cause with
  | .unsupported feature none => { e with cause := .unsupported feature (some name) }
  | _ => e

/-- Says whose expectation was not met, unless it is said already. -/
def orWho (who : String) (e : Error) : Error :=
  match e.cause with
  | .expected none wanted found => { e with cause := .expected (some who) wanted found }
  | _ => e

def pushHint (hint : String) (e : Error) : Error :=
  { e with hints := e.hints ++ [hint] }

def withHints (hints : List String) (e : Error) : Error :=
  { e with hints }

def withCode (code : String) (e : Error) : Error :=
  { e with code := some code }

/-- The code, the cause and a line for each hint. -/
def message (e : Error) : String :=
  let code :=
    match e.code with
    | some code => s!"[{code}] "
    | none => ""
  code ++ e.cause.message ++ String.join (e.hints.map ("\n  ↳ hint: " ++ ·))

end Error

end QueryPlan
