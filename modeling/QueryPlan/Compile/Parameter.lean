import QueryPlan.Dialect.Basic
import QueryPlan.Document.Value

/-!
# Parameters

A compiled statement has a list of parameters in the order of their placeholders. `Collector` builds
that list while the text is written: asked for a parameter it notes it and gives the placeholder to
print. Where placeholders can be repeated, a name is noted once and later uses of it share its
place.
-/

namespace QueryPlan

/-- A parameter of a compiled statement. -/
structure Parameter where
  /-- Set for arguments, and for every parameter where placeholders are named. -/
  name : Option String
  /-- Set for constants of the plan. -/
  value : Option Value
  type : Option DataType

namespace Parameter

open Document

def toDocument (p : Parameter) : Json :=
  .object [("name", .ofOption .text p.name), ("value", .ofOption Value.toDocument p.value),
    ("data_type", .ofOption DataType.toDocument p.type)]

def ofDocument? (j : Part) : Option Parameter := do
  match ← recordFields? ["name", "value", "data_type"] j with
  | [name, value, type] =>
    some ⟨← optional text? name, ← optional Value.ofDocument? value,
      ← optional DataType.ofDocument? type⟩
  | _ => none

end Parameter

/-- The parameters so far. -/
structure Collector where
  style : PlaceholderStyle
  params : List Parameter
  /-- The place of each name, where placeholders can be repeated. -/
  names : List (String × Nat)
  /-- The number of constants, where they are named. -/
  constants : Nat

namespace Collector

def empty (style : PlaceholderStyle) : Collector :=
  ⟨style, [], [], 0⟩

def push (c : Collector) (p : Parameter) : Collector :=
  { c with params := c.params ++ [p] }

/-- The place of a named parameter, which is noted unless the name has a place already. -/
def placeOf (c : Collector) (name : String) (p : Parameter) : Nat × Collector :=
  match Fields.get? c.names name with
  | some index => (index, c)
  | none =>
    let index := c.params.length
    (index, { c.push p with names := Fields.insert c.names name index })

/-- A parameter whose value is given as an argument: its placeholder. -/
def named (c : Collector) (name : String) (type : Option DataType) : String × Collector :=
  let p : Parameter := ⟨some name, none, type⟩
  match c.style with
  | .positional => ("?", c.push p)
  | .numbered =>
    let (index, c) := c.placeOf name p
    (s!"${index + 1}", c)
  | .named => ("@" ++ name, (c.placeOf name p).2)

/-- A parameter whose value is a constant of the plan: its placeholder. Without a declared type it
    has the type that the value implies. -/
def value (c : Collector) (v : Value) (type : Option DataType) : String × Collector :=
  let p : Parameter := ⟨none, some v, type <|> v.impliedType⟩
  match c.style with
  | .positional => ("?", c.push p)
  | .numbered => (s!"${c.params.length + 1}", c.push p)
  | .named =>
    let count := c.constants + 1
    let name := s!"p{count}"
    ("@" ++ name,
      { c.push { p with name := some name } with
        names := Fields.insert c.names name c.params.length
        constants := count })

/-- A place in the list, for `repeatSince`. -/
def mark (c : Collector) : Nat :=
  c.params.length

/-- Notes the parameters since a mark once more, for text that is printed a second time. Only
    positional placeholders need it. -/
def repeatSince (c : Collector) (mark : Nat) : Collector :=
  if c.style = .positional then { c with params := c.params ++ c.params.drop mark } else c

end Collector

end QueryPlan
