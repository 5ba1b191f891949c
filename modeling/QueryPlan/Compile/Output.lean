import QueryPlan.Compile.Statement
import QueryPlan.Decode.Basic
import QueryPlan.Dialect.BuiltIn
import QueryPlan.Layout

/-!
# Compilation

`compile` turns a plan into SQL for a dialect, the parameters in the order of their placeholders,
and a decoder for the rows. `Compiled.bind` gives the values of the parameters.
-/

namespace QueryPlan

/-- A compiled statement. -/
structure Compiled where
  sql : String
  params : List Parameter
  /-- The places of named parameters, where placeholders can be repeated. -/
  names : List (String × Nat)
  decoder : Decoder

theorem Compiled.exists_of_sql {x : Except Error Compiled} {sql : String}
    (h : x.map Compiled.sql = .ok sql) : ∃ out, x = .ok out ∧ out.sql = sql := by
  cases x with
  | error e => cases h
  | ok out => exact ⟨out, rfl, Except.ok.inj h⟩

/-- The text of a statement, and the state in which its compilation ends. -/
def Statement.runRender (s : Statement) (dialect : Dialect) (o : Options) :
    Except Error (String × Context) :=
  (s.render.run (.ofOptions dialect o)).run (.start dialect.placeholder)

/-- Compiles a statement for a dialect. -/
def compileWith (s : Statement) (dialect : Dialect) (o : Options) : Except Error Compiled :=
  match s.runRender dialect o with
  | .error e => .error (e.inDialect (Worded.keyword dialect.kind))
  | .ok (sql, context) =>
    let plan := s.decodePlan
    let plan := { plan with affectedOnly := plan.affectedOnly || context.droppedReturning }
    .ok
      { sql := if o.format then layOut sql else sql
        params := context.params.params
        names := context.params.names
        decoder := ⟨plan, o⟩ }

/-- Compiles a statement for the built-in dialect that the options name. -/
def compile (s : Statement) (o : Options) : Except Error Compiled :=
  compileWith s o.target.dialect o

namespace Parameter

/-- The value of a parameter before it is coerced: that of the plan, else the argument of its
    name. -/
def given (p : Parameter) (args : List (String × Value)) : Except Error Value :=
  match p.value, p.name with
  | some v, _ => .ok v
  | none, some name =>
    match Fields.get? args name with
    | some v => .ok v
    | none => .error (.ofCause (.notFound name "parameter"))
  | none, none => .error (.ofCause (.internal (some "parameter without a name")))

/-- The value of a parameter, coerced to its type. -/
def bind (p : Parameter) (args : List (String × Value)) : Except Error Value := do
  let v ← p.given args
  match p.type with
  | some type => if v.isNull then return v else v.coerce type
  | none => return v

end Parameter

/-- The values of parameters, in order. -/
def bindAll (params : List Parameter) (args : List (String × Value)) : Except Error (List Value) :=
  params.mapM fun p => p.bind args

/-- The values of the parameters of a compiled statement. -/
def Compiled.bind (c : Compiled) (args : List (String × Value)) : Except Error (List Value) :=
  bindAll c.params args

end QueryPlan
