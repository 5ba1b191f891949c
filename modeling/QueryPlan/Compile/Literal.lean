import QueryPlan.Compile.Fragment
import QueryPlan.Compile.Monad

/-!
# Literals and types

Constants and type names need nothing of the state of a compilation. Numbers are written as they
are, all else through the templates of the dialect.
-/

namespace QueryPlan

namespace Setting

/-- A literal form, written out. -/
def writeLiteral (s : Setting) (kind : LiteralKind) (params : Params) : Except Error Fragment :=
  return Fragment.atom (← s.dialect.formats.literals.get kind params s.strict)

/-- A literal form around a string literal. -/
def quotedLiteral (s : Setting) (kind : LiteralKind) (text : String) : Except Error Fragment :=
  s.writeLiteral kind [("value", s.dialect.conventions.stringLiteral text)]

mutual

/-- A constant in place. -/
def literal (s : Setting) : Value → Except Error Fragment
  | .null => s.writeLiteral .null []
  | .bool true => s.writeLiteral .true []
  | .bool false => s.writeLiteral .false []
  | .int n => pure (.number (toString n.toInt))
  | .uint n => pure (.number (toString n.toNat))
  | .float x =>
    if x.isFinite then pure (.number (x.spell .literal))
    else throw (.ofCause (.expected (some "literal") "a finite number" (x.spell .plain)))
  | .decimal digits => pure (.number digits)
  | .text text => s.quotedLiteral .text text
  | .bytes bytes => s.writeLiteral .bytes [("hex", String.ofList (Text.hexEncode bytes))]
  | .date d => s.quotedLiteral .date d.render
  | .time t => s.quotedLiteral .time t.render
  | .timestamp t => s.quotedLiteral .timestamp (t.render " ")
  | .timestampTz t => s.quotedLiteral .timestampTz (t.render " ")
  | .interval i => do
    s.writeLiteral .interval [("value", ← s.dialect.conventions.intervalValue i)]
  | .point p => s.writeLiteral .point [("x", p.x.spell .literal), ("y", p.y.spell .literal)]
  | .json j => s.quotedLiteral .json j.render
  | .object fields => s.quotedLiteral .json (Value.object fields).toJson.render
  | .array items => do
    let texts ← literals s items
    s.writeLiteral .array [("elements", ", ".intercalate texts)]

/-- The texts of constants in place. -/
def literals (s : Setting) : List Value → Except Error (List String)
  | [] => pure []
  | item :: rest => do
    let first ← literal s item
    let others ← literals s rest
    pure (first.text :: others)

end

/-- The arguments of a type that are plain numbers. -/
def typeArguments : DataType → Params
  | .decimal (some precision) (some scale) => [("args", s!"({precision.toNat}, {scale.toNat})")]
  | .decimal (some precision) none => [("args", s!"({precision.toNat})")]
  | .varchar (some length) => [("args", s!"({length.toNat})")]
  | .custom name => [("name", name)]
  | _ => []

/-- A type that is no array, written out. -/
def plainType (s : Setting) (type : DataType) : Except Error String :=
  s.dialect.formats.types.get type.kind (typeArguments type) s.strict

/-- A type, written out. A dialect without unsigned numbers makes do with a wider signed type. -/
def typeName (s : Setting) : DataType → Except Error String
  | .array element => do
    s.dialect.formats.types.get .array [("element", ← s.typeName element)] s.strict
  | type =>
    if s.dialect.has .unsigned then s.plainType type
    else
      match type.signedFallback? with
      | some signed =>
        if s.strict then throw (Error.unsupported "UNSIGNED") else s.plainType signed
      | none => s.plainType type

end Setting

namespace Compile

def literal (value : Value) : Compile Fragment := do
  ofExcept ((← read).literal value)

def typeName (type : DataType) : Compile String := do
  ofExcept ((← read).typeName type)

end Compile

end QueryPlan
