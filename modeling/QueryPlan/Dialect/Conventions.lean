import QueryPlan.Error
import QueryPlan.Value.Interval

/-!
# Conventions of an engine

What templates cannot say about an engine: how its string literals escape, how its intervals are
written, whether paging needs an ordering, and whether a derived table can rename its columns. The
built-in engines differ from standard SQL in few of these; an engine of its own may bring any.
-/

namespace QueryPlan

/-- The conventions of an engine. -/
structure Conventions where
  /-- A text as a string literal. -/
  stringLiteral : String → String
  /-- What stands for an interval in its literal. -/
  intervalValue : Interval → Except Error String
  /-- `OFFSET … FETCH` is only valid behind an ordering. -/
  fetchNeedsOrder : Bool
  /-- A derived table can rename its columns. -/
  derivedColumnAliases : Bool

namespace Conventions

/-! ## 1. String literals -/

/-- A character inside a string literal. A quote is doubled, and where a backslash escapes, so is a
    backslash. -/
def escapeChar (backslash : Bool) (x : Char) : List Char :=
  if x = '\x27' then ['\x27', '\x27']
  else if backslash ∧ x = '\\' then ['\\', '\\']
  else [x]

/-- The characters of a string literal, with its quotes. -/
def literalChars (backslash : Bool) (text : List Char) : List Char :=
  '\x27' :: text.flatMap (escapeChar backslash) ++ ['\x27']

/-- A text between single quotes. -/
def quotedText (backslash : Bool) (text : String) : String :=
  String.ofList (literalChars backslash text.toList)

/-! ## 2. Intervals -/

/-- An interval of a single unit, if it is one. -/
def singleUnit? (i : Interval) : Option String :=
  let months := i.months.toInt
  let days := i.days.toInt
  let micros := i.micros.toInt
  if days = 0 ∧ micros = 0 then
    if months = 0 then some "0 SECOND"
    else if months.tmod 12 = 0 then some s!"{months.tdiv 12} YEAR"
    else some s!"{months} MONTH"
  else if months = 0 ∧ micros = 0 then some s!"{days} DAY"
  else if months = 0 ∧ days = 0 then
    if micros.tmod 1000000 = 0 then some s!"{micros.tdiv 1000000} SECOND"
    else some s!"{micros} MICROSECOND"
  else none

/-- An interval of a single unit; one that mixes units cannot be written. -/
def singleUnitValue (i : Interval) : Except Error String :=
  match singleUnit? i with
  | some text => pure text
  | none => throw (Error.unsupported "INTERVAL with mixed units")

/-! ## 3. The built-in engines -/

/-- The conventions of standard SQL. -/
def standard : Conventions :=
  { stringLiteral := quotedText false
    intervalValue := fun i => pure (quotedText false i.render)
    fetchNeedsOrder := false
    derivedColumnAliases := true }

def mySql : Conventions :=
  { standard with stringLiteral := quotedText true, intervalValue := singleUnitValue }

def msSql : Conventions := { standard with fetchNeedsOrder := true }

def sqLite : Conventions := { standard with derivedColumnAliases := false }

end Conventions

end QueryPlan
