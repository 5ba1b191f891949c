import QueryPlan.Calendar.Reader
import QueryPlan.Json.Reader
import QueryPlan.Number.Numeral
import QueryPlan.Number.Spelling
import QueryPlan.Text.Case
import QueryPlan.Text.Utf8
import QueryPlan.Value.Basic

/-!
# Conversions of single values

Values come back from a database in many forms: timestamps as text, truth values as `0` and `1`,
bytes as hex. Each function here converts a value to one type where the value has a form of that
type; a value that has the type already is left as it is.
-/

namespace QueryPlan.Value

/-- A number, text or truth value that is wrapped as JSON, without the wrapping. -/
def unwrapScalar : Value → Value
  | json (.array items) => json (.array items)
  | json (.object fields) => json (.object fields)
  | json scalar => ofJson scalar
  | v => v

/-! ## 1. Truth values and numbers -/

/-- The truth value that a word stands for. -/
def boolWord? (word : String) : Option Bool :=
  if ["t", "true", "1", "y", "yes"].contains word then some true
  else if ["f", "false", "0", "n", "no"].contains word then some false
  else none

def toBool? (v : Value) : Option Bool :=
  match v.unwrapScalar with
  | bool b => some b
  | int n => some (n != 0)
  | uint n => some (n != 0)
  | text s | decimal s => boolWord? (lowerAscii (trimBlank s))
  | _ => none

def int64OfText? (cs : List Char) : Option Int64 :=
  (Numeral.integerIn? minInt64 maxInt64 cs).map Int64.ofInt

/-- Text without `.0` at its end, if it ends so. -/
def dropPointZero? (cs : List Char) : Option (List Char) :=
  if cs.drop (cs.length - 2) = ['.', '0'] then some (cs.take (cs.length - 2)) else none

def toInt? (v : Value) : Option Int64 :=
  match v.unwrapScalar with
  | int n => some n
  | uint n => if n.toNat ≤ maxInt64 then some (Int64.ofNat n.toNat) else none
  | float x =>
    if x.isWhole then some (Int64.ofInt (x.saturate Double.truncate minInt64 maxInt64)) else none
  | bool b => some (if b then 1 else 0)
  | text s | decimal s =>
    let cs := Text.trim s.toList
    int64OfText? cs <|> (dropPointZero? cs).bind int64OfText?
  | _ => none

def toUInt? (v : Value) : Option UInt64 :=
  match v.unwrapScalar with
  | uint n => some n
  | int n => if 0 ≤ n.toInt then some (UInt64.ofNat n.toInt.toNat) else none
  | bool b => some (if b then 1 else 0)
  | text s | decimal s =>
    match Numeral.unsigned? (Text.trim s.toList) with
    | some n => if n ≤ maxUInt64 then some (UInt64.ofNat n) else none
    | none => none
  | _ => none

def toFloat? (v : Value) : Option Double :=
  match v.unwrapScalar with
  | float x => some x
  | int n => some (.ofInt n.toInt)
  | uint n => some (.ofNat n.toNat)
  | text s | decimal s => Double.ofText? (trimBlank s)
  | _ => none

def toDecimal? (v : Value) : Option String :=
  match v.unwrapScalar with
  | decimal s => some s
  | int n => some (toString n.toInt)
  | uint n => some (toString n.toNat)
  | float x => if x.isFinite then some (x.spell .plain) else none
  | text s =>
    let s := trimBlank s
    (Double.ofText? s).map fun _ => s
  | _ => none

/-! ## 2. Text, bytes and JSON -/

def toText? : Value → Option String
  | text s | decimal s => some s
  | int n => some (toString n.toInt)
  | uint n => some (toString n.toNat)
  | float x => some (x.spell .plain)
  | bool b => some (if b then "true" else "false")
  | json (.text s) => some s
  | _ => none

/-- The bytes of a text: those that it spells in hex, which `\x` in front makes sure, else those
    of the text itself. -/
def bytesOfText? (s : String) : Option (List UInt8) :=
  match s.toList with
  | '\\' :: 'x' :: hex => Text.hexDecode? hex
  | cs => some ((Text.hexDecode? cs).getD (Text.utf8 s))

def toByte? (v : Value) : Option UInt8 :=
  match v.toUInt? with
  | some n => if n.toNat < 256 then some (UInt8.ofNat n.toNat) else none
  | none => none

def toBytes? (v : Value) : Option (List UInt8) :=
  let v :=
    match v with
    | json j => ofJson j
    | v => v
  match v with
  | bytes b => some b
  | text s => bytesOfText? s
  | array items => items.mapM toByte?
  | _ => none

/-- A JSON value, if reading it has gone well. -/
def jsonOf? (result : Except Json.SyntaxError Json) : Option Json :=
  match result with
  | .ok j => some j
  | .error _ => none

def toJson? : Value → Option Json
  | json j => some j
  | text s => jsonOf? (Json.parse s)
  | bytes b => jsonOf? (Json.parseBytes b)
  | v => some v.toJson

/-! ## 3. Dates and times -/

/-- A timestamp without an offset. One that has an offset is moved to universal time, and a date
    begins at midnight. -/
def timestampOfText? (cs : List Char) : Option Timestamp :=
  Timestamp.ofText? cs <|> (OffsetTimestamp.ofText? cs).map OffsetTimestamp.utc <|>
    (Date.ofText? cs).map Timestamp.startOf

def toTimestamp? (v : Value) : Option Timestamp :=
  match v.unwrapScalar with
  | timestamp t => some t
  | timestampTz t => some t.utc
  | date d => some (.startOf d)
  | text s => timestampOfText? (Text.trim s.toList)
  | _ => none

/-- A timestamp with an offset. Without one it is taken as universal time. -/
def toTimestampTz? (v : Value) : Option OffsetTimestamp :=
  match v.unwrapScalar with
  | timestampTz t => some t
  | timestamp t => some (.ofUtc t)
  | date d => some (.ofUtc (.startOf d))
  | text s =>
    let cs := Text.trim s.toList
    OffsetTimestamp.ofText? cs <|> (timestampOfText? cs).map .ofUtc
  | _ => none

def toDate? (v : Value) : Option Date :=
  match v.unwrapScalar with
  | date d => some d
  | timestamp t => some t.date
  | timestampTz t => some t.localTime.date
  | text s =>
    let cs := Text.trim s.toList
    Date.ofText? cs <|> (timestampOfText? cs).map Timestamp.date
  | _ => none

def toTime? (v : Value) : Option Clock :=
  match v.unwrapScalar with
  | time t => some t
  | timestamp t => some t.clock
  | text s => Clock.ofText? (Text.trim s.toList)
  | _ => none

/-- An interval given by its parts in an object. A part that is missing or no number is zero. -/
def intervalOfParts (fields : List (String × Json)) : Interval :=
  let part (name : String) : Double := ((Fields.get? fields name).bind Json.double?).getD (.ofNat 0)
  let months := part "years" * .ofNat 12 + part "months"
  let micros := part "hours" * .ofNat Interval.microsPerHour +
    part "minutes" * .ofNat Interval.microsPerMinute +
    part "seconds" * .ofNat Interval.microsPerSecond + part "milliseconds" * .ofNat 1000
  { months := Int32.ofInt (months.saturate Double.truncate minInt32 maxInt32)
    days := Int32.ofInt ((part "days").saturate Double.truncate minInt32 maxInt32)
    micros := Int64.ofInt (micros.saturate Double.truncate minInt64 maxInt64) }

def toInterval? (v : Value) : Option Interval :=
  match v.unwrapScalar with
  | interval i => some i
  | text s => Interval.parse s
  | json (.object fields) => some (intervalOfParts fields)
  | _ => none

end QueryPlan.Value
