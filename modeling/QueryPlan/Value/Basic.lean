import QueryPlan.Json.Basic
import QueryPlan.Text.Hex
import QueryPlan.Value.DataType
import QueryPlan.Value.Interval

/-!
# Values

The constants of a plan, the arguments of its parameters and the results of decoding are values of
one type. `Value.toJson` and `Value.ofJson` go between values and JSON; a value that JSON has no
form for becomes a text there.
-/

namespace QueryPlan

/-- A point of the plane. -/
structure Point where
  x : Double
  y : Double
  deriving DecidableEq

/-- A value at run time. -/
inductive Value where
  | null
  | bool (b : Bool)
  | int (n : Int64)
  | uint (n : UInt64)
  | float (x : Double)
  /-- An exact number, kept as text. -/
  | decimal (digits : String)
  | text (s : String)
  | bytes (bytes : List UInt8)
  | date (d : Date)
  | time (t : Clock)
  | timestamp (t : Timestamp)
  | timestampTz (t : OffsetTimestamp)
  | interval (i : Interval)
  | point (p : Point)
  | json (j : Json)
  | array (items : List Value)
  | object (fields : List (String × Value))
  deriving Inhabited

namespace Value

def isNull : Value → Bool
  | null => true
  | _ => false

/-! ## 1. Types -/

mutual

/-- The type that a value has if none is declared. An array has that of its first element that
    implies one. -/
def impliedType : Value → Option DataType
  | null => none
  | bool _ => some .boolean
  | int _ => some .bigInt
  | uint _ => some .unsignedBigInt
  | float _ => some .double
  | decimal _ => some (.decimal none none)
  | text _ => some .text
  | bytes _ => some .bytes
  | date _ => some .date
  | time _ => some .time
  | timestamp _ => some .timestamp
  | timestampTz _ => some .timestampTz
  | interval _ => some .interval
  | point _ => some .point
  | json _ => some .json
  | object _ => some .json
  | array items => some (.array ((impliedElement items).getD .text))

/-- The type of the first item that implies one. -/
def impliedElement : List Value → Option DataType
  | [] => none
  | item :: rest =>
    match impliedType item with
    | some t => some t
    | none => impliedElement rest

end

/-! ## 2. JSON -/

mutual

/-- The value of a JSON value. Integers are signed where they fit. -/
def ofJson : Json → Value
  | .null => null
  | .bool b => bool b
  | .number (.integer n _) =>
    if n ≤ maxInt64 then int (Int64.ofInt n) else uint (UInt64.ofNat n.toNat)
  | .number (.double x _) => float x
  | .text s => text s
  | .array items => array (ofJsonItems items)
  | .object fields => object (ofJsonFields fields)

def ofJsonItems : List Json → List Value
  | [] => []
  | item :: rest => ofJson item :: ofJsonItems rest

def ofJsonFields : List (String × Json) → List (String × Value)
  | [] => []
  | (name, value) :: rest => (name, ofJson value) :: ofJsonFields rest

end

def pointJson (p : Point) : Json :=
  .object [("x", .ofDouble p.x), ("y", .ofDouble p.y)]

mutual

/-- The JSON value of a value. -/
def toJson : Value → Json
  | null => .null
  | bool b => .bool b
  | int n => .ofInt64 n
  | uint n => .ofUInt64 n
  | float x => .ofDouble x
  | decimal digits => .text digits
  | text s => .text s
  | bytes b => .text (String.ofList (Text.hexEncode b))
  | date d => .text d.render
  | time t => .text t.render
  | timestamp t => .text (t.render "T")
  | timestampTz t => .text (t.render "T")
  | interval i => .text i.render
  | point p => pointJson p
  | json j => j
  | array items => .array (toJsonItems items)
  | object fields => .object (toJsonFields fields)

def toJsonItems : List Value → List Json
  | [] => []
  | item :: rest => toJson item :: toJsonItems rest

def toJsonFields : List (String × Value) → List (String × Json)
  | [] => []
  | (name, value) :: rest => (name, toJson value) :: toJsonFields rest

end

/-! ## 3. Equality -/

mutual

/-- Equality of values: doubles as numbers, moments in universal time, objects name by name in any
    order. -/
def same : Value → Value → Bool
  | null, null => true
  | bool a, bool b => a == b
  | int m, int n => m == n
  | uint m, uint n => m == n
  | float x, float y => x.sameNumber y
  | decimal s, decimal t => s == t
  | text s, text t => s == t
  | bytes s, bytes t => s == t
  | date d, date e => d == e
  | time s, time t => s == t
  | timestamp s, timestamp t => s == t
  | timestampTz s, timestampTz t => s.same t
  | interval i, interval j => i == j
  | point p, point q => p.x.sameNumber q.x && p.y.sameNumber q.y
  | json j, json k => j.same k
  | array xs, array ys => sameItems xs ys
  | object xs, object ys => xs.length == ys.length && sameFields xs ys
  | _, _ => false

def sameItems : List Value → List Value → Bool
  | [], [] => true
  | x :: xs, y :: ys => same x y && sameItems xs ys
  | _, _ => false

/-- Whether each field on the left has an equal one on the right. -/
def sameFields : List (String × Value) → List (String × Value) → Bool
  | [], _ => true
  | (name, x) :: rest, ys =>
    (match Fields.get? ys name with
      | some y => same x y
      | none => false) && sameFields rest ys

end

end Value

end QueryPlan
