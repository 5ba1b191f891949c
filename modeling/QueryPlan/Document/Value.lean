import QueryPlan.Calendar.Reader
import QueryPlan.Document.Basic
import QueryPlan.Value.Basic

/-!
# Documents of values and types
-/

namespace QueryPlan

open Document

/-! ## 1. Types -/

namespace DataType

def toDocument : DataType → Json
  | decimal precision scale =>
    tagged "Decimal" (.object
      [("precision", .ofOption (fun n : UInt8 => .ofNat n.toNat) precision),
        ("scale", .ofOption (fun n : UInt8 => .ofNat n.toNat) scale)])
  | varchar length => tagged "Varchar" (.ofOption (fun n : UInt32 => .ofNat n.toNat) length)
  | array element => tagged "Array" element.toDocument
  | custom name => tagged "Custom" (.text name)
  | other => ofNamed other.kind

/-- The types that have no arguments. -/
def ofKind? : TypeKind → Option DataType
  | .boolean => some boolean
  | .smallInt => some smallInt
  | .integer => some integer
  | .bigInt => some bigInt
  | .unsignedInteger => some unsignedInteger
  | .unsignedBigInt => some unsignedBigInt
  | .real => some real
  | .double => some double
  | .text => some text
  | .bytes => some bytes
  | .uuid => some uuid
  | .date => some date
  | .time => some time
  | .timestamp => some timestamp
  | .timestampTz => some timestampTz
  | .interval => some interval
  | .json => some json
  | .point => some point
  | _ => none

/-- Reads a type; an array type holds the document of its element, so that `depth` documents may
    stand inside each other. -/
def ofDocumentAt? : (depth : Nat) → Part → Option DataType
  | 0, _ => none
  | depth + 1, j => do
    let (tag, content) ← choice? j
    match tag, content with
    | "Decimal", some content =>
      match ← contentFields? ["precision", "scale"] content with
      | [precision, scale] =>
        some (decimal (← optional uint8? precision) (← optional uint8? scale))
      | _ => none
    | "Varchar", some content => some (varchar (← optional uint32? (some content)))
    | "Array", some content => some (array (← ofDocumentAt? depth content))
    | "Custom", some content => some (custom (← text? content))
    | _, _ => if isBare content then (← Named.ofName? tag : TypeKind) |> ofKind? else none

/-- The type of a document. -/
def ofDocument? (j : Part) : Option DataType :=
  ofDocumentAt? (j.weight + 1) j

end DataType

/-! ## 2. Intervals and points -/

namespace Interval

def toDocument (i : Interval) : Json :=
  .object [("months", .ofInt i.months.toInt), ("days", .ofInt i.days.toInt),
    ("micros", .ofInt i.micros.toInt)]

def ofDocument? (j : Part) : Option Interval := do
  match ← recordFields? ["months", "days", "micros"] j with
  | [months, days, micros] =>
    some ⟨← needed int32? months, ← needed int32? days, ← needed int64? micros⟩
  | _ => none

end Interval

namespace Point

def ofDocument? (j : Part) : Option Point := do
  match ← recordFields? ["x", "y"] j with
  | [x, y] => some ⟨← needed double? x, ← needed double? y⟩
  | _ => none

end Point

/-! ## 3. Values -/

namespace Value

mutual

def toDocument : Value → Json
  | null => .text "Null"
  | bool b => tagged "Bool" (.bool b)
  | int n => tagged "Int" (.ofInt64 n)
  | uint n => tagged "UInt" (.ofUInt64 n)
  | float x => tagged "Float" (.ofDouble x)
  | decimal digits => tagged "Decimal" (.text digits)
  | text s => tagged "Text" (.text s)
  | bytes b => tagged "Bytes" (.array (b.map fun n => .ofNat n.toNat))
  | date d => tagged "Date" (.text d.render)
  | time t => tagged "Time" (.text t.render)
  | timestamp t => tagged "Timestamp" (.text (t.render "T"))
  | timestampTz t => tagged "TimestampTz" (.text t.renderZulu)
  | interval i => tagged "Interval" i.toDocument
  | point p => tagged "Point" (pointJson p)
  | json j => tagged "Json" j
  | array items => tagged "Array" (.array (toDocuments items))
  | object fields => tagged "Object" (.object (toFields fields))

def toDocuments : List Value → List Json
  | [] => []
  | item :: rest => item.toDocument :: toDocuments rest

def toFields : List (String × Value) → List (String × Json)
  | [] => []
  | (name, value) :: rest => (name, value.toDocument) :: toFields rest

end

/-- The fields of an object, read one by one. A name that stands twice keeps its place and takes its
    last value. -/
def fields? (read : Part → Option Value) : Part → Option (List (String × Value))
  | .object fields => do
    let pairs ← fields.mapM fun (name, j) => (read j).map fun value => (name, value)
    some (Fields.ofList pairs)
  | _ => none

/-- Reads a value, in which `depth` values may stand inside each other. -/
def ofDocumentAt? : (depth : Nat) → Part → Option Value
  | 0, _ => none
  | depth + 1, j => do
    let (tag, content) ← choice? j
    match tag, content with
    | "Bool", some j => some (bool (← bool? j))
    | "Int", some j => some (int (← int64? j))
    | "UInt", some j => some (uint (← uint64? j))
    | "Float", some j => some (float (← double? j))
    | "Decimal", some j => some (decimal (← text? j))
    | "Text", some j => some (text (← text? j))
    | "Bytes", some j => some (bytes (← list? uint8? j))
    | "Date", some j => some (date (← Date.ofPlan? (← text? j)))
    | "Time", some j => some (time (← Clock.ofPlan? (← text? j)))
    | "Timestamp", some j => some (timestamp (← Timestamp.ofPlan? (← text? j)))
    | "TimestampTz", some j => some (timestampTz (← OffsetTimestamp.ofPlan? (← text? j)))
    | "Interval", some j => some (interval (← Interval.ofDocument? j))
    | "Point", some j => some (point (← Point.ofDocument? j))
    | "Json", some j => some (json (← j.toJson?).settle)
    | "Array", some j => some (array (← list? (ofDocumentAt? depth) j))
    | "Object", some j => some (object (← fields? (ofDocumentAt? depth) j))
    | "Null", content => if isBare content then some null else none
    | _, _ => none

/-- The value of a document. -/
def ofDocument? (j : Part) : Option Value :=
  ofDocumentAt? (j.weight + 1) j

end Value

end QueryPlan
