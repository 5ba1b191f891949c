import QueryPlan.Coerce.ArrayText
import QueryPlan.Coerce.Geometry
import QueryPlan.Error
import QueryPlan.Json.Printer

/-!
# Coercion

A value is converted toward a declared type when a parameter is bound and when a typed column is
decoded. A null stays a null, and types that are not known leave values as they are.
-/

namespace QueryPlan

/-- The name of a type in messages. -/
def DataType.describe : DataType → String
  | .array element => element.describe ++ "[]"
  | .custom name => name
  | t => lowerAscii (Worded.keyword t.kind)

namespace Value

/-- A value in messages. -/
def describe : Value → String
  | text s => s!"text `{s}`"
  | bytes b => s!"{b.length} bytes"
  | json j => "json `" ++ j.render ++ "`"
  | v => "`" ++ v.toJson.render ++ "`"

/-- The error of a value that does not have the form that is expected of it. -/
def mismatch (wanted found : String) : Error :=
  .ofCause (.expected none wanted found)

/-- A value of a type that is no array. -/
def convert? (v : Value) : DataType → Option Value
  | .boolean => v.toBool?.map bool
  | .smallInt | .integer | .bigInt => v.toInt?.map int
  | .unsignedInteger | .unsignedBigInt => v.toUInt?.map uint
  | .real | .double => v.toFloat?.map float
  | .decimal _ _ => v.toDecimal?.map decimal
  | .text | .varchar _ | .uuid => v.toText?.map text
  | .bytes => v.toBytes?.map bytes
  | .date => v.toDate?.map date
  | .time => v.toTime?.map time
  | .timestamp => v.toTimestamp?.map timestamp
  | .timestampTz => v.toTimestampTz?.map timestampTz
  | .interval => v.toInterval?.map interval
  | .json => v.toJson?.map json
  | .point => v.toPoint?.map point
  | .custom _ => some v
  | .array _ => none

/-- The items of an array in text: as JSON if it begins with a bracket. -/
def itemsOfText (element : DataType) (s : String) : Except Error (List Value) :=
  let cs := Text.trim s.toList
  if cs.head? = some '[' then
    match Json.parse (String.ofList cs) with
    | .ok (.array items) => .ok (ofJsonItems items)
    | .ok j => .error (mismatch ("an array of " ++ element.describe) (json j).describe)
    | .error e => .error (mismatch "an array" e.message)
  else
    match ArrayText.parse? cs with
    | some items => .ok items
    | none => .error (mismatch ("an array of " ++ element.describe) (text s).describe)

/-- The items of an array in any of its forms. -/
def toItems (element : DataType) : Value → Except Error (List Value)
  | array items => .ok items
  | json (.array items) => .ok (ofJsonItems items)
  | text s => itemsOfText element s
  | v => .error (mismatch ("an array of " ++ element.describe) v.describe)

/-- A value converted toward a type. -/
def coerce : DataType → Value → Except Error Value
  | _, null => .ok null
  | .array element, v => do
    let items ← toItems element v
    return array (← items.mapM (coerce element))
  | t, v =>
    match v.convert? t with
    | some w => .ok w
    | none => .error (mismatch ("a value of type " ++ t.describe) v.describe)

end Value

end QueryPlan
