import QueryPlan.Coerce.Scalar
import QueryPlan.Options

/-!
# Detection

A column without a declared type can still be converted where its text clearly is a JSON object or
array, a date or a timestamp.
-/

namespace QueryPlan

namespace Detect

/-- Whether a text has digits where the pattern has `0` and else the characters of the pattern; what
    is left behind it. -/
def behind? : (pattern : List Char) → List Char → Option (List Char)
  | [], cs => some cs
  | p :: pattern, c :: cs =>
    if (if p = '0' then Numeral.isDigit c else p = c) then behind? pattern cs else none
  | _ :: _, [] => none

/-- Whether a text has the form of a date. -/
def isDate (cs : List Char) : Bool :=
  behind? "0000-00-00".toList cs == some []

/-- What is left behind the seconds and their fraction, if there are any. -/
def behindSeconds (cs : List Char) : List Char :=
  match behind? ":00".toList cs with
  | none => cs
  | some ('.' :: rest) =>
    let (digits, rest') := Numeral.spanDigits rest
    if digits.isEmpty then '.' :: rest else rest'
  | some rest => rest

/-- Whether a text is an offset. -/
def isOffset (cs : List Char) : Bool :=
  match cs with
  | ['Z'] => true
  | '+' :: rest | '-' :: rest =>
    ["00", "0000", "00:00"].any fun pattern => behind? pattern.toList rest == some []
  | _ => false

/-- Whether a text has the form of a timestamp; if so, whether it has an offset. -/
def timestampOffset? (cs : List Char) : Option Bool :=
  match behind? "0000-00-00T00:00".toList cs <|> behind? "0000-00-00 00:00".toList cs with
  | none => none
  | some rest =>
    let rest := behindSeconds rest
    if rest.isEmpty then some false else if isOffset rest then some true else none

/-- The JSON value of a text that begins like an object or array. -/
def json? (cs : List Char) : Option Value :=
  if cs.head? = some '\x7b' ∨ cs.head? = some '[' then
    (Value.jsonOf? (Json.parse (String.ofList cs))).map Value.json
  else none

/-- The date or timestamp of a text that has the form of one. -/
def date? (cs : List Char) (v : Value) : Option Value :=
  let date := if isDate cs then v.toDate?.map Value.date else none
  date <|>
    match timestampOffset? cs with
    | some true => v.toTimestampTz?.map Value.timestampTz
    | some false => v.toTimestamp?.map Value.timestamp
    | none => none

end Detect

/-- A value of a column without a declared type. Detectors come first; a value that is not
    recognised stays as it is. -/
def DetectOptions.apply (o : DetectOptions) (column : String) (v : Value) : Value :=
  match o.custom.findSome? fun detector => detector column v with
  | some detected => detected
  | none =>
    match v with
    | .text s =>
      let cs := Text.trim s.toList
      let json := if o.json then Detect.json? cs else none
      let date := if o.date then Detect.date? cs v else none
      (json <|> date).getD v
    | v => v

end QueryPlan
