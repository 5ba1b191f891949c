import QueryPlan.Coerce.Basic
import QueryPlan.Decode.Detect
import QueryPlan.Decode.Plan

/-!
# Decoding values

A value of a column is decoded by the rule of the column: coerced, detected, or unfolded if it is
the JSON of a sub-query. The JSON may come as text, as bytes or as a value that is already parsed.
-/

namespace QueryPlan

/-! ## 1. Folded values -/

mutual

/-- The number of values and characters that a JSON value is made of. -/
def Json.size : Json → Nat
  | .text s => s.length + 1
  | .array items => Json.sizeItems items + 1
  | .object fields => Json.sizeFields fields + 1
  | _ => 1

def Json.sizeItems : List Json → Nat
  | [] => 0
  | item :: rest => item.size + Json.sizeItems rest

def Json.sizeFields : List (String × Json) → Nat
  | [] => 0
  | (_, value) :: rest => value.size + Json.sizeFields rest

end

mutual

/-- The number of values, characters and bytes that a value is made of. -/
def Value.size : Value → Nat
  | .text s => s.length + 1
  | .bytes b => b.length + 1
  | .json j => j.size + 1
  | .array items => Value.sizeItems items + 1
  | .object fields => Value.sizeFields fields + 1
  | _ => 1

def Value.sizeItems : List Value → Nat
  | [] => 0
  | item :: rest => item.size + Value.sizeItems rest

def Value.sizeFields : List (String × Value) → Nat
  | [] => 0
  | (_, value) :: rest => value.size + Value.sizeFields rest

end

namespace Decode

/-- How a column is named in messages. -/
def columnName (label : String) : String :=
  s!"column `{label}`"

/-- The error of a column whose JSON cannot be read. -/
def syntaxError (label : String) (e : Json.SyntaxError) : Error :=
  .ofCause (.expected (some (columnName label)) "JSON" e.message)

/-- The error of a folded value that has another form than its sub-query gives it. -/
def shapeError (label wanted : String) (found : Value) : Error :=
  .ofCause (.expected (some (columnName label)) wanted found.toJson.render)

/-- A folded value that is parsed. -/
def unfold (label : String) : Value → Except Error Value
  | .text s =>
    match Json.parse s with
    | .ok j => .ok (.ofJson j)
    | .error e => .error (syntaxError label e)
  | .bytes b =>
    match Json.parseBytes b with
    | .ok j => .ok (.ofJson j)
    | .error e => .error (syntaxError label e)
  | .json j => .ok (.ofJson j)
  | v => .ok v

/-- The single row of a folded value, which may be wrapped in arrays; the first item counts, and an
    empty array is a null. Unfolding makes a value smaller, so that its size bounds the depth. -/
def unfoldSingle (label : String) : (depth : Nat) → Value → Except Error Value
  | 0, v => unfold label v
  | depth + 1, v => do
    match ← unfold label v with
    | .array [] => return .null
    | .array (item :: _) => unfoldSingle label depth item
    | w => return w

/-- An item of a list. Where rows are folded as objects, the item is an object with one field. -/
def listItem : Value → Value
  | .object [(_, v)] => v
  | v => v

end Decode

/-! ## 2. Rules -/

open Decode

/-- A row: without a plan for its columns it stays as it is, else `decode` gives its fields. -/
def Decode.row (columns : List ColumnPlan) (fields : List (String × Value))
    (decode : List (String × Value) → Except Error (List (String × Value))) : Except Error Value :=
  if columns.isEmpty then .ok (.object fields) else (decode fields).map Value.object

mutual

/-- A value of a column, decoded by its rule. -/
def DecodeRule.decode (o : DetectOptions) :
    DecodeRule → (label : String) → Value → Except Error Value
  | .typed type, label, v => (v.coerce type).mapError (Error.orWho (columnName label))
  | .nested plan, label, v => plan.decodeNested o label v
  | .untyped, label, v => .ok (o.apply label v)

/-- The result of a sub-query that was folded into one value. -/
def DecodePlan.decodeNested (o : DetectOptions) :
    DecodePlan → (label : String) → Value → Except Error Value
  | ⟨_, shape, columns, _, _⟩, label, v =>
    match shape with
    | .first | .value => do
      match ← unfoldSingle label v.size v with
      | .null => return .null
      | .object fields => row columns fields fun fields => decodeFields o columns fields []
      | other => throw (shapeError label "an array" other)
    | .rows => do
      match ← unfold label v with
      | .null => return .array []
      | .array items =>
        let rows ← items.mapM fun
          | .object fields => row columns fields fun fields => decodeFields o columns fields []
          | other => throw (shapeError label "an object" other)
        return .array rows
      | other => throw (shapeError label "an array" other)
    | .list => do
      match ← unfold label v with
      | .null => return .array []
      | .array items =>
        return .array (← items.mapM fun item => decodeItem o columns (listItem item))
      | other => throw (shapeError label "an array" other)

/-- The fields that are left of a row, behind those that are decoded. A field is used once, and one
    that is missing is null. -/
def decodeFields (o : DetectOptions) :
    List ColumnPlan → (fields decoded : List (String × Value)) →
      Except Error (List (String × Value))
  | [], _, decoded => .ok decoded
  | ⟨label, rule⟩ :: columns, fields, decoded => do
    let w ← rule.decode o label ((Fields.get? fields label).getD .null)
    decodeFields o columns (Fields.erase fields label) (Fields.insert decoded label w)

/-- An item of a list, decoded as the first column. -/
def decodeItem (o : DetectOptions) : List ColumnPlan → Value → Except Error Value
  | [], item => .ok item
  | ⟨label, rule⟩ :: _, item => rule.decode o label item

end

end QueryPlan
