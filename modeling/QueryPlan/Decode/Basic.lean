import QueryPlan.Decode.Nested

/-!
# Decoding results

A `Decoder` turns the rows that a database returns into the value that a statement asks for: all
rows, the first one, a single value or the list of the values of one column.
-/

namespace QueryPlan

/-! ## 1. Raw results -/

/-- A row as it comes from the database. -/
inductive RawRow where
  /-- Values in the order of the projection. -/
  | positional (values : List Value)
  /-- Values by the names of their columns. -/
  | named (fields : List (String × Value))

namespace RawRow

def length : RawRow → Nat
  | positional values => values.length
  | named fields => fields.length

def isEmpty (r : RawRow) : Bool :=
  r.length == 0

/-- Reads a row: an array, or an object in which the last of equal names counts. -/
def ofDocument? : Part → Option RawRow
  | .array items _ => (items.mapM Value.ofDocument?).map positional
  | .object fields => do
    let pairs ← fields.mapM fun (name, value) => do return (name, ← Value.ofDocument? value)
    return named (Fields.ofList pairs)
  | _ => none

end RawRow

/-- A result as it comes from the database. -/
structure RawResult where
  rows : List RawRow
  /-- The number of affected rows; if it is not given, the number of rows is taken. -/
  rowsAffected : Option UInt64

def RawResult.affectedCount (r : RawResult) : UInt64 :=
  r.rowsAffected.getD (UInt64.ofNat r.rows.length)

/-! ## 2. Rows -/

/-- Decodes the results of a statement. -/
structure Decoder where
  plan : DecodePlan
  options : Options

namespace Decoder

/-- The error of a row that lacks a column. -/
def missingColumn (d : Decoder) (index : Nat) (label : String) (fields : List (String × Value)) :
    Error :=
  let names := fields.map fun (name, _) => "`" ++ name ++ "`"
  (Error.ofCause (.notFound label "column")).pushHint
    (s!"row {index} of {d.plan.statement} statement has columns " ++ ", ".intercalate names)

/-- The raw value of a column at a position. -/
def columnValue (d : Decoder) (index : Nat) (row : RawRow) (position : Nat) (label : String) :
    Except Error Value :=
  match row with
  | .positional values => .ok (values.getD position .null)
  | .named fields =>
    match Fields.get? fields label with
    | some v => .ok v
    | none => .error (d.missingColumn index label fields)

/-- The columns of a row from a position on, behind those that are decoded. -/
def columnsFrom (d : Decoder) (index : Nat) (row : RawRow) :
    (position : Nat) → List ColumnPlan → (decoded : List (String × Value)) →
      Except Error (List (String × Value))
  | _, [], decoded => .ok decoded
  | position, ⟨label, rule⟩ :: columns, decoded => do
    let v ← d.columnValue index row position label
    let w ← rule.decode d.options.detect label v
    columnsFrom d index row (position + 1) columns (Fields.insert decoded label w)

/-- The columns of a row of which nothing is known. Without names they are numbered. -/
def plainColumns (d : Decoder) : RawRow → List (String × Value)
  | .positional values =>
    values.zipIdx.map fun (v, i) =>
      let name := toString i
      (name, d.options.detect.apply name v)
  | .named fields => fields.map fun (name, v) => (name, d.options.detect.apply name v)

/-- The columns of a row by their names. -/
def columns (d : Decoder) (index : Nat) (row : RawRow) : Except Error (List (String × Value)) :=
  let planned := d.plan.columns
  if planned.isEmpty then .ok (d.plainColumns row)
  else if row.length ≠ planned.length then
    .error (.ofCause (.rowWidth d.plan.statement index planned.length row.length))
  else d.columnsFrom index row 0 planned []

/-- A row as an object, or as an array in array mode. -/
def decodeRow (d : Decoder) (index : Nat) (row : RawRow) : Except Error Value := do
  let columns ← d.columns index row
  if d.options.arrayMode then return .array (columns.map Prod.snd) else return .object columns

/-- The value of the first column of a row. -/
def firstColumn (d : Decoder) (index : Nat) (row : RawRow) : Except Error Value := do
  match ← d.columns index row with
  | (_, v) :: _ => return v
  | [] => return .null

/-! ## 3. Results -/

/-- All rows, each decoded with its index. -/
def decodeRows (rows : List RawRow) (decode : Nat → RawRow → Except Error Value) :
    Except Error Value := do
  let values ← rows.zipIdx.mapM fun (row, index) => decode index row
  return .array values

/-- The first row, or a null. -/
def decodeFirst (rows : List RawRow) (decode : Nat → RawRow → Except Error Value) :
    Except Error Value :=
  match rows with
  | row :: _ => decode 0 row
  | [] => .ok .null

/-- A result in the shape that the statement asks for. -/
def decodeShaped (d : Decoder) (raw : RawResult) : Except Error Value :=
  match d.plan.shape with
  | .rows => decodeRows raw.rows d.decodeRow
  | .first => decodeFirst raw.rows d.decodeRow
  | .value => decodeFirst raw.rows d.firstColumn
  | .list => decodeRows raw.rows d.firstColumn

/-- A result, with the number of affected rows beside it if that is asked for. -/
def decode (d : Decoder) (raw : RawResult) : Except Error Value := do
  let affected := Value.uint raw.affectedCount
  let result ←
    if d.options.raw then decodeRows raw.rows d.decodeRow
    else if d.plan.affectedOnly then pure affected
    else d.decodeShaped raw
  if d.options.affectedCount then
    return .object [("affected", affected), ("result", result)]
  else return result

end Decoder

end QueryPlan
