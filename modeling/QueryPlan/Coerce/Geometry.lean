import QueryPlan.Coerce.Scalar

/-!
# Points

The forms in which points come: `(x,y)`, `POINT(x y)`, an object with `x` and `y`, a GeoJSON point,
and well-known binary.
-/

namespace QueryPlan

namespace Point

/-! ## 1. JSON -/

/-- A point given by its coordinates, or as a GeoJSON point. -/
def ofJson? : Json → Option Point
  | .object fields =>
    match Fields.get? fields "x", Fields.get? fields "y" with
    | some x, some y => do some ⟨← x.double?, ← y.double?⟩
    | _, _ =>
      match Fields.get? fields "type", Fields.get? fields "coordinates" with
      | some (.text "Point"), some (.array (x :: y :: _)) => do some ⟨← x.double?, ← y.double?⟩
      | _, _ => none
  | _ => none

/-! ## 2. Text -/

/-- What is left behind a word, in any case. -/
def behindWord? (word : List Char) (cs : List Char) : Option (List Char) :=
  if (cs.take word.length).map Char.toUpper = word then some (cs.drop word.length) else none

/-- What stands in parentheses, if the text is nothing else. -/
def inside? : List Char → Option (List Char)
  | '(' :: rest => if rest.getLast? = some ')' then some rest.dropLast else none
  | _ => none

/-- Two coordinates with a separator between them. Empty pieces are skipped. -/
def coordinates? (separator : Char) (cs : List Char) : Option Point :=
  let pieces := (Text.splitOn separator cs).map Text.trim
  match pieces.filter fun piece => !piece.isEmpty with
  | [x, y] => do some ⟨← Double.ofText? (String.ofList x), ← Double.ofText? (String.ofList y)⟩
  | _ => none

/-- A point in text that has no blanks around it. -/
def ofText? (cs : List Char) : Option Point :=
  if cs.head? = some '\x7b' then
    (Value.jsonOf? (Json.parse (String.ofList cs))).bind ofJson?
  else
    match behindWord? "POINT".toList cs with
    | some rest => (inside? (Text.trimFront rest)).bind (coordinates? ' ')
    | none => (inside? cs).bind (coordinates? ',')

/-! ## 3. Well-known binary -/

/-- The number that bytes spell, most significant first. -/
def natOfBytes (bytes : List UInt8) : Nat :=
  bytes.foldl (fun n b => n * 256 + b.toNat) 0

/-- A point as well-known binary: the byte order, the kind, and two doubles. -/
def ofBinary? : List UInt8 → Option Point
  | mark :: rest =>
    if rest.length ≠ 20 ∨ 1 < mark then none
    else
      let ordered (bytes : List UInt8) := if mark = 1 then bytes.reverse else bytes
      let number (start width : Nat) := natOfBytes (ordered ((rest.drop start).take width))
      let double (start : Nat) : Double := ⟨UInt64.ofNat (number start 8)⟩
      if number 0 4 = 1 then some ⟨double 4, double 12⟩ else none
  | [] => none

/-- A point as well-known binary, perhaps behind four bytes that name a coordinate system. -/
def ofBytes? (bytes : List UInt8) : Option Point :=
  if bytes.length = 25 then ofBinary? (bytes.drop 4) else ofBinary? bytes

end Point

def Value.toPoint? : Value → Option Point
  | .point p => some p
  | .text s => Point.ofText? (Text.trim s.toList)
  | .bytes b => Point.ofBytes? b
  | .json j => Point.ofJson? j
  | .object fields => Point.ofJson? (Value.object fields).toJson
  | _ => none

end QueryPlan
