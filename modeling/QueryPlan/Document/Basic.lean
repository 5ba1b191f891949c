import QueryPlan.Document.Part
import QueryPlan.Named

/-!
# Plan documents

Plans, values and types are kept in JSON documents. A record is an object with its fields in order.
A choice is an object with one field, which is named for the alternative and holds its content; an
alternative without content is its name alone.

When a document is read, a field that may be missing is nothing where it is missing or `null`,
fields that are not known are skipped, and a known field may stand only once. A record may also be
given as the array of all its fields, and in a text so may the fields of an alternative.
-/

namespace QueryPlan.Document

/-! ## 1. Writing -/

/-- An alternative with its content. -/
def tagged (tag : String) (content : Json) : Json :=
  .object [(tag, content)]

/-- A member of a closed family, by its name. -/
def ofNamed {κ : Type} [Named κ] (k : κ) : Json :=
  .text (Named.name k)

def ofBool (b : Bool) : Json :=
  .bool b

def ofText (s : String) : Json :=
  .text s

/-! ## 2. Reading -/

/-- The value of a field that stands once; nothing if it is missing. Fails if it stands twice. -/
def field? (fields : List (String × Part)) (name : String) : Option (Option Part) :=
  match fields.filter fun (key, _) => key == name with
  | [] => some none
  | [(_, value)] => some (some value)
  | _ => none

/-- The fields of an alternative, each in its place: given by name or, in a text, as the array of
    all of them. -/
def contentFields? (names : List String) : Part → Option (List (Option Part))
  | .object fields => names.mapM (field? fields)
  | .array items true => if items.length = names.length then some (items.map some) else none
  | _ => none

/-- The fields of a record, given by name or as the array of all of them. -/
def recordFields? (names : List String) : Part → Option (List (Option Part))
  | .object fields => names.mapM (field? fields)
  | .array items _ => if items.length = names.length then some (items.map some) else none
  | _ => none

/-- The alternative of a choice, and its content. -/
def choice? : Part → Option (String × Option Part)
  | .text tag => some (tag, none)
  | .object [(tag, content)] => some (tag, some content)
  | _ => none

/-- Whether an alternative has no content. -/
def isBare : Option Part → Bool
  | none => true
  | some j => j.isNull

/-- A field that must be there. -/
def needed {α : Type} (read : Part → Option α) (j : Option Part) : Option α :=
  j.bind read

/-- A field that may be missing. -/
def optional {α : Type} (read : Part → Option α) : Option Part → Option (Option α)
  | none => some none
  | some .null => some none
  | some j => (read j).map some

def list? {α : Type} (read : Part → Option α) : Part → Option (List α)
  | .array items _ => items.mapM read
  | _ => none

def pair? {α β : Type} (left : Part → Option α) (right : Part → Option β) :
    Part → Option (α × β)
  | .array [a, b] _ => do
    let a ← left a
    let b ← right b
    some (a, b)
  | _ => none

def text? : Part → Option String
  | .text s => some s
  | _ => none

def bool? : Part → Option Bool
  | .bool b => some b
  | _ => none

def double? : Part → Option Double
  | .number n => some n.toDouble
  | _ => none

/-- An integer in a range. -/
def integerIn? (least greatest : Int) : Part → Option Int
  | .number (.integer n _) => if least ≤ n ∧ n ≤ greatest then some n else none
  | _ => none

def int64? (j : Part) : Option Int64 :=
  (integerIn? minInt64 maxInt64 j).map Int64.ofInt

def int32? (j : Part) : Option Int32 :=
  (integerIn? minInt32 maxInt32 j).map Int32.ofInt

def uint64? (j : Part) : Option UInt64 :=
  (integerIn? 0 maxUInt64 j).map fun n => UInt64.ofNat n.toNat

def uint32? (j : Part) : Option UInt32 :=
  (integerIn? 0 maxUInt32 j).map fun n => UInt32.ofNat n.toNat

def uint8? (j : Part) : Option UInt8 :=
  (integerIn? 0 255 j).map fun n => UInt8.ofNat n.toNat

/-- A member of a closed family: its name, or an alternative without content. -/
def named? {κ : Type} [Named κ] (j : Part) : Option κ := do
  let (tag, content) ← choice? j
  if isBare content then Named.ofName? tag else none

end QueryPlan.Document
