import QueryPlan.Fields
import QueryPlan.Number.Double

/-!
# JSON values

Numbers are integers from `-2 ^ 63` up to `2 ^ 64 - 1` or finite doubles; `1` and `1.0` are
different numbers. Objects keep their fields in order. A text may give a name twice: `Json.settle`
leaves the first place and the last value.
-/

namespace QueryPlan

/-- A number in JSON text. -/
inductive JsonNumber where
  | integer (n : Int) (inRange : minInt64 ≤ n ∧ n ≤ maxUInt64)
  | double (x : Double) (finite : x.isFinite = true)
  deriving DecidableEq

/-- A JSON value. -/
inductive Json where
  | null
  | bool (b : Bool)
  | number (n : JsonNumber)
  | text (s : String)
  | array (items : List Json)
  | object (fields : List (String × Json))
  deriving Inhabited

namespace JsonNumber

/-- The double nearest to a number. -/
def toDouble : JsonNumber → Double
  | integer n _ => Double.ofInt n
  | double x _ => x

/-- Equality of numbers of one kind; the two zeros are equal. -/
def same : JsonNumber → JsonNumber → Bool
  | integer m _, integer n _ => m == n
  | double x _, double y _ => x.sameNumber y
  | _, _ => false

end JsonNumber

namespace Json

def ofInt64 (n : Int64) : Json :=
  .number (.integer n.toInt 
    ⟨by have := n.le_toInt; unfold minInt64; omega, by have := n.toInt_lt; unfold maxUInt64; omega⟩)

def ofUInt64 (n : UInt64) : Json :=
  .number (.integer n.toNat 
    ⟨by unfold minInt64; omega, by have := n.toNat_lt; unfold maxUInt64; omega⟩)

/-- A double, or `null` if it is not finite. -/
def ofDouble (x : Double) : Json :=
  if h : x.isFinite = true then .number (.double x h) else .null

/-- An integer, or `null` if it is out of range. -/
def ofInt (n : Int) : Json :=
  if h : minInt64 ≤ n ∧ n ≤ maxUInt64 then .number (.integer n h) else .null

def ofNat (n : Nat) : Json :=
  ofInt n

/-- A value that may be missing, which is `null`. -/
def ofOption {α : Type} (encode : α → Json) : Option α → Json
  | none => .null
  | some a => encode a

/-- A list of texts. -/
def ofTexts (texts : List String) : Json :=
  .array (texts.map .text)

/-- The double that a number denotes. -/
def double? : Json → Option Double
  | number n => some n.toDouble
  | _ => none

mutual

/-- The number of values that a value is made of. -/
def weight : Json → Nat
  | array items => weightItems items + 1
  | object fields => weightFields fields + 1
  | _ => 1

def weightItems : List Json → Nat
  | [] => 0
  | item :: rest => weight item + weightItems rest

def weightFields : List (String × Json) → Nat
  | [] => 0
  | (_, value) :: rest => weight value + weightFields rest

end

mutual

/-- Removes repeated names: a name keeps its first place and takes its last value. -/
def settle : Json → Json
  | array items => array (settleItems items)
  | object fields => object (Fields.ofList (settleFields fields))
  | other => other

def settleItems : List Json → List Json
  | [] => []
  | item :: rest => settle item :: settleItems rest

def settleFields : List (String × Json) → List (String × Json)
  | [] => []
  | (name, value) :: rest => (name, settle value) :: settleFields rest

end

mutual

/-- Equality of values: arrays item by item, objects name by name in any order. -/
def same : Json → Json → Bool
  | null, null => true
  | bool a, bool b => a == b
  | number m, number n => m.same n
  | text s, text t => s == t
  | array xs, array ys => sameItems xs ys
  | object xs, object ys => xs.length == ys.length && sameFields xs ys
  | _, _ => false

def sameItems : List Json → List Json → Bool
  | [], [] => true
  | x :: xs, y :: ys => same x y && sameItems xs ys
  | _, _ => false

/-- Whether each field on the left has an equal one on the right. -/
def sameFields : List (String × Json) → List (String × Json) → Bool
  | [], _ => true
  | (name, x) :: rest, ys =>
    (match Fields.get? ys name with
      | some y => same x y
      | none => false) && sameFields rest ys

end

end Json

end QueryPlan
