import QueryPlan.Number.Double

/-!
# Reading numerals

Integers are an optional sign and at least one ASCII digit. Doubles are decimal numerals with an
optional sign, fraction and exponent, or one of the words `inf`, `infinity` and `nan` in any case;
they round to the nearest double. Nothing may stand before or behind a numeral, blanks included.
-/

namespace QueryPlan

namespace Numeral

/-- The value of an ASCII digit. -/
def digit? (c : Char) : Option Nat :=
  if '0' ≤ c && c ≤ '9' then some (c.toNat - '0'.toNat) else none

/-- Whether a character is an ASCII digit. -/
def isDigit (c : Char) : Bool :=
  '0' ≤ c && c ≤ '9'

/-- The number that a list of digits denotes, read after the digits of `start`. -/
def valueFrom (start : Nat) (digits : List Char) : Nat :=
  digits.foldl (fun n c => 10 * n + (c.toNat - '0'.toNat)) start

/-- The longest run of digits in front, and what follows it. -/
def spanDigits (cs : List Char) : List Char × List Char :=
  (cs.takeWhile isDigit, cs.dropWhile isDigit)

/-- A natural number: one digit or more and nothing else. -/
def natural? (cs : List Char) : Option Nat :=
  if !cs.isEmpty && cs.all isDigit then some (valueFrom 0 cs) else none

/-- A sign in front, if there is one, and what follows it. -/
def splitSign : List Char → Bool × List Char
  | '-' :: cs => (true, cs)
  | '+' :: cs => (false, cs)
  | cs => (false, cs)

/-- An integer with an optional sign. -/
def integer? (cs : List Char) : Option Int :=
  let (negative, digits) := splitSign cs
  (natural? digits).map fun n => if negative then -(n : Int) else n

/-- A natural number with an optional plus sign. -/
def unsigned? (cs : List Char) : Option Nat :=
  match cs with
  | '+' :: digits => natural? digits
  | _ => natural? cs

/-- An integer in a range. -/
def integerIn? (least greatest : Int) (cs : List Char) : Option Int :=
  (integer? cs).filter fun n => least ≤ n && n ≤ greatest

/-- The exponent of a numeral: nothing, or `e`, a sign and digits. -/
def exponent? : List Char → Option Int
  | [] => some 0
  | c :: cs => if c == 'e' || c == 'E' then integer? cs else none

/-- A decimal numeral without its sign: its digits as one number, and the power of ten that scales
    it. A point needs a digit on one side at least. -/
def decimal? (cs : List Char) : Option (Nat × Int) :=
  let (whole, rest) := spanDigits cs
  let (fraction, rest) :=
    match rest with
    | '.' :: behind => spanDigits behind
    | _ => ([], rest)
  if whole.isEmpty && fraction.isEmpty then none
  else
    (exponent? rest).map fun e =>
      (valueFrom (valueFrom 0 whole) fraction, e - fraction.length)

/-- The words that denote a double. -/
def special? (negative : Bool) (cs : List Char) : Option Double :=
  let word := String.ofList (cs.map Char.toLower)
  if word == "nan" then some Double.nan
  else if word == "inf" || word == "infinity" then some (Double.infinity negative)
  else none

end Numeral

/-- The double that a text denotes. -/
def Double.ofText? (s : String) : Option Double :=
  let (negative, cs) := Numeral.splitSign s.toList
  match Numeral.decimal? cs with
  | some (digits, exponent) => some (Double.ofDecimal negative digits exponent)
  | none => Numeral.special? negative cs

end QueryPlan
