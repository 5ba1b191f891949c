import QueryPlan.Number.Shortest

/-!
# How doubles are written

All spellings write the shortest decimal that reads back. They differ in the decisions that
`Spelling` collects: which exponents are written positionally, whether a whole number keeps a
fraction, whether a positive exponent has a sign, and what stands for the numbers that are not
finite. The three spellings in use are values of it.
-/

namespace QueryPlan

/-- The decisions of one way to write doubles. -/
structure Spelling where
  /-- Whether a number whose leading digit has this exponent is written positionally. -/
  positional : Int → Bool
  /-- Whether a whole number that is written positionally ends in `.0`. -/
  fraction : Bool
  /-- Whether a positive exponent has a plus sign. -/
  plus : Bool
  tie : Tie
  nan : String
  infinity : Bool → String

namespace Spelling

/-- Numbers in JSON text: positional from `0.00001` up to sixteen digits; what is not finite is
    `null`. -/
def json : Spelling :=
  { positional := fun e => -5 ≤ e && e < 16
    fraction := true
    plus := true
    tie := .toEven
    nan := "null"
    infinity := fun _ => "null" }

/-- Number literals in SQL: positional from `0.0001` up to sixteen digits. -/
def literal : Spelling :=
  { positional := fun e => -4 ≤ e && e < 16
    fraction := true
    plus := false
    tie := .up
    nan := "NaN"
    infinity := fun negative => if negative then "-inf" else "inf" }

/-- Numbers as running text: always positional, and a whole number has no fraction. -/
def plain : Spelling :=
  { positional := fun _ => true
    fraction := false
    plus := false
    tie := .up
    nan := "NaN"
    infinity := fun negative => if negative then "-inf" else "inf" }

end Spelling

/-- The decimal digits of a natural number. -/
def digitsOf (n : Nat) : List Char :=
  Nat.toDigits 10 n

/-- The digits of a number written positionally; `lead` is the exponent of the first one. -/
def positionalDigits (whole : List Char) (digits : List Char) (lead : Int) : List Char :=
  if lead < 0 then ['0', '.'] ++ List.replicate (-lead - 1).toNat '0' ++ digits
  else
    let width := lead.toNat + 1
    if digits.length ≤ width then digits ++ List.replicate (width - digits.length) '0' ++ whole
    else digits.take width ++ ['.'] ++ digits.drop width

/-- The digits of a number in scientific notation. -/
def scientificDigits (plus : Bool) (digits : List Char) (lead : Int) : List Char :=
  let mantissa :=
    match digits with
    | first :: rest@(_ :: _) => first :: '.' :: rest
    | _ => digits
  let sign := if lead < 0 then ['-'] else if plus then ['+'] else []
  mantissa ++ ['e'] ++ sign ++ digitsOf lead.natAbs

/-- A double in a given spelling. -/
def Double.spell (spelling : Spelling) (x : Double) : String :=
  if x.isNaN then spelling.nan
  else if x.isInfinite then spelling.infinity x.isNegative
  else
    let sign := if x.isNegative then ['-'] else []
    let (digits, lead) : List Char × Int :=
      if x.isZero then (['0'], 0)
      else
        let decimal := x.shortest spelling.tie
        let digits := digitsOf decimal.digits
        (digits, decimal.exponent + (digits.length - 1 : Nat))
    let body :=
      if spelling.positional lead then
        positionalDigits (if spelling.fraction then ['.', '0'] else []) digits lead
      else scientificDigits spelling.plus digits lead
    String.ofList (sign ++ body)

end QueryPlan
