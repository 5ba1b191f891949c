import QueryPlan.Number.Basic

/-!
# Binary floating point numbers

`Double` is the format binary64 of IEEE 754, kept as its 64 bits. Every operation here is the exact
result rounded once to the nearest double, ties to even (`Double.ofRatio`), so that a number is
never anything but exact integer arithmetic followed by one rounding.

A finite double is `± mantissa · 2 ^ scale`.
-/

namespace QueryPlan

/-- A number of the format binary64, as its 64 bits: sign, eleven bits of exponent, 52 of
    fraction. -/
structure Double where
  bits : UInt64
  deriving DecidableEq, Inhabited

namespace Double

/-! ## 1. The parts of a double -/

/-- The eleven bits of the exponent. -/
def exponentField (x : Double) : Nat :=
  x.bits.toNat / twoTo 52 % twoTo 11

/-- The 52 bits of the fraction. -/
def fractionField (x : Double) : Nat :=
  x.bits.toNat % twoTo 52

/-- Whether the sign bit is set. -/
def isNegative (x : Double) : Bool :=
  twoTo 63 ≤ x.bits.toNat

def isFinite (x : Double) : Bool :=
  x.exponentField != 2047

def isNaN (x : Double) : Bool :=
  x.exponentField == 2047 && x.fractionField != 0

def isInfinite (x : Double) : Bool :=
  x.exponentField == 2047 && x.fractionField == 0

/-- The integer that a finite double scales by a power of two. -/
def mantissa (x : Double) : Nat :=
  if x.exponentField = 0 then x.fractionField else twoTo 52 + x.fractionField

/-- The power of two that scales the mantissa; the subnormal numbers share that of the smallest
    normal ones. -/
def scale (x : Double) : Int :=
  (max 1 x.exponentField : Nat) - 1075

def isZero (x : Double) : Bool :=
  x.isFinite && x.mantissa == 0

/-- The double with a sign and the bits of its magnitude. -/
def ofMagnitude (negative : Bool) (magnitude : Nat) : Double :=
  ⟨UInt64.ofNat (if negative then twoTo 63 + magnitude else magnitude)⟩

def zero (negative : Bool) : Double :=
  ofMagnitude negative 0

def infinity (negative : Bool) : Double :=
  ofMagnitude negative (2047 * twoTo 52)

def nan : Double :=
  ofMagnitude false (2047 * twoTo 52 + twoTo 51)

/-! ## 2. Rounding -/

/-- The quotient rounded to the nearest integer, a half to the even one. -/
def roundQuotient (num den : Nat) : Nat :=
  let quotient := num / den
  let twice := 2 * (num % den)
  if den < twice || (twice == den && quotient % 2 == 1) then quotient + 1 else quotient

/-- The fraction `num / (den · 2 ^ q)`, as a numerator and a denominator. -/
def scaleDown (num den : Nat) (q : Int) : Nat × Nat :=
  if 0 ≤ q then (num, den * twoTo q.toNat) else (num * twoTo (-q).toNat, den)

/-- The scale at which a fraction is rounded: the one at which the quotient has 53 binary digits,
    but never below that of the subnormal numbers. -/
def roundingScale (num den : Nat) : Int :=
  let least : Int := max ((num.log2 : Int) - den.log2 - 53) (-1074)
  let scaled := scaleDown num den least
  if scaled.2 * twoTo 53 ≤ scaled.1 then least + 1 else least

/-- The bits of the magnitude that a fraction is rounded to. A mantissa that rounds up to `2 ^ 53`
    carries into the exponent by itself. -/
def roundedBits (num den : Nat) : Nat :=
  let q := roundingScale num den
  let scaled := scaleDown num den q
  roundQuotient scaled.1 scaled.2 + (q + 1074).toNat * twoTo 52

/-- The double nearest to `± num / den`; magnitudes beyond the largest double become infinite. -/
def ofRatio (negative : Bool) (num den : Nat) : Double :=
  if num = 0 then zero negative
  else
    let bits := roundedBits num den
    if 2047 * twoTo 52 ≤ bits then infinity negative else ofMagnitude negative bits

/-- The double nearest to `± m · 2 ^ q`. -/
def ofScaled (negative : Bool) (m : Nat) (q : Int) : Double :=
  if 0 ≤ q then ofRatio negative (m * twoTo q.toNat) 1 else ofRatio negative m (twoTo (-q).toNat)

def ofNat (n : Nat) : Double :=
  ofRatio false n 1

def ofInt (n : Int) : Double :=
  ofRatio (n < 0) n.natAbs 1

/-- Powers of ten beyond these limits decide the result alone: a non-zero numeral of `d` digits
    with a higher exponent is infinite, one with a lower exponent is zero. -/
def ofDecimal (negative : Bool) (digits : Nat) (exponent : Int) : Double :=
  if digits = 0 then zero negative
  else
    let width : Int := (Nat.log2 digits : Int) + 1
    if 400 < exponent then infinity negative
    else if exponent < -(400 + width) then zero negative
    else if 0 ≤ exponent then ofRatio negative (digits * tenTo exponent.toNat) 1
    else ofRatio negative digits (tenTo (-exponent).toNat)

/-! ## 3. Arithmetic -/

def mul (x y : Double) : Double :=
  let negative := x.isNegative != y.isNegative
  if x.isNaN || y.isNaN then nan
  else if x.isInfinite || y.isInfinite then
    if x.isZero || y.isZero then nan else infinity negative
  else ofScaled negative (x.mantissa * y.mantissa) (x.scale + y.scale)

def div (x y : Double) : Double :=
  let negative := x.isNegative != y.isNegative
  if x.isNaN || y.isNaN then nan
  else if x.isInfinite then if y.isInfinite then nan else infinity negative
  else if y.isInfinite then zero negative
  else if y.isZero then if x.isZero then nan else infinity negative
  else
    let (num, den) := scaleDown x.mantissa y.mantissa (y.scale - x.scale)
    ofRatio negative num den

/-- The mantissa with its sign, moved to a scale that is not above its own. -/
def signedAt (x : Double) (q : Int) : Int :=
  let m : Int := x.mantissa * twoTo (x.scale - q).toNat
  if x.isNegative then -m else m

def add (x y : Double) : Double :=
  if x.isNaN || y.isNaN then nan
  else if x.isInfinite then
    if y.isInfinite && x.isNegative != y.isNegative then nan else x
  else if y.isInfinite then y
  else if x.isZero && y.isZero then zero (x.isNegative && y.isNegative)
  else
    let q := min x.scale y.scale
    let sum := x.signedAt q + y.signedAt q
    ofScaled (sum < 0) sum.natAbs q

instance : Mul Double := ⟨mul⟩
instance : Div Double := ⟨div⟩
instance : Add Double := ⟨add⟩

/-- Equality of numbers: a NaN differs from all, and the two zeros are equal. -/
def sameNumber (x y : Double) : Bool :=
  !x.isNaN && !y.isNaN && (x == y || (x.isZero && y.isZero))

/-! ## 4. Integers -/

/-- Whether a double is a finite integer. -/
def isWhole (x : Double) : Bool :=
  x.isFinite && (0 ≤ x.scale || x.mantissa % twoTo (-x.scale).toNat == 0)

/-- The integer that is left of a finite double without its fraction. -/
def truncate (x : Double) : Int :=
  let m : Nat :=
    if 0 ≤ x.scale then x.mantissa * twoTo x.scale.toNat else x.mantissa / twoTo (-x.scale).toNat
  if x.isNegative then -m else m

/-- The integer nearest to a finite double, a half away from zero. -/
def nearest (x : Double) : Int :=
  let m : Nat :=
    if 0 ≤ x.scale then x.mantissa * twoTo x.scale.toNat
    else (2 * x.mantissa + twoTo (-x.scale).toNat) / twoTo ((-x.scale).toNat + 1)
  if x.isNegative then -m else m

/-- An integer moved into a range. -/
def clamp (least greatest n : Int) : Int :=
  max least (min greatest n)

/-- An integer made of a double by `convert`, moved into a range. Infinities go to its ends and a
    NaN to zero. -/
def saturate (convert : Double → Int) (least greatest : Int) (x : Double) : Int :=
  if x.isNaN then 0
  else if x.isInfinite then if x.isNegative then least else greatest
  else clamp least greatest (convert x)

end Double

end QueryPlan
