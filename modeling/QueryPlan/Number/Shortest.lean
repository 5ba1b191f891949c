import QueryPlan.Number.Double

/-!
# The shortest decimal of a double

A decimal denotes a double when it lies in the interval of reals that round to it; the ends of that
interval belong to it exactly when the mantissa is even. `Double.shortest` is the decimal with the
fewest digits in that interval and, of two with as many digits, the one nearer to the double. Which
way an exact tie goes is for the caller to say.

All comparisons are made on natural numbers, after both sides are multiplied by the same powers of
two and ten.
-/

namespace QueryPlan

/-- The decimal `digits · 10 ^ exponent`. -/
structure Decimal where
  digits : Nat
  exponent : Int
  deriving DecidableEq, Inhabited

/-- Which of two equally near decimals is taken. -/
inductive Tie where
  | toEven
  | up
  deriving DecidableEq

namespace Double

/-- A positive finite double and the interval that rounds to it, in units of a common grain:
    the double is `value`, the ends are `low` and `high`, and a decimal `d · 10 ^ power` is
    `d * step`. -/
structure Grid where
  value : Nat
  low : Nat
  high : Nat
  step : Nat
  closed : Bool

/-- The grid of the decimals with the exponent `power` around a positive finite double. Below a
    power of two the neighbours lie at half the distance. -/
def grid (x : Double) (power : Int) : Grid :=
  let q := x.scale - 2
  let twos := twoTo (-q).toNat
  let tens := tenTo (-power).toNat
  let unit := twoTo q.toNat * tens
  let below := if x.fractionField = 0 ∧ 1 < x.exponentField then 1 else 2
  { value := 4 * x.mantissa * unit
    low := (4 * x.mantissa - below) * unit
    high := (4 * x.mantissa + 2) * unit
    step := tenTo power.toNat * twos
    closed := x.mantissa % 2 == 0 }

/-- Whether a point lies in the interval. -/
def Grid.holds (g : Grid) (point : Nat) : Bool :=
  if g.closed then g.low ≤ point && point ≤ g.high else g.low < point && point < g.high

/-- The one of the two neighbours of the value on the grid that lies in the interval, the nearer
    one if both do. -/
def Grid.hit (g : Grid) (tie : Tie) : Option Nat :=
  let down := g.value / g.step
  let up := down + 1
  match g.holds (down * g.step), g.holds (up * g.step) with
  | false, false => none
  | true, false => some down
  | false, true => some up
  | true, true =>
    let left := g.value - down * g.step
    let right := up * g.step - g.value
    if left < right then some down
    else if right < left then some up
    else
      match tie with
      | .toEven => some (if down % 2 = 0 then down else up)
      | .up => some up

/-- The exponent of the leading decimal digit of a positive finite double. The binary exponent
    gives it up to one. -/
def leadingExponent (x : Double) : Int :=
  let guess : Int := ((x.mantissa.log2 : Int) + x.scale) * 30103 / 100000
  let reaches (power : Int) : Bool :=
    let g := x.grid power
    g.step ≤ g.value
  if reaches (guess + 1) then guess + 1 else if reaches guess then guess else guess - 1

/-- A decimal without zeros at its end. The first argument bounds the number of steps. -/
def trimZeros : Nat → Decimal → Decimal
  | 0, d => d
  | fuel + 1, d =>
    if d.digits ≠ 0 ∧ d.digits % 10 = 0 then trimZeros fuel ⟨d.digits / 10, d.exponent + 1⟩ else d

/-- The shortest decimal of the magnitude of a finite double other than zero. Seventeen digits
    always suffice. -/
def shortest (tie : Tie) (x : Double) : Decimal :=
  let lead := x.leadingExponent
  let found := (List.range 17).findSome? fun (more : Nat) =>
    let power := lead - more
    ((x.grid power).hit tie).map fun digits => trimZeros 20 ⟨digits, power⟩
  found.getD ⟨0, 0⟩

end Double

end QueryPlan
