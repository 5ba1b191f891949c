/-!
# Powers and ranges

The powers of two and ten that numbers are scaled by, and the ends of the integers of 32 and 64
bits. The ends are literals, so that linear arithmetic can use them once they are unfolded.
-/

namespace QueryPlan

/-! ## 1. Powers -/

/-- Two to the power of `n`. -/
def twoTo (n : Nat) : Nat := Nat.pow 2 n

/-- Ten to the power of `n`. -/
def tenTo (n : Nat) : Nat := Nat.pow 10 n

/-! ## 2. Ranges -/

/-- The least signed integer of 32 bits. -/
def minInt32 : Int := -2147483648

/-- The greatest signed integer of 32 bits. -/
def maxInt32 : Int := 2147483647

/-- The greatest unsigned integer of 32 bits. -/
def maxUInt32 : Int := 4294967295

/-- The least signed integer of 64 bits. -/
def minInt64 : Int := -9223372036854775808

/-- The greatest signed integer of 64 bits. -/
def maxInt64 : Int := 9223372036854775807

/-- The greatest unsigned integer of 64 bits. -/
def maxUInt64 : Int := 18446744073709551615

end QueryPlan
