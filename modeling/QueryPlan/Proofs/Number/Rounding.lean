import Mathlib.Algebra.Order.Field.Power
import Mathlib.Algebra.Order.Field.Rat
import Mathlib.Tactic.FieldSimp
import Mathlib.Tactic.Linarith
import Mathlib.Tactic.Positivity
import Mathlib.Tactic.Ring
import QueryPlan.Proofs.Number.Digits

/-!
# Rounding

A finite double has a rational number as its magnitude. `Double.ofRatio` gives the double whose
magnitude is nearest to a fraction: the error is at most one part in `2 ^ 53`
(`abs_magnitude_ofRatio_sub_le`), and integers below `2 ^ 53` are met exactly
(`ofRatio_isInteger`). As a product of doubles is rounded once, the same holds for products,
and what is made of a double as an integer is the integer that it was close to.
-/

namespace QueryPlan.Double

variable {den k num r : Nat}

/-- The magnitude of a finite double. -/
def magnitude (x : Double) : ℚ :=
  x.mantissa * 2 ^ x.scale

theorem cast_twoTo (n : Nat) : ((twoTo n : Nat) : ℚ) = 2 ^ n := by
  simp [twoTo]

theorem twoTo_pos (n : Nat) : 0 < twoTo n :=
  Nat.two_pow_pos n

theorem cast_lt_two_zpow {n : Nat} (h : k < twoTo n) : (k : ℚ) < 2 ^ (n : Int) := by
  rw [zpow_natCast, ← cast_twoTo]
  exact_mod_cast h

/-! ## 1. Quotients -/

section Quotients

variable {num den : Nat}

theorem scaleDown_den_pos {n : Nat} (hden : 0 < den) (q : Int) : 0 < (scaleDown n den q).2 := by
  unfold scaleDown
  split
  · exact Nat.mul_pos hden (twoTo_pos _)
  · exact hden

theorem scaleDown_ratio (num den : Nat) (q : Int) :
    ((scaleDown num den q).1 : ℚ) / (scaleDown num den q).2 = num / den / 2 ^ q := by
  unfold scaleDown
  split
  · next h =>
    obtain ⟨n, rfl⟩ := Int.eq_ofNat_of_zero_le h
    simp [cast_twoTo, div_div]
  · next h =>
    obtain ⟨n, rfl⟩ : ∃ n : Nat, q = -n := ⟨(-q).toNat, by omega⟩
    simp [cast_twoTo, div_eq_mul_inv, mul_right_comm]

/-- A quotient is rounded by a half at most. -/
theorem abs_roundQuotient_sub_le (num : Nat) (hden : 0 < den) :
    |(roundQuotient num den : ℚ) - num / den| ≤ 1 / 2 := by
  have hden' : (0 : ℚ) < den := by exact_mod_cast hden
  have hsplit : (num : ℚ) / den = (num / den : Nat) + ((num % den : Nat) : ℚ) / den := by
    have hmod : (num : ℚ) = den * (num / den : Nat) + (num % den : Nat) := by
      exact_mod_cast (Nat.div_add_mod num den).symm
    rw [hmod]
    field_simp
  have hrem : (0 : ℚ) ≤ ((num % den : Nat) : ℚ) / den := by positivity
  rw [hsplit]
  unfold roundQuotient
  dsimp only
  split
  · next hup =>
    have hhalf : (den : ℚ) ≤ 2 * (num % den : Nat) := by
      simp only [Bool.or_eq_true, Bool.and_eq_true, decide_eq_true_eq, beq_iff_eq] at hup
      exact_mod_cast (by omega : den ≤ 2 * (num % den))
    have hlt : ((num % den : Nat) : ℚ) < den := by exact_mod_cast Nat.mod_lt num hden
    have hlow : 1 / 2 ≤ ((num % den : Nat) : ℚ) / den := by
      rw [le_div_iff₀ hden']
      linarith
    have hhigh : ((num % den : Nat) : ℚ) / den < 1 := (div_lt_one hden').2 hlt
    push_cast
    rw [abs_le]
    constructor
    · linarith
    · linarith
  · next hdown =>
    have hhalf : 2 * ((num % den : Nat) : ℚ) ≤ den := by
      simp only [Bool.or_eq_true, Bool.and_eq_true, decide_eq_true_eq, beq_iff_eq] at hdown
      exact_mod_cast (by omega : 2 * (num % den) ≤ den)
    have hhigh : ((num % den : Nat) : ℚ) / den ≤ 1 / 2 := by
      rw [div_le_iff₀ hden']
      linarith
    rw [abs_le]
    constructor
    · linarith
    · linarith

/-- A quotient that is an integer is not rounded. -/
theorem roundQuotient_of_nat (hden : 0 < den) (h : (num : ℚ) / den = k) :
    roundQuotient num den = k := by
  have hden' : (den : ℚ) ≠ 0 := by exact_mod_cast hden.ne'
  have hnum : num = k * den := by
    rw [div_eq_iff hden'] at h
    exact_mod_cast h
  subst hnum
  unfold roundQuotient
  rw [Nat.mul_div_cancel k hden, Nat.mul_mod_left]
  simp [hden.ne]

end Quotients

/-! ## 2. The fields of a double -/

section Fields

variable {m : Nat} (negative : Bool)

theorem twoTo_11 : twoTo 11 = 2048 := rfl

theorem twoTo_52 : twoTo 52 = 4503599627370496 := rfl

theorem twoTo_53 : twoTo 53 = 9007199254740992 := rfl

theorem twoTo_63 : twoTo 63 = 9223372036854775808 := rfl

theorem toNat_ofMagnitude (h : m < 2047 * twoTo 52) :
    (ofMagnitude negative m).bits.toNat = if negative then twoTo 63 + m else m := by
  rw [twoTo_52] at h
  rw [ofMagnitude, UInt64.toNat_ofNat_of_lt', twoTo_63]
  unfold UInt64.size
  rw [twoTo_63]
  split <;> omega

theorem exponentField_ofMagnitude (h : m < 2047 * twoTo 52) :
    (ofMagnitude negative m).exponentField = m / twoTo 52 := by
  rw [exponentField, toNat_ofMagnitude negative h]
  rw [twoTo_52] at h ⊢
  rw [twoTo_63, twoTo_11]
  split <;> omega

theorem fractionField_ofMagnitude (h : m < 2047 * twoTo 52) :
    (ofMagnitude negative m).fractionField = m % twoTo 52 := by
  rw [fractionField, toNat_ofMagnitude negative h]
  rw [twoTo_52, twoTo_63]
  split <;> omega

theorem isNegative_ofMagnitude (h : m < 2047 * twoTo 52) :
    (ofMagnitude negative m).isNegative = negative := by
  rw [isNegative, toNat_ofMagnitude negative h]
  rw [twoTo_52] at h
  rw [twoTo_63]
  cases negative with
  | true => simp
  | false => simpa using (by omega : m < 9223372036854775808)

theorem isFinite_ofMagnitude (h : m < 2047 * twoTo 52) :
    (ofMagnitude negative m).isFinite = true := by
  rw [isFinite, exponentField_ofMagnitude negative h, bne_iff_ne]
  rw [twoTo_52] at h ⊢
  omega

/-- A mantissa of 53 binary digits with its scale. One that was rounded up to `2 ^ 53` is the least
    of the next scale. -/
theorem magnitude_ofMagnitude {e : Nat} (hlow : twoTo 52 ≤ r) (hhigh : r ≤ twoTo 53) (he : e ≤ 2044) :
    (ofMagnitude negative (r + e * twoTo 52)).magnitude = r * 2 ^ ((e : Int) - 1074) := by
  rw [twoTo_53] at hhigh
  have hm : r + e * twoTo 52 < 2047 * twoTo 52 := by
    rw [twoTo_52]
    omega
  have hexponent := exponentField_ofMagnitude negative hm
  have hfraction := fractionField_ofMagnitude negative hm
  rw [twoTo_52] at hlow hexponent hfraction
  unfold magnitude mantissa scale
  rw [twoTo_52, hexponent, hfraction]
  by_cases hcarry : r = 9007199254740992
  · have hfield : (r + e * 4503599627370496) / 4503599627370496 = e + 2 := by omega
    have hrest : (r + e * 4503599627370496) % 4503599627370496 = 0 := by omega
    have hscale : ((max 1 (e + 2) : Nat) : Int) - 1075 = ((e : Int) - 1074) + 1 := by omega
    rw [hfield, hrest, if_neg (by omega), hscale, hcarry, zpow_add_one₀ two_ne_zero]
    push_cast
    linarith
  · have hfield : (r + e * 4503599627370496) / 4503599627370496 = e + 1 := by omega
    have hrest : 4503599627370496 + (r + e * 4503599627370496) % 4503599627370496 = r := by omega
    have hscale : ((max 1 (e + 1) : Nat) : Int) - 1075 = (e : Int) - 1074 := by omega
    rw [hfield, hrest, if_neg (by omega), hscale]

end Fields

/-! ## 3. Fractions -/

section Fractions

variable {num den : Nat} (negative : Bool)

theorem two_zpow_pos (q : Int) : (0 : ℚ) < 2 ^ q :=
  zpow_pos two_pos q

/-- The binary digits of numerator and denominator give the scale of a fraction up to one. -/
theorem ratio_bounds (hnum : 0 < num) (hden : 0 < den) :
    (2 : ℚ) ^ ((num.log2 : Int) - den.log2 - 1) < num / den ∧
      (num : ℚ) / den < 2 ^ ((num.log2 : Int) - den.log2 + 1) := by
  have hden' : (0 : ℚ) < den := by exact_mod_cast hden
  have hnumLow : (2 : ℚ) ^ (num.log2 : Int) ≤ num := by
    exact_mod_cast Nat.log2_self_le hnum.ne'
  have hnumHigh : (num : ℚ) < 2 ^ ((num.log2 : Int) + 1) := by
    exact_mod_cast Nat.lt_log2_self (n := num)
  have hdenLow : (2 : ℚ) ^ (den.log2 : Int) ≤ den := by
    exact_mod_cast Nat.log2_self_le hden.ne'
  have hdenHigh : (den : ℚ) < 2 ^ ((den.log2 : Int) + 1) := by
    exact_mod_cast Nat.lt_log2_self (n := den)
  constructor
  · rw [lt_div_iff₀ hden']
    calc (2 : ℚ) ^ ((num.log2 : Int) - den.log2 - 1) * den
        < 2 ^ ((num.log2 : Int) - den.log2 - 1) * 2 ^ ((den.log2 : Int) + 1) :=
          mul_lt_mul_of_pos_left hdenHigh (two_zpow_pos _)
      _ = 2 ^ (num.log2 : Int) := by
          rw [← zpow_add₀ two_ne_zero]
          congr 1
          omega
      _ ≤ num := hnumLow
  · rw [div_lt_iff₀ hden']
    calc (num : ℚ) < 2 ^ ((num.log2 : Int) + 1) := hnumHigh
      _ = 2 ^ ((num.log2 : Int) - den.log2 + 1) * 2 ^ (den.log2 : Int) := by
          rw [← zpow_add₀ two_ne_zero]
          congr 1
          omega
      _ ≤ 2 ^ ((num.log2 : Int) - den.log2 + 1) * den :=
          mul_le_mul_of_nonneg_left hdenLow (two_zpow_pos _).le

/-- A fraction in units of `2 ^ q` lies between two powers of two exactly if it lies itself between
    them moved by `q`. -/
theorem scaled_bounds {y : ℚ} (q a b : Int) :
    (2 : ℚ) ^ a ≤ y / 2 ^ q ∧ y / 2 ^ q < 2 ^ b ↔ 2 ^ (a + q) ≤ y ∧ y < (2 : ℚ) ^ (b + q) := by
  rw [le_div_iff₀ (two_zpow_pos q), div_lt_iff₀ (two_zpow_pos q), ← zpow_add₀ two_ne_zero,
    ← zpow_add₀ two_ne_zero]

/-- A fraction is rounded at a scale at which it has 53 binary digits, if it is not too small. -/
theorem roundingScale_bounds (hnum : 0 < num) (hden : 0 < den)
    (hlow : (2 : ℚ) ^ (-1022 : Int) ≤ num / den) :
    -1074 ≤ roundingScale num den ∧
      (2 : ℚ) ^ (52 : Int) ≤ num / den / 2 ^ roundingScale num den ∧
      (num : ℚ) / den / 2 ^ roundingScale num den < 2 ^ (53 : Int) := by
  obtain ⟨least, hleast⟩ : ∃ least : Int,
    least = max ((num.log2 : Int) - den.log2 - 53) (-1074) := ⟨_, rfl⟩
  have hscale : roundingScale num den = if (scaleDown num den least).2 * twoTo 53 ≤
      (scaleDown num den least).1 then least + 1 else least := by
    rw [roundingScale, ← hleast]
  obtain ⟨hbelow, habove⟩ := ratio_bounds hnum hden
  have hlower : (2 : ℚ) ^ (52 + least) ≤ num / den := by
    rcases le_total ((num.log2 : Int) - den.log2 - 53) (-1074) with h | h
    · rw [hleast, max_eq_right h]
      exact hlow
    · rw [hleast, max_eq_left h]
      exact (zpow_le_zpow_right₀ one_le_two (by omega)).trans hbelow.le
  have hupper : (num : ℚ) / den < 2 ^ (54 + least) :=
    habove.trans_le (zpow_le_zpow_right₀ one_le_two (by omega))
  -- whether the quotient at the least scale has 54 digits
  have hcompare : (scaleDown num den least).2 * twoTo 53 ≤ (scaleDown num den least).1 ↔
      (2 : ℚ) ^ (53 + least) ≤ num / den := by
    have hpos : (0 : ℚ) < (scaleDown num den least).2 := by
      exact_mod_cast scaleDown_den_pos hden least
    rw [zpow_add₀ two_ne_zero, ← le_div_iff₀ (two_zpow_pos least), ← scaleDown_ratio,
      le_div_iff₀ hpos, mul_comm, ← @Nat.cast_le ℚ, Nat.cast_mul, cast_twoTo]
    rfl
  rw [scaled_bounds, hscale]
  split
  · next hlarge =>
    rw [hcompare] at hlarge
    rw [show 52 + (least + 1) = 53 + least by omega, show 53 + (least + 1) = 54 + least by omega]
    exact ⟨by omega, hlarge, hupper⟩
  · next hsmall =>
    rw [hcompare, not_le] at hsmall
    exact ⟨by omega, hlower, hsmall⟩

/-- A quotient of 53 binary digits is rounded to a mantissa, or up to `2 ^ 53`. -/
theorem roundQuotient_bounds (hden : 0 < den) (hlow : (2 : ℚ) ^ (52 : Int) ≤ num / den)
    (hhigh : (num : ℚ) / den < 2 ^ (53 : Int)) :
    twoTo 52 ≤ roundQuotient num den ∧ roundQuotient num den ≤ twoTo 53 := by
  obtain ⟨hbelow, habove⟩ := abs_le.1 (abs_roundQuotient_sub_le num hden)
  norm_num at hlow hhigh
  have hfrom : (4503599627370495 : ℚ) < roundQuotient num den := by linarith
  have hto : (roundQuotient num den : ℚ) < 9007199254740993 := by linarith
  rw [twoTo_52, twoTo_53]
  exact ⟨by exact_mod_cast hfrom, Nat.lt_succ_iff.1 (by exact_mod_cast hto)⟩

/-- What a fraction in the range of the normal numbers is rounded to: a multiple of a power of two
    `2 ^ q`. -/
structure RoundsTo (x : Double) (negative : Bool) (y : ℚ) (q : Int) (r : Nat) : Prop where
  isFinite : x.isFinite = true
  isNegative : x.isNegative = negative
  magnitude : x.magnitude = r * 2 ^ q
  digits : (2 : ℚ) ^ (52 : Int) ≤ y / 2 ^ q
  near : |(r : ℚ) - y / 2 ^ q| ≤ 1 / 2
  exact : ∀ k : Nat, y / 2 ^ q = k → r = k

theorem ofRatio_roundsTo (hnum : 0 < num) (hden : 0 < den)
    (hlow : (2 : ℚ) ^ (-1022 : Int) ≤ num / den)
    (hhigh : (num : ℚ) / den < 2 ^ (1023 : Int)) :
    ∃ q r, RoundsTo (ofRatio negative num den) negative (num / den) q r := by
  obtain ⟨hleast, hfrom, hto⟩ := roundingScale_bounds hnum hden hlow
  have hmost : roundingScale num den ≤ 970 := by
    have hpower : (2 : ℚ) ^ (52 + roundingScale num den) < 2 ^ (1023 : Int) :=
      ((scaled_bounds _ 52 53).1 ⟨hfrom, hto⟩).1.trans_lt hhigh
    have hexponent := (zpow_lt_zpow_iff_right₀ one_lt_two).1 hpower
    omega
  have hbits : roundedBits num den = roundQuotient (scaleDown num den (roundingScale num den)).1
      (scaleDown num den (roundingScale num den)).2 +
        (roundingScale num den + 1074).toNat * twoTo 52 := rfl
  generalize roundingScale num den = q at hleast hmost hfrom hto hbits
  have hpos := scaleDown_den_pos (n := num) hden q
  rw [← scaleDown_ratio] at hfrom hto
  obtain ⟨hmantissa, hcarry⟩ := roundQuotient_bounds hpos hfrom hto
  have hfits : roundedBits num den < 2047 * twoTo 52 := by
    rw [twoTo_53] at hcarry
    rw [hbits, twoTo_52]
    omega
  have hratio : ofRatio negative num den = ofMagnitude negative (roundedBits num den) := by
    rw [ofRatio, if_neg hnum.ne']
    exact if_neg (Nat.not_le.2 hfits)
  have hscale : (((q + 1074).toNat : Nat) : Int) - 1074 = q := by omega
  refine ⟨q, roundQuotient (scaleDown num den q).1 (scaleDown num den q).2,
    ⟨?_, ?_, ?_, ?_, ?_, ?_⟩⟩
  · rw [hratio]
    exact isFinite_ofMagnitude negative hfits
  · rw [hratio]
    exact isNegative_ofMagnitude negative hfits
  · rw [hratio, hbits, magnitude_ofMagnitude negative hmantissa hcarry (by omega), hscale]
  · rw [← scaleDown_ratio]
    exact hfrom
  · rw [← scaleDown_ratio]
    exact abs_roundQuotient_sub_le _ hpos
  · intro k hk
    rw [← scaleDown_ratio] at hk
    exact roundQuotient_of_nat hpos hk

/-- The error is at most one part in `2 ^ 53`. -/
theorem RoundsTo.abs_sub_le {x : Double} {negative : Bool} {y : ℚ} {q : Int}
    (h : RoundsTo x negative y q r) : |x.magnitude - y| ≤ y / 2 ^ (53 : Int) := by
  have hpos := two_zpow_pos q
  have hdigits := h.digits
  have herror : |x.magnitude - y| = |(r : ℚ) - y / 2 ^ q| * 2 ^ q := by
    rw [h.magnitude, ← abs_of_pos hpos, ← abs_mul, abs_of_pos hpos, sub_mul,
      div_mul_cancel₀ y hpos.ne']
  rw [le_div_iff₀ hpos] at hdigits
  rw [herror, le_div_iff₀ (two_zpow_pos 53)]
  calc |(r : ℚ) - y / 2 ^ q| * 2 ^ q * 2 ^ (53 : Int)
      ≤ 1 / 2 * 2 ^ q * 2 ^ (53 : Int) := by
        gcongr
        exact h.near
    _ = 2 ^ (52 : Int) * 2 ^ q := by
        norm_num
        ring
    _ ≤ y := hdigits

/-- An integer below `2 ^ 53` needs no rounding. -/
theorem RoundsTo.magnitude_of_nat {x : Double} {negative : Bool} {q : Int}
    (h : RoundsTo x negative k q r) (hk : k < twoTo 53) : x.magnitude = k := by
  have hscale : q ≤ 0 := by
    have hdigits := h.digits
    rw [le_div_iff₀ (two_zpow_pos q), ← zpow_add₀ two_ne_zero] at hdigits
    have hpower : (2 : ℚ) ^ (52 + q) < 2 ^ (53 : Int) := hdigits.trans_lt (cast_lt_two_zpow hk)
    have hexponent := (zpow_lt_zpow_iff_right₀ one_lt_two).1 hpower
    omega
  obtain ⟨n, rfl⟩ : ∃ n : Nat, q = -n := ⟨(-q).toNat, by omega⟩
  have hr : r = k * twoTo n := by
    refine h.exact _ ?_
    rw [zpow_neg, div_inv_eq_mul, Nat.cast_mul, cast_twoTo, zpow_natCast]
  rw [h.magnitude, hr, Nat.cast_mul, cast_twoTo, zpow_neg, zpow_natCast,
    mul_inv_cancel_right₀ (pow_ne_zero n two_ne_zero)]

end Fractions

/-! ## 4. Integers -/

/-- A finite double that is an integer, given by its sign and its magnitude. -/
structure IsInteger (x : Double) (negative : Bool) (k : Nat) : Prop where
  isFinite : x.isFinite = true
  isNegative : x.isNegative = negative
  magnitude : x.magnitude = k

section Integers

variable {x y : Double} {k : Nat}

theorem zero_isInteger (negative : Bool) : (zero negative).IsInteger negative 0 := by
  have hbits : 0 < 2047 * twoTo 52 := by decide
  refine ⟨isFinite_ofMagnitude negative hbits, isNegative_ofMagnitude negative hbits, ?_⟩
  rw [zero, Double.magnitude, mantissa, exponentField_ofMagnitude negative hbits,
    fractionField_ofMagnitude negative hbits, Nat.zero_div, if_pos rfl, Nat.zero_mod]
  simp

theorem ofRatio_isInteger (negative : Bool) (hden : 0 < den) (h : (num : ℚ) / den = k)
    (hk : k < twoTo 53) : (ofRatio negative num den).IsInteger negative k := by
  have hden' : (den : ℚ) ≠ 0 := by exact_mod_cast hden.ne'
  rcases Nat.eq_zero_or_pos num with rfl | hnum
  · rw [Nat.cast_zero, zero_div] at h
    rw [ofRatio, if_pos rfl, show k = 0 by exact_mod_cast h.symm]
    exact zero_isInteger negative
  · have hpos : 0 < k := by
      have hratio : (0 : ℚ) < num / den := by positivity
      rw [h] at hratio
      exact_mod_cast hratio
    have hone : (1 : ℚ) ≤ k := by exact_mod_cast hpos
    have hlimit : (k : ℚ) < 2 ^ (53 : Int) := cast_lt_two_zpow hk
    have hlow : (2 : ℚ) ^ (-1022 : Int) ≤ num / den := by
      rw [h]
      exact (zpow_le_one_of_nonpos₀ one_le_two (by decide)).trans hone
    have hhigh : (num : ℚ) / den < 2 ^ (1023 : Int) := by
      rw [h]
      exact hlimit.trans_le (zpow_le_zpow_right₀ one_le_two (by decide))
    obtain ⟨q, r, hrounds⟩ := ofRatio_roundsTo negative hnum hden hlow hhigh
    rw [h] at hrounds
    exact ⟨hrounds.isFinite, hrounds.isNegative, hrounds.magnitude_of_nat hk⟩

theorem ofNat_isInteger (hk : k < twoTo 53) : (ofNat k).IsInteger false k :=
  ofRatio_isInteger false Nat.one_pos (by simp) hk

/-- A product is the fraction of the magnitudes, rounded. -/
theorem mul_eq_ofRatio (hx : x.isFinite = true) (hy : y.isFinite = true) :
    ∃ num den : Nat, 0 < den ∧ (num : ℚ) / den = x.magnitude * y.magnitude ∧
      x * y = ofRatio (x.isNegative != y.isNegative) num den := by
  have hmul : x * y = ofScaled (x.isNegative != y.isNegative) (x.mantissa * y.mantissa)
      (x.scale + y.scale) := by
    show mul x y = _
    simp only [mul, isNaN_of_isFinite hx, isNaN_of_isFinite hy, isInfinite_of_isFinite hx,
      isInfinite_of_isFinite hy, Bool.or_self, Bool.false_eq_true, if_false]
  have hmagnitude : x.magnitude * y.magnitude =
      (x.mantissa * y.mantissa : Nat) * 2 ^ (x.scale + y.scale) := by
    rw [magnitude, magnitude, zpow_add₀ two_ne_zero, Nat.cast_mul]
    ring
  rw [hmul, hmagnitude, ofScaled]
  generalize x.mantissa * y.mantissa = m
  generalize x.scale + y.scale = q
  split
  · next h =>
    obtain ⟨n, rfl⟩ := Int.eq_ofNat_of_zero_le h
    exact ⟨_, 1, Nat.one_pos, by simp [cast_twoTo], rfl⟩
  · next h =>
    obtain ⟨n, rfl⟩ : ∃ n : Nat, q = -n := ⟨(-q).toNat, by omega⟩
    exact ⟨_, _, twoTo_pos _, by simp [cast_twoTo, div_eq_mul_inv], rfl⟩

/-- **Products of integers are exact below `2 ^ 53`.** -/
theorem IsInteger.mul {s t : Bool} {l : Nat} (hx : x.IsInteger s k) (hy : y.IsInteger t l)
    (hkl : k * l < twoTo 53) : (x * y).IsInteger (s != t) (k * l) := by
  obtain ⟨num, den, hden, hratio, hmul⟩ := mul_eq_ofRatio hx.isFinite hy.isFinite
  rw [hmul, hx.isNegative, hy.isNegative]
  refine ofRatio_isInteger _ hden ?_ hkl
  rw [hratio, hx.magnitude, hy.magnitude, Nat.cast_mul]

/-! The integers that are made of a double. -/

theorem saturate_eq_clamp (convert : Double → Int) (least greatest : Int)
    (hx : x.isFinite = true) :
    saturate convert least greatest x = clamp least greatest (convert x) := by
  rw [saturate, isNaN_of_isFinite hx, isInfinite_of_isFinite hx, if_neg Bool.false_ne_true,
    if_neg Bool.false_ne_true]

theorem saturate_eq (convert : Double → Int) {least greatest : Int} (hx : x.isFinite = true)
    (h : least ≤ convert x ∧ convert x ≤ greatest) :
    saturate convert least greatest x = convert x := by
  rw [saturate_eq_clamp convert least greatest hx, clamp]
  omega

theorem truncate_of_magnitude (h : x.magnitude = k) :
    x.truncate = if x.isNegative then -(k : Int) else k := by
  have hcount : (if 0 ≤ x.scale then x.mantissa * twoTo x.scale.toNat
      else x.mantissa / twoTo (-x.scale).toNat) = k := by
    rw [magnitude] at h
    generalize x.scale = q at h ⊢
    split
    · next hq =>
      obtain ⟨n, rfl⟩ := Int.eq_ofNat_of_zero_le hq
      rw [zpow_natCast, ← cast_twoTo] at h
      exact_mod_cast h
    · next hq =>
      obtain ⟨n, rfl⟩ : ∃ n : Nat, q = -n := ⟨(-q).toNat, by omega⟩
      rw [zpow_neg, zpow_natCast, ← cast_twoTo, ← div_eq_mul_inv,
        div_eq_iff (by exact_mod_cast (twoTo_pos n).ne')] at h
      have hmantissa : x.mantissa = k * twoTo n := by exact_mod_cast h
      rw [hmantissa, neg_neg, Int.toNat_natCast, Nat.mul_div_cancel _ (twoTo_pos n)]
  rw [truncate, hcount]

theorem nearest_of_magnitude (h : |x.magnitude - k| < 1 / 2) :
    x.nearest = if x.isNegative then -(k : Int) else k := by
  have hcount : (if 0 ≤ x.scale then x.mantissa * twoTo x.scale.toNat
      else (2 * x.mantissa + twoTo (-x.scale).toNat) / twoTo ((-x.scale).toNat + 1)) = k := by
    obtain ⟨hbelow, habove⟩ := abs_lt.1 h
    rw [magnitude] at hbelow habove
    generalize x.scale = q at hbelow habove ⊢
    split
    · next hq =>
      obtain ⟨n, rfl⟩ := Int.eq_ofNat_of_zero_le hq
      rw [zpow_natCast, ← cast_twoTo] at hbelow habove
      have hfrom : (k : ℚ) < ((x.mantissa * twoTo n + 1 : Nat) : ℚ) := by
        push_cast
        linarith
      have hto : ((x.mantissa * twoTo n : Nat) : ℚ) < ((k + 1 : Nat) : ℚ) := by
        push_cast
        linarith
      have hfrom' := Nat.cast_lt.1 hfrom
      have hto' := Nat.cast_lt.1 hto
      show x.mantissa * twoTo n = k
      omega
    · next hq =>
      obtain ⟨n, rfl⟩ : ∃ n : Nat, q = -n := ⟨(-q).toNat, by omega⟩
      have hunit : (0 : ℚ) < twoTo n := by exact_mod_cast twoTo_pos n
      have hdouble : twoTo (n + 1) = 2 * twoTo n := Nat.pow_succ'
      rw [zpow_neg, zpow_natCast, ← cast_twoTo, ← div_eq_mul_inv] at hbelow habove
      have hlow : (k - 1 / 2) * (twoTo n : ℚ) < x.mantissa := by
        rw [← lt_div_iff₀ hunit]
        linarith
      have hhigh : (x.mantissa : ℚ) < (k + 1 / 2) * twoTo n := by
        rw [← div_lt_iff₀ hunit]
        linarith
      have hfrom : ((k * (2 * twoTo n) : Nat) : ℚ) < ((2 * x.mantissa + twoTo n : Nat) : ℚ) := by
        push_cast
        linarith
      have hto :
          ((2 * x.mantissa + twoTo n : Nat) : ℚ) < (((k + 1) * (2 * twoTo n) : Nat) : ℚ) := by
        push_cast
        linarith
      rw [neg_neg, Int.toNat_natCast, hdouble]
      exact Nat.div_eq_of_lt_le (Nat.cast_lt.1 hfrom).le (Nat.cast_lt.1 hto)
  rw [nearest, hcount]

/-- A fraction between `2 ^ -53` and `2 ^ 53` is rounded by one part in `2 ^ 53` at most. -/
theorem abs_magnitude_ofRatio_sub_le (negative : Bool) (hden : 0 < den)
    (hlow : 1 / 9007199254740992 ≤ (num : ℚ) / den) (hhigh : (num : ℚ) / den < 9007199254740992) :
    (ofRatio negative num den).isFinite = true ∧
      (ofRatio negative num den).isNegative = negative ∧
      |(ofRatio negative num den).magnitude - num / den| ≤ num / den / 9007199254740992 := by
  have hnum : 0 < num := by
    refine Nat.pos_of_ne_zero ?_
    rintro rfl
    norm_num at hlow
  have hfrom : (2 : ℚ) ^ (-1022 : Int) ≤ num / den :=
    (zpow_le_zpow_right₀ one_le_two (by decide : (-1022 : Int) ≤ -53)).trans
      (by norm_num at hlow ⊢; exact hlow)
  have hto : (num : ℚ) / den < 2 ^ (1023 : Int) :=
    (by norm_num; exact hhigh : (num : ℚ) / den < 2 ^ (53 : Int)).trans_le
      (zpow_le_zpow_right₀ one_le_two (by decide))
  obtain ⟨q, r, hrounds⟩ := ofRatio_roundsTo negative hnum hden hfrom hto
  have herror := hrounds.abs_sub_le
  norm_num at herror
  exact ⟨hrounds.isFinite, hrounds.isNegative, herror⟩

/-- A fraction that is scaled up to an integer is rounded twice, which moves it by less than a
    half. -/
theorem nearest_mul_of_pos {c : Nat} (hden : 0 < den) (hc : 0 < c) (hlimit : c < twoTo 53)
    (h : num * c = k * den) (hpos : 0 < k) (hk : k < twoTo 50) :
    (ofRatio false num den * ofNat c).isFinite = true ∧
      (ofRatio false num den * ofNat c).nearest = k := by
  have hdenQ : (0 : ℚ) < den := by exact_mod_cast hden
  have hcQ : (1 : ℚ) ≤ c := by exact_mod_cast hc
  have hkQ : (1 : ℚ) ≤ k := by exact_mod_cast hpos
  have hcLimit : (c : ℚ) < 9007199254740992 := by exact_mod_cast hlimit
  have hkLimit : (k : ℚ) < 1125899906842624 := by exact_mod_cast hk
  have hscaled : (num : ℚ) / den * c = k := by
    rw [div_mul_eq_mul_div, div_eq_iff hdenQ.ne']
    exact_mod_cast h
  -- the fraction itself
  have hlow : 1 / 9007199254740992 ≤ (num : ℚ) / den := by
    rw [← mul_le_mul_iff_of_pos_right (by linarith : (0 : ℚ) < c), hscaled]
    linarith
  have hhigh : (num : ℚ) / den < 9007199254740992 := by
    have hle : (num : ℚ) / den * 1 ≤ num / den * c :=
      mul_le_mul_of_nonneg_left hcQ (by positivity)
    linarith
  obtain ⟨hfinite, hsign, herror⟩ := abs_magnitude_ofRatio_sub_le false hden hlow hhigh
  have hscale := ofNat_isInteger hlimit
  -- the exact product of what it is rounded to
  obtain ⟨num', den', hden', hratio, hmul⟩ := mul_eq_ofRatio hfinite hscale.isFinite
  rw [hscale.magnitude] at hratio
  have hproduct : |(num' : ℚ) / den' - k| ≤ k / 9007199254740992 := by
    rw [hratio, ← hscaled, ← sub_mul, abs_mul, abs_of_pos (by linarith : (0 : ℚ) < c),
      mul_div_right_comm]
    exact mul_le_mul_of_nonneg_right herror (by linarith)
  obtain ⟨hbelow, habove⟩ := abs_le.1 hproduct
  have hlow' : 1 / 9007199254740992 ≤ (num' : ℚ) / den' := by linarith
  have hhigh' : (num' : ℚ) / den' < 9007199254740992 := by linarith
  obtain ⟨hfinite', hsign', herror'⟩ := abs_magnitude_ofRatio_sub_le
    ((ofRatio false num den).isNegative != (ofNat c).isNegative) hden' hlow' hhigh'
  rw [← hmul] at hfinite' hsign' herror'
  refine ⟨hfinite', ?_⟩
  obtain ⟨hbelow', habove'⟩ := abs_le.1 herror'
  have hnear : |(ofRatio false num den * ofNat c).magnitude - k| < 1 / 2 := by
    rw [abs_lt]
    constructor
    · linarith
    · linarith
  rw [nearest_of_magnitude hnear, hsign', hsign, hscale.isNegative]
  rfl

/-- **A fraction that is scaled up to an integer comes to this integer.** -/
theorem nearest_mul_ofNat {c : Nat} (hden : 0 < den) (hc : 0 < c) (hlimit : c < twoTo 53)
    (h : num * c = k * den) (hk : k < twoTo 50) :
    (ofRatio false num den * ofNat c).isFinite = true ∧
      (ofRatio false num den * ofNat c).nearest = k := by
  rcases Nat.eq_zero_or_pos k with rfl | hpos
  · rw [Nat.zero_mul] at h
    obtain rfl := (Nat.mul_eq_zero.1 h).resolve_right hc.ne'
    have hzero : (ofRatio false 0 den * ofNat c).IsInteger (false != false) (0 * c) :=
      (zero_isInteger false).mul (ofNat_isInteger hlimit) (by rw [Nat.zero_mul]; decide)
    rw [Nat.zero_mul] at hzero
    refine ⟨hzero.isFinite, ?_⟩
    have hnear : |(ofRatio false 0 den * ofNat c).magnitude - (0 : Nat)| < 1 / 2 := by
      rw [hzero.magnitude]
      norm_num
    rw [nearest_of_magnitude hnear, hzero.isNegative]
    rfl
  · exact nearest_mul_of_pos hden hc hlimit h hpos hk

end Integers

end QueryPlan.Double
