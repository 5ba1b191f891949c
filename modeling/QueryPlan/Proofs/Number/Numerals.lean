import QueryPlan.Proofs.Number.Digits
import QueryPlan.Proofs.Number.Rounding

/-!
# Numerals read back

What is read from the digits of a number, with a sign or a fraction or without. A numeral denotes
the fraction that its digits and its places write, rounded once; the integers of 32 bits are below
`2 ^ 53` and so are read as they are.
-/

namespace QueryPlan

namespace Numeral

variable {ds fraction : List Char}

/-! ## 1. Integers -/

theorem natural?_of_digits (hne : ds ≠ []) (hall : ∀ c ∈ ds, isDigit c = true) :
    natural? ds = some (valueFrom 0 ds) := by
  have hempty : ds.isEmpty = false := by simpa using hne
  rw [natural?, hempty, List.all_eq_true.2 hall]
  rfl

/-- Digits are an integer of a range that holds their value. -/
theorem integerIn?_of_digits {least greatest : Int} {n : Nat} (hne : ds ≠ [])
    (hall : ∀ c ∈ ds, isDigit c = true) (hvalue : valueFrom 0 ds = n) (hleast : least ≤ n)
    (hgreatest : n ≤ greatest) : integerIn? least greatest ds = some (n : Int) := by
  have hread : integer? ds = some (n : Int) := by
    simp [integer?, splitSign_of_digits hne hall, natural?_of_digits hne hall, hvalue]
  simp [integerIn?, hread, hleast, hgreatest]

/-! ## 2. Decimals -/

theorem decimal?_of_digits (hne : ds ≠ []) (hall : ∀ c ∈ ds, isDigit c = true) :
    decimal? ds = some (valueFrom 0 ds, 0) := by
  have hspan := spanDigits_of_digits hall .nil
  rw [List.append_nil] at hspan
  simp [decimal?, hspan, hne, exponent?, valueFrom]

theorem decimal?_of_fraction (hne : ds ≠ []) (hall : ∀ c ∈ ds, isDigit c = true)
    (hfraction : ∀ c ∈ fraction, isDigit c = true) :
    decimal? (ds ++ '.' :: fraction) =
      some (valueFrom (valueFrom 0 ds) fraction, -(fraction.length : Int)) := by
  have hpoint : EndsDigits ('.' :: fraction) := .cons rfl
  have hspan := spanDigits_of_digits hfraction .nil
  rw [List.append_nil] at hspan
  simp [decimal?, spanDigits_of_digits hall hpoint, hspan, hne, exponent?]

/-- The characters of an integer: a minus sign if it is negative, and the digits of its
    magnitude. -/
theorem toList_toString (n : Int) :
    (toString n).toList = (if n < 0 then ['-'] else []) ++ digitsOf n.natAbs := by
  cases n with
  | ofNat k =>
    have hsign : ¬Int.ofNat k < 0 := Int.not_lt.2 (Int.natCast_nonneg k)
    rw [if_neg hsign]
    exact toList_natural k
  | negSucc k =>
    have hsign : toString (Int.negSucc k) = "-" ++ toString (k + 1) := rfl
    rw [if_pos (Int.negSucc_lt_zero k), hsign, String.toList_append, toList_natural]
    rfl

theorem splitSign_toString (n : Int) :
    splitSign (toString n).toList = (decide (n < 0), digitsOf n.natAbs) := by
  rw [toList_toString]
  by_cases hn : n < 0
  · simp [hn, splitSign]
  · have hne : digitsOf n.natAbs ≠ [] := Nat.toDigits_ne_nil
    simp [hn, splitSign_of_digits hne fun _ => isDigit_of_mem_digitsOf]

/-- The text of an integer is read as the integer. -/
theorem integer?_toString (n : Int) : integer? (toString n).toList = some n := by
  have hne : digitsOf n.natAbs ≠ [] := Nat.toDigits_ne_nil
  have hread : natural? (digitsOf n.natAbs) = some n.natAbs := by
    rw [natural?_of_digits hne fun _ => isDigit_of_mem_digitsOf, valueFrom_digitsOf]
  rw [integer?, splitSign_toString]
  simp only [hread, Option.bind_eq_bind, Option.bind_some, Option.pure_def, Option.map_some,
    Option.some.injEq]
  by_cases hn : n < 0
  · rw [decide_eq_true hn, if_pos rfl]
    omega
  · rw [decide_eq_false hn, if_neg Bool.false_ne_true]
    omega

theorem mem_toString {n : Int} {c : Char} (h : c ∈ (toString n).toList) :
    c = '-' ∨ isDigit c = true := by
  rw [toList_toString, List.mem_append] at h
  rcases h with h | h
  · split at h
    · exact .inl (List.mem_singleton.1 h)
    · cases h
  · exact .inr (isDigit_of_mem_digitsOf h)

theorem not_mem_toString {n : Int} {c : Char} (hminus : c ≠ '-') (hdigit : isDigit c = false) :
    c ∉ (toString n).toList := by
  intro hmem
  rcases mem_toString hmem with h | h
  · exact hminus h
  · rw [h] at hdigit
    cases hdigit

end Numeral

namespace Double

open Numeral

variable {ds fraction : List Char}

/-! ## 3. Doubles -/

theorem ofDecimal_whole (negative : Bool) (n : Nat) :
    ofDecimal negative n 0 = ofRatio negative n 1 := by
  unfold ofDecimal
  by_cases hn : n = 0
  · rw [if_pos hn, ofRatio, if_pos hn]
  · have hlow : ¬((0 : Int) < -(400 + ((Nat.log2 n : Int) + 1))) := by omega
    have hone : tenTo (0 : Int).toNat = 1 := rfl
    simp only [if_neg hn, if_neg hlow, if_neg (show ¬((400 : Int) < 0) by decide),
      if_pos (Int.le_refl 0), hone, Nat.mul_one]

/-- A numeral with places behind the point is a fraction of a power of ten. -/
theorem ofDecimal_places (negative : Bool) (n : Nat) {places : Nat} (hpos : 0 < places)
    (hfew : places ≤ 400) :
    ofDecimal negative n (-(places : Int)) = ofRatio negative n (tenTo places) := by
  unfold ofDecimal
  by_cases hn : n = 0
  · rw [if_pos hn, ofRatio, if_pos hn]
  · have hhigh : ¬((400 : Int) < -(places : Int)) := by omega
    have hlow : ¬(-(places : Int) < -(400 + ((Nat.log2 n : Int) + 1))) := by omega
    have hneg : ¬((0 : Int) ≤ -(places : Int)) := by omega
    have hplaces : (-(-(places : Int))).toNat = places := by omega
    simp only [if_neg hn, if_neg hhigh, if_neg hlow, if_neg hneg, hplaces]

theorem ofText?_of_digits (hne : ds ≠ []) (hall : ∀ c ∈ ds, isDigit c = true) :
    ofText? (String.ofList ds) = some (ofRatio false (valueFrom 0 ds) 1) := by
  simp only [ofText?, String.toList_ofList, splitSign_of_digits hne hall,
    decimal?_of_digits hne hall, ofDecimal_whole]

theorem ofText?_of_fraction (hne : ds ≠ []) (hall : ∀ c ∈ ds, isDigit c = true)
    (hfraction : ∀ c ∈ fraction, isDigit c = true) (hpos : fraction ≠ [])
    (hfew : fraction.length ≤ 400) :
    ofText? (String.ofList (ds ++ '.' :: fraction)) =
      some (ofRatio false (valueFrom (valueFrom 0 ds) fraction) (tenTo fraction.length)) := by
  simp only [ofText?, String.toList_ofList, splitSign_append_of_digits hne hall,
    decimal?_of_fraction hne hall hfraction,
    ofDecimal_places false _ (List.length_pos_iff.2 hpos) hfew]

/-- The text of an integer denotes the double nearest to it. -/
theorem ofText?_toString (n : Int) : ofText? (toString n) = some (ofInt n) := by
  have hne : digitsOf n.natAbs ≠ [] := Nat.toDigits_ne_nil
  have hall : ∀ c ∈ digitsOf n.natAbs, isDigit c = true := fun _ => isDigit_of_mem_digitsOf
  simp only [ofText?, splitSign_toString, decimal?_of_digits hne hall, valueFrom_digitsOf,
    ofDecimal_whole, ofInt]

theorem ofInt_isInteger {n : Int} (h : n.natAbs < twoTo 53) :
    (ofInt n).IsInteger (decide (n < 0)) n.natAbs :=
  ofRatio_isInteger _ Nat.one_pos (by simp) h

/-- An integral double without its fraction is the integer. -/
theorem IsInteger.truncate_eq {x : Double} {n : Int} (h : x.IsInteger (decide (n < 0)) n.natAbs) :
    x.truncate = n := by
  rw [truncate_of_magnitude h.magnitude, h.isNegative]
  simp only [decide_eq_true_eq]
  omega

end Double

end QueryPlan
