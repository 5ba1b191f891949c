import QueryPlan.Proofs.Json.Numbers
import QueryPlan.Proofs.Lexical.Numeral
import QueryPlan.Proofs.Number.Numerals

/-!
# Exact numbers

A decimal numeral and a finite double denote rational numbers (`Numeral.value?`, `Double.value?`),
and nothing is rounded here. A text is read as a natural number exactly if it is spelled as one and
denotes it (`unsigned?_eq_some_iff`). A double is a whole number exactly if its magnitude is a
natural number (`isWhole_iff`), and from `2 ^ 53` on every double is (`isWhole_of_large`).
-/

namespace QueryPlan

namespace Numeral

variable {cs front : List Char}

/-! ## 1. What a numeral denotes -/

/-- The number that a decimal numeral denotes. -/
def value? (cs : List Char) : Option ℚ :=
  (decimal? (splitSign cs).2).map fun scaled =>
    (if (splitSign cs).1 then -1 else 1) * (scaled.1 * 10 ^ scaled.2)

theorem natural?_eq_some_iff {n : Nat} : natural? cs = some n ↔
    cs ≠ [] ∧ (∀ c ∈ cs, isDigit c = true) ∧ n = valueFrom 0 cs := by
  unfold natural?
  split
  · next h =>
    rw [Bool.and_eq_true, List.all_eq_true, Bool.not_eq_true', List.isEmpty_eq_false_iff] at h
    rw [Option.some.injEq]
    exact ⟨fun hn => ⟨h.1, h.2, hn.symm⟩, fun hn => hn.2.2.symm⟩
  · next h =>
    rw [Bool.and_eq_true, List.all_eq_true, Bool.not_eq_true', List.isEmpty_eq_false_iff] at h
    constructor
    · intro hn
      cases hn
    · rintro ⟨hne, hall, -⟩
      exact absurd ⟨hne, hall⟩ h

/-- An integer in text: a sign, if there is one, and digits. -/
theorem integer?_eq_some_iff {n : Int} : integer? cs = some n ↔
    ∃ negative ds, splitSign cs = (negative, ds) ∧ ds ≠ [] ∧ (∀ c ∈ ds, isDigit c = true) ∧
      n = if negative then -(valueFrom 0 ds : Int) else valueFrom 0 ds := by
  rw [integer?]
  generalize splitSign cs = split
  obtain ⟨negative, ds⟩ := split
  dsimp only
  constructor
  · intro h
    obtain ⟨k, hk, rfl⟩ := Option.map_eq_some_iff.1 h
    obtain ⟨m, hm, hk⟩ := Option.bind_eq_some_iff.1 hk
    cases hk
    obtain ⟨hne, hall, rfl⟩ := natural?_eq_some_iff.1 hm
    exact ⟨negative, ds, rfl, hne, hall, rfl⟩
  · rintro ⟨_, _, heq, hne, hall, rfl⟩
    cases heq
    rw [natural?_of_digits hne hall]
    rfl

theorem value?_of_integer? {n : Int} (h : integer? cs = some n) : value? cs = some (n : ℚ) := by
  obtain ⟨negative, ds, hsplit, hne, hall, rfl⟩ := integer?_eq_some_iff.1 h
  rw [value?, hsplit, decimal?_of_digits hne hall]
  cases negative <;> simp

/-- A sign is split off in the same way in front of a fraction. -/
theorem splitSign_append_of_integer? {negative : Bool} {ds : List Char}
    (h : splitSign front = (negative, ds)) (hne : ds ≠ []) (rest : List Char) :
    splitSign (front ++ rest) = (negative, ds ++ rest) := by
  cases ds with
  | nil => exact absurd rfl hne
  | cons d ds => exact (Json.splitSign_append h).2 rest

theorem value?_of_pointZero {n : Int} (h : integer? front = some n) :
    value? (front ++ ['.', '0']) = some (n : ℚ) := by
  obtain ⟨negative, ds, hsplit, hne, hall, rfl⟩ := integer?_eq_some_iff.1 h
  have hfraction : ∀ c ∈ ['0'], isDigit c = true := List.all_eq_true.1 rfl
  have hvalue : valueFrom (valueFrom 0 ds) ['0'] = 10 * valueFrom 0 ds := rfl
  rw [value?, splitSign_append_of_integer? hsplit hne, decimal?_of_fraction hne hall hfraction,
    hvalue]
  cases negative <;> simp <;> ring

/-! ## 2. Spellings -/

/-- Whether a numeral is spelled as an integer: it has no exponent and no fraction but `.0`. -/
def isWholeSpelling (cs : List Char) : Bool :=
  !(spanDigits (splitSign cs).2).1.isEmpty &&
    ((spanDigits (splitSign cs).2).2 == [] || (spanDigits (splitSign cs).2).2 == ['.', '0'])

/-- Whether a numeral is spelled as a natural number: digits, with a plus sign or none. -/
def isNaturalSpelling (cs : List Char) : Bool :=
  cs.head? != some '-' && (!(splitSign cs).2.isEmpty && (splitSign cs).2.all isDigit)

theorem isWholeSpelling_iff : isWholeSpelling cs = true ↔
    ∃ front n, integer? front = some n ∧ (cs = front ∨ cs = front ++ ['.', '0']) := by
  constructor
  · intro h
    rw [isWholeSpelling, Bool.and_eq_true, Bool.or_eq_true, beq_iff_eq, beq_iff_eq,
      Bool.not_eq_true', List.isEmpty_eq_false_iff] at h
    have hdigits := Lexicon.digits_of_spanDigits (splitSign cs).2
    have hbody := Lexicon.spanDigits_append (splitSign cs).2
    obtain ⟨hne, hbehind⟩ := h
    generalize (spanDigits (splitSign cs).2).1 = ds at hne hdigits hbody
    have hread : ∀ front negative, splitSign front = (negative, ds) →
        ∃ n, integer? front = some n := fun front negative hfront =>
      ⟨_, integer?_eq_some_iff.2 ⟨negative, ds, hfront, hne, hdigits, rfl⟩⟩
    rcases hbehind with hend | hpoint
    · rw [hend, List.append_nil] at hbody
      obtain ⟨n, hn⟩ := hread cs (splitSign cs).1 (by rw [hbody])
      exact ⟨cs, n, hn, .inl rfl⟩
    · rw [hpoint] at hbody
      rcases Lexicon.splitSign_cases cs with ⟨sign, hsign, hcs⟩ | hcs
      · have hfront : splitSign (sign :: ds) = (sign == '-', ds) := by
          rcases hsign with rfl | rfl <;> rfl
        obtain ⟨n, hn⟩ := hread (sign :: ds) _ hfront
        exact ⟨sign :: ds, n, hn, .inr (by rw [hcs, ← hbody]; rfl)⟩
      · obtain ⟨n, hn⟩ := hread ds false (splitSign_of_digits hne hdigits)
        exact ⟨ds, n, hn, .inr (by rw [← hcs, ← hbody])⟩
  · rintro ⟨front, n, hn, hcs⟩
    obtain ⟨negative, ds, hsplit, hne, hall, -⟩ := integer?_eq_some_iff.1 hn
    have hempty : ds.isEmpty = false := by simpa using hne
    rcases hcs with rfl | rfl
    · have hspan := spanDigits_of_digits hall .nil
      rw [List.append_nil] at hspan
      simp [isWholeSpelling, hsplit, hspan, hempty]
    · have hpoint : EndsDigits ['.', '0'] := .cons rfl
      have hspan := spanDigits_of_digits hall hpoint
      rw [isWholeSpelling, splitSign_append_of_integer? hsplit hne]
      simp [hspan, hempty]

/-- A text is read as a natural number exactly if it is spelled as one and denotes it. -/
theorem unsigned?_eq_some_iff {n : Nat} :
    unsigned? cs = some n ↔ isNaturalSpelling cs = true ∧ value? cs = some (n : ℚ) := by
  -- A plus sign makes no difference to the digits behind it.
  have hdigits : ∀ ds, splitSign cs = (false, ds) → cs.head? ≠ some '-' →
      (natural? ds = some n ↔ isNaturalSpelling cs = true ∧ value? cs = some (n : ℚ)) := by
    intro ds hsplit hhead
    have hspelling : isNaturalSpelling cs = true ↔ ds ≠ [] ∧ ∀ c ∈ ds, isDigit c = true := by
      rw [isNaturalSpelling, hsplit]
      simp [hhead]
    have hvalue : ds ≠ [] → (∀ c ∈ ds, isDigit c = true) →
        value? cs = some ((valueFrom 0 ds : Nat) : ℚ) := fun hne hall =>
      value?_of_integer? (integer?_eq_some_iff.2 ⟨false, ds, hsplit, hne, hall, rfl⟩)
    rw [natural?_eq_some_iff, hspelling]
    constructor
    · rintro ⟨hne, hall, rfl⟩
      exact ⟨⟨hne, hall⟩, hvalue hne hall⟩
    · rintro ⟨⟨hne, hall⟩, hn⟩
      rw [hvalue hne hall, Option.some.injEq] at hn
      exact ⟨hne, hall, by exact_mod_cast hn.symm⟩
  cases cs with
  | nil => exact hdigits [] rfl (by simp)
  | cons c ds =>
    by_cases hplus : c = '+'
    · subst hplus
      exact hdigits ds rfl (by simp)
    · have hunsigned : unsigned? (c :: ds) = natural? (c :: ds) :=
        unsigned?.eq_2 _ fun rest heq => hplus (List.cons.inj heq).1
      rw [hunsigned]
      by_cases hminus : c = '-'
      · subst hminus
        refine iff_of_false ?_ fun h => Bool.false_ne_true h.1
        intro h
        exact Bool.false_ne_true ((natural?_eq_some_iff.1 h).2.1 '-' List.mem_cons_self)
      · refine hdigits (c :: ds) (splitSign.eq_3 _ ?_ ?_) (by simpa using hminus)
        · exact fun rest heq => hminus (List.cons.inj heq).1
        · exact fun rest heq => hplus (List.cons.inj heq).1

end Numeral

namespace Double

variable {x : Double}

/-! ## 3. What a double denotes -/

/-- The number that a finite double denotes. -/
def value? (x : Double) : Option ℚ :=
  if x.isFinite then some (if x.isNegative then -x.magnitude else x.magnitude) else none

theorem magnitude_nonneg (x : Double) : 0 ≤ x.magnitude := by
  unfold magnitude
  positivity

theorem abs_of_value? {q : ℚ} (h : x.value? = some q) : x.isFinite = true ∧ |q| = x.magnitude := by
  unfold value? at h
  split at h
  · next hfinite =>
    refine ⟨hfinite, ?_⟩
    cases h
    split
    · rw [abs_neg, abs_of_nonneg x.magnitude_nonneg]
    · rw [abs_of_nonneg x.magnitude_nonneg]
  · cases h

/-- A double is a whole number exactly if its magnitude is a natural number. -/
theorem isWhole_iff : x.isWhole = true ↔ x.isFinite = true ∧ ∃ k : Nat, x.magnitude = k := by
  rw [isWhole, Bool.and_eq_true, Bool.or_eq_true, decide_eq_true_eq, beq_iff_eq, magnitude]
  refine and_congr_right fun _ => ?_
  generalize x.scale = q
  by_cases hq : 0 ≤ q
  · obtain ⟨n, rfl⟩ := Int.eq_ofNat_of_zero_le hq
    refine iff_of_true (.inl hq) ⟨x.mantissa * twoTo n, ?_⟩
    rw [zpow_natCast, Nat.cast_mul, cast_twoTo]
  · obtain ⟨n, rfl⟩ : ∃ n : Nat, q = -n := ⟨(-q).toNat, by omega⟩
    have hunit : ((twoTo n : Nat) : ℚ) ≠ 0 := by exact_mod_cast (twoTo_pos n).ne'
    rw [or_iff_right hq, neg_neg, Int.toNat_natCast, zpow_neg, zpow_natCast, ← cast_twoTo,
      ← div_eq_mul_inv]
    constructor
    · intro h
      obtain ⟨k, hk⟩ := Nat.dvd_of_mod_eq_zero h
      exact ⟨k, by rw [hk, Nat.cast_mul, mul_div_cancel_left₀ _ hunit]⟩
    · rintro ⟨k, hk⟩
      rw [div_eq_iff hunit] at hk
      have hmantissa : x.mantissa = k * twoTo n := by exact_mod_cast hk
      rw [hmantissa, Nat.mul_mod_left]

/-- Without its fraction a whole number is what it was. -/
theorem value?_of_isWhole (h : x.isWhole = true) : x.value? = some (x.truncate : ℚ) := by
  obtain ⟨hfinite, k, hk⟩ := isWhole_iff.1 h
  rw [value?, if_pos hfinite, truncate_of_magnitude hk, hk]
  split <;> simp

theorem isWhole_of_value? {n : Int} (h : x.value? = some (n : ℚ)) : x.isWhole = true := by
  obtain ⟨hfinite, habs⟩ := abs_of_value? h
  refine isWhole_iff.2 ⟨hfinite, n.natAbs, ?_⟩
  rw [← habs, Nat.cast_natAbs, Int.cast_abs]

theorem mantissa_lt (x : Double) : x.mantissa < twoTo 53 := by
  have hfraction : x.fractionField < twoTo 52 := Nat.mod_lt _ (twoTo_pos 52)
  unfold mantissa
  rw [twoTo_52] at hfraction ⊢
  rw [twoTo_53]
  split <;> omega

/-- A double from `2 ^ 53` on has no fraction. -/
theorem isWhole_of_large {q : ℚ} (h : x.value? = some q) (hlarge : ((twoTo 53 : Nat) : ℚ) ≤ |q|) :
    x.isWhole = true := by
  obtain ⟨hfinite, habs⟩ := abs_of_value? h
  have hscale : 0 ≤ x.scale := by
    by_contra hneg
    have hsmall : x.magnitude ≤ x.mantissa := by
      rw [magnitude]
      exact mul_le_of_le_one_right (Nat.cast_nonneg _)
        (zpow_le_one_of_nonpos₀ one_le_two (by omega))
    have hmantissa : (x.mantissa : ℚ) < (twoTo 53 : Nat) := by exact_mod_cast x.mantissa_lt
    rw [habs] at hlarge
    exact absurd (hlarge.trans hsmall) (not_le.2 hmantissa)
  rw [isWhole, hfinite, decide_eq_true hscale]
  rfl

end Double

end QueryPlan
