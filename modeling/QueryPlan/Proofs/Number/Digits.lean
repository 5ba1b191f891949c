import QueryPlan.Number.Numeral
import QueryPlan.Number.Spelling
import QueryPlan.Text.Blank

/-!
# Decimal digits

Digits are written most significant first, and read by adding one after the other to what has been
read. The lemmas here say that a run of digits is read as far as it goes, whatever follows it, and
yields the number that was written.
-/

namespace QueryPlan.Numeral

variable {c : Char} {ds rest : List Char}

/-! ## 1. Runs of digits -/

/-- What follows a run of digits does not start with one. -/
def EndsDigits (rest : List Char) : Prop :=
  ∀ c ∈ rest.head?, isDigit c = false

theorem EndsDigits.nil : EndsDigits [] := nofun

theorem EndsDigits.cons (h : isDigit c = false) : EndsDigits (c :: rest) := by
  intro d hd
  cases hd
  exact h

theorem EndsDigits.append {cs : List Char} (h : EndsDigits cs) (hr : EndsDigits rest) :
    EndsDigits (cs ++ rest) := by
  cases cs with
  | nil => exact hr
  | cons c cs => exact h

theorem spanDigits_suffix {cs ds rest : List Char} (h : spanDigits cs = (ds, rest)) :
    rest <:+ cs := by
  have hrest : cs.dropWhile isDigit = rest := congrArg Prod.snd h
  rw [← hrest]
  exact List.dropWhile_suffix _

theorem EndsDigits.takeWhile (h : EndsDigits rest) : rest.takeWhile isDigit = [] := by
  cases rest with
  | nil => rfl
  | cons c rest => exact List.takeWhile_cons_of_neg (by rw [h c rfl]; decide)

theorem EndsDigits.dropWhile (h : EndsDigits rest) : rest.dropWhile isDigit = rest := by
  have hsplit := List.takeWhile_append_dropWhile (p := isDigit) (l := rest)
  rwa [h.takeWhile, List.nil_append] at hsplit

theorem EndsDigits.dropWhile_append (h : EndsDigits rest) (cs : List Char) :
    (cs ++ rest).dropWhile isDigit = cs.dropWhile isDigit ++ rest := by
  rw [List.dropWhile_append]
  split
  · rename_i hempty
    rw [h.dropWhile, List.isEmpty_iff.1 hempty, List.nil_append]
  · rfl

/-- Digits are split off in the same way whatever follows. -/
theorem EndsDigits.spanDigits_append (h : EndsDigits rest) (cs : List Char) :
    spanDigits (cs ++ rest) = ((spanDigits cs).1, (spanDigits cs).2 ++ rest) := by
  have htake : (cs ++ rest).takeWhile isDigit = cs.takeWhile isDigit := by
    refine (List.append_left_inj (cs.dropWhile isDigit ++ rest)).1 ?_
    rw [← h.dropWhile_append, List.takeWhile_append_dropWhile, h.dropWhile_append,
      ← List.append_assoc, List.takeWhile_append_dropWhile]
  rw [spanDigits, spanDigits, htake, h.dropWhile_append]

theorem takeWhile_of_digits (hd : ∀ c ∈ ds, isDigit c = true) (hr : EndsDigits rest) :
    (ds ++ rest).takeWhile isDigit = ds := by
  rw [List.takeWhile_append_of_pos hd, hr.takeWhile, List.append_nil]

theorem spanDigits_of_digits (hd : ∀ c ∈ ds, isDigit c = true) (hr : EndsDigits rest) :
    spanDigits (ds ++ rest) = (ds, rest) := by
  rw [spanDigits, takeWhile_of_digits hd hr, List.dropWhile_append_of_pos hd, hr.dropWhile]

/-- A digit is no sign. -/
theorem splitSign_of_isDigit (h : isDigit c = true) (cs : List Char) :
    splitSign (c :: cs) = (false, c :: cs) := by
  refine splitSign.eq_3 (c :: cs) ?_ ?_
  all_goals
    intro rest heq
    cases heq
    cases h

theorem splitSign_append_of_digits (hne : ds ≠ []) (hall : ∀ c ∈ ds, isDigit c = true)
    (rest : List Char) : splitSign (ds ++ rest) = (false, ds ++ rest) := by
  cases ds with
  | nil => exact absurd rfl hne
  | cons d ds => exact splitSign_of_isDigit (hall d List.mem_cons_self) (ds ++ rest)

theorem splitSign_of_digits (hne : ds ≠ []) (hall : ∀ c ∈ ds, isDigit c = true) :
    splitSign ds = (false, ds) := by
  have hsplit := splitSign_append_of_digits hne hall []
  rwa [List.append_nil] at hsplit

theorem isBlank_of_isDigit (h : isDigit c = true) : Text.isBlank c = false := by
  have hrange : 48 ≤ c.toNat ∧ c.toNat ≤ 57 := by
    simpa [isDigit, Char.le_def, UInt32.le_iff_toNat_le] using h
  simp only [Text.isBlank, Bool.or_eq_false_iff, Bool.and_eq_false_iff, decide_eq_false_iff_not,
    beq_eq_false_iff_ne]
  omega

/-! ## 2. The digits of a number -/

theorem toList_natural (n : Nat) : (toString n).toList = digitsOf n := by
  rw [Nat.toString_eq_ofList_toDigits, String.toList_ofList]
  rfl

theorem isDigit_of_mem_digitsOf {n : Nat} (h : c ∈ digitsOf n) : isDigit c = true :=
  Nat.isDigit_of_mem_toDigits (by decide) (by decide) h

theorem valueFrom_digitsOf (n : Nat) : valueFrom 0 (digitsOf n) = n :=
  Nat.ofDigitChars_ten_toDigits

/-- Only zero starts with a zero. -/
theorem eq_zero_of_digitsOf {n : Nat} (h : digitsOf n = '0' :: ds) : n = 0 := by
  induction n using Nat.strongRecOn generalizing ds with
  | ind n ih =>
    unfold digitsOf at h
    rw [Nat.toDigits_eq_if (by decide)] at h
    split at h
    · exact Nat.digitChar_eq_zero.1 (List.cons.inj h).1
    · rename_i hge
      cases hfront : Nat.toDigits 10 (n / 10) with
      | nil => exact absurd hfront Nat.toDigits_ne_nil
      | cons c front =>
        rw [hfront] at h
        have hzero := ih (n / 10) (by omega) (hfront.trans (by rw [(List.cons.inj h).1]))
        omega

/-- Reading on does not make a number smaller. -/
theorem le_valueFrom (start : Nat) (ds : List Char) : start ≤ valueFrom start ds := by
  induction ds generalizing start with
  | nil => exact Nat.le_refl start
  | cons c ds ih => exact Nat.le_trans (by omega) (ih (10 * start + (c.toNat - '0'.toNat)))

end QueryPlan.Numeral

namespace QueryPlan.Double

/-! Doubles that are written with digits. -/

theorem isNaN_of_isFinite {x : Double} (h : x.isFinite = true) : x.isNaN = false := by
  rw [isNaN, beq_eq_false_iff_ne.2 (bne_iff_ne.1 h), Bool.false_and]

theorem isInfinite_of_isFinite {x : Double} (h : x.isFinite = true) : x.isInfinite = false := by
  rw [isInfinite, beq_eq_false_iff_ne.2 (bne_iff_ne.1 h), Bool.false_and]

end QueryPlan.Double
