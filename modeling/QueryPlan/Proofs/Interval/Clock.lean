import QueryPlan.Proofs.Calendar.ReadBack
import QueryPlan.Proofs.Number.Numerals
import QueryPlan.Proofs.Text.Pieces
import QueryPlan.Value.Interval

/-!
# The clock of an interval

A clock is written as hours, minutes and seconds, with as many places of a fraction as are needed.
Its seconds are read as a double and multiplied by a million. The double is nearest to a number of
microseconds below a minute, so the product rounds to these microseconds (`clock?_clockText`).
-/

namespace QueryPlan.Interval

open Calendar Numeral

/-! ## 1. Zeros at the end -/

theorem dropBack_append (mark : Char) (cs : List Char) :
    ∃ n, cs = dropBack mark cs ++ List.replicate n mark := by
  have hmarks : ∀ c ∈ cs.reverse.takeWhile (· == mark), c = mark := by
    intro c hc
    simpa using List.all_eq_true.1 List.all_takeWhile c hc
  refine ⟨(cs.reverse.takeWhile (· == mark)).length, ?_⟩
  have hsplit := List.takeWhile_append_dropWhile (p := (· == mark)) (l := cs.reverse)
  rw [List.eq_replicate_of_mem hmarks] at hsplit
  have hback := congrArg List.reverse hsplit
  rw [List.reverse_append, List.reverse_replicate, List.reverse_reverse] at hback
  exact hback.symm

theorem mem_of_mem_dropBack {mark c : Char} {cs : List Char} (h : c ∈ dropBack mark cs) :
    c ∈ cs := by
  obtain ⟨n, hcs⟩ := dropBack_append mark cs
  rw [hcs]
  exact List.mem_append_left _ h

theorem valueFrom_replicate (start n : Nat) :
    valueFrom start (List.replicate n '0') = tenTo n * start :=
  Nat.ofDigitChars_replicate_zero

theorem valueFrom_append (start : Nat) (front back : List Char) :
    valueFrom start (front ++ back) = valueFrom (valueFrom start front) back :=
  Nat.ofDigitChars_append start

theorem valueFrom_eq (start : Nat) (ds : List Char) :
    valueFrom start ds = tenTo ds.length * start + valueFrom 0 ds :=
  Nat.ofDigitChars_eq_ofDigitChars_zero

theorem tenTo_add (m n : Nat) : tenTo (m + n) = tenTo m * tenTo n :=
  Nat.pow_add 10 m n

/-! ## 2. Seconds -/

/-- The seconds of a clock that shows so many microseconds. -/
def secondsDigits (micros : Nat) : List Char :=
  (padded 2 (micros / microsPerSecond)).toList ++
    if micros % microsPerSecond = 0 then []
    else '.' :: dropBack '0' (padded 6 (micros % microsPerSecond)).toList

theorem mem_secondsDigits {micros : Nat} {c : Char} (h : c ∈ secondsDigits micros) :
    isDigit c = true ∨ c = '.' := by
  rw [secondsDigits, List.mem_append] at h
  rcases h with h | h
  · exact .inl (isDigit_of_mem_padded h)
  · split at h
    · cases h
    · rcases List.mem_cons.1 h with rfl | h
      · exact .inr rfl
      · exact .inl (isDigit_of_mem_padded (mem_of_mem_dropBack h))

/-- The digits of the seconds and of a fraction of `places` denote the microseconds, as a fraction
    of `10 ^ places` seconds. -/
theorem valueFrom_fraction (micros : Nat) :
    valueFrom (micros / microsPerSecond)
        (dropBack '0' (padded 6 (micros % microsPerSecond)).toList) * microsPerSecond =
      micros * tenTo (dropBack '0' (padded 6 (micros % microsPerSecond)).toList).length := by
  have hbelow : micros % microsPerSecond < tenTo 6 := Nat.mod_lt _ (by decide)
  have hlength := length_padded (by decide) hbelow
  have hdigits : valueFrom (micros / microsPerSecond) (padded 6 (micros % microsPerSecond)).toList =
      micros := by
    rw [valueFrom_eq, hlength, valueFrom_padded]
    exact Nat.div_add_mod micros microsPerSecond
  obtain ⟨n, hzeros⟩ := dropBack_append '0' (padded 6 (micros % microsPerSecond)).toList
  -- What has been dropped are `n` zeros, so six digits are those that are left and these.
  generalize dropBack '0' (padded 6 (micros % microsPerSecond)).toList = kept at hzeros ⊢
  rw [hzeros, valueFrom_append, valueFrom_replicate] at hdigits
  have hplaces : microsPerSecond = tenTo n * tenTo kept.length := by
    rw [hzeros, List.length_append, List.length_replicate] at hlength
    rw [← tenTo_add, Nat.add_comm, hlength]
    rfl
  calc valueFrom (micros / microsPerSecond) kept * microsPerSecond
      = valueFrom (micros / microsPerSecond) kept * (tenTo n * tenTo kept.length) := by
        rw [← hplaces]
    _ = tenTo n * valueFrom (micros / microsPerSecond) kept * tenTo kept.length := by
        rw [← Nat.mul_assoc, Nat.mul_comm _ (tenTo n)]
    _ = micros * tenTo kept.length := by rw [hdigits]

/-- The fraction that is written is not empty. -/
theorem dropBack_padded_ne_nil {w n : Nat} (hn : n ≠ 0) :
    dropBack '0' (padded w n).toList ≠ [] := by
  intro hnil
  obtain ⟨k, hzeros⟩ := dropBack_append '0' (padded w n).toList
  rw [hnil, List.nil_append] at hzeros
  have hvalue := valueFrom_padded (w := w) (n := n)
  rw [hzeros, valueFrom_replicate, Nat.mul_zero] at hvalue
  exact hn hvalue.symm

/-- **The seconds of a clock are read as the microseconds that they were written for.** -/
theorem seconds_readBack {micros : Nat} (h : micros < microsPerMinute) :
    ∃ x, Double.ofText? (String.ofList (secondsDigits micros)) = some x ∧
      (x * Double.ofNat microsPerSecond).isFinite = true ∧
      (x * Double.ofNat microsPerSecond).nearest = micros := by
  have hwhole : ∀ c ∈ (padded 2 (micros / microsPerSecond)).toList, isDigit c = true :=
    fun _ => isDigit_of_mem_padded
  have hunit : 0 < microsPerSecond ∧ microsPerSecond < twoTo 53 := by decide
  have hsmall : micros < twoTo 50 := Nat.lt_trans h (by decide)
  by_cases hzero : micros % microsPerSecond = 0
  · have hexact : micros / microsPerSecond * microsPerSecond = micros * 1 := by
      rw [Nat.div_mul_cancel (Nat.dvd_of_mod_eq_zero hzero), Nat.mul_one]
    have hread := Double.ofText?_of_digits padded_ne_nil hwhole
    rw [valueFrom_padded] at hread
    refine ⟨_, ?_, Double.nearest_mul_ofNat Nat.one_pos hunit.1 hunit.2 hexact hsmall⟩
    rw [secondsDigits, if_pos hzero, List.append_nil, hread]
  · have hbelow : micros % microsPerSecond < tenTo 6 := Nat.mod_lt _ (by decide)
    have hlength := length_padded (by decide) hbelow
    obtain ⟨n, hzeros⟩ := dropBack_append '0' (padded 6 (micros % microsPerSecond)).toList
    have hfew : (dropBack '0' (padded 6 (micros % microsPerSecond)).toList).length ≤ 400 := by
      rw [hzeros, List.length_append] at hlength
      omega
    have hfraction : ∀ c ∈ dropBack '0' (padded 6 (micros % microsPerSecond)).toList,
        isDigit c = true := fun _ hc => isDigit_of_mem_padded (mem_of_mem_dropBack hc)
    have hread := Double.ofText?_of_fraction padded_ne_nil hwhole hfraction
      (dropBack_padded_ne_nil hzero) hfew
    rw [valueFrom_padded] at hread
    have hden : 0 < tenTo (dropBack '0' (padded 6 (micros % microsPerSecond)).toList).length :=
      Nat.pow_pos (by decide)
    refine ⟨_, ?_, Double.nearest_mul_ofNat hden hunit.1 hunit.2 (valueFrom_fraction micros) hsmall⟩
    rw [secondsDigits, if_neg hzero, hread]

/-! ## 3. Clocks -/

/-- The characters of a clock without its sign. -/
def clockDigits (micros : Nat) : List Char :=
  (padded 2 (micros / microsPerHour)).toList ++
    ':' :: ((padded 2 (micros % microsPerHour / microsPerMinute)).toList ++
      ':' :: secondsDigits (micros % microsPerMinute))

/-- What is read from a clock: the parts of the microseconds that it was written for. -/
def clockParts (negative : Bool) (micros : Nat) : ClockReading :=
  { negative
    hours := (micros / microsPerHour : Nat)
    minutes := (micros % microsPerHour / microsPerMinute : Nat)
    seconds := (micros % microsPerMinute : Nat) }

theorem toList_clockText (micros : Int) :
    (clockText micros).toList =
      (if micros < 0 then ['-'] else []) ++ clockDigits micros.natAbs := by
  have hseconds : micros.natAbs % microsPerMinute % microsPerSecond =
      micros.natAbs % microsPerSecond := Nat.mod_mod_of_dvd _ (by decide)
  rw [clockDigits, secondsDigits, hseconds, clockText]
  by_cases hneg : micros < 0 <;> by_cases hzero : micros.natAbs % microsPerSecond = 0 <;>
    simp [hneg, hzero, toString]

theorem not_mem_padded {c : Char} (hc : isDigit c = false) (w n : Nat) :
    c ∉ (padded w n).toList := by
  intro hmem
  rw [isDigit_of_mem_padded hmem] at hc
  cases hc

theorem splitOn_clockDigits (micros : Nat) :
    Text.splitOn ':' (clockDigits micros) =
      [(padded 2 (micros / microsPerHour)).toList,
        (padded 2 (micros % microsPerHour / microsPerMinute)).toList,
        secondsDigits (micros % microsPerMinute)] := by
  have hseconds : ':' ∉ secondsDigits (micros % microsPerMinute) := by
    intro hmem
    rcases mem_secondsDigits hmem with h | h <;> cases h
  rw [clockDigits, Text.splitOn_append (not_mem_padded rfl _ _),
    Text.splitOn_append (not_mem_padded rfl _ _), Text.splitOn_of_not_mem hseconds]

theorem signedCount?_padded {n : Nat} (h : (n : Int) ≤ maxInt64) :
    signedCount? (padded 2 n).toList = some (n : Int) := by
  have hall : ∀ c ∈ (padded 2 n).toList, isDigit c = true := fun _ => isDigit_of_mem_padded
  have hleast : minInt64 ≤ (n : Int) := by
    rw [minInt64]
    omega
  exact integerIn?_of_digits padded_ne_nil hall valueFrom_padded hleast h

theorem readClock?_clockDigits (negative : Bool) {micros : Nat} (h : (micros : Int) ≤ maxInt64) :
    readClock? negative (clockDigits micros) = some (clockParts negative micros) := by
  have hhours : ((micros / microsPerHour : Nat) : Int) ≤ maxInt64 :=
    Int.le_trans (Int.ofNat_le.2 (Nat.div_le_self _ _)) h
  have hminutes : ((micros % microsPerHour / microsPerMinute : Nat) : Int) ≤ maxInt64 :=
    Int.le_trans
      (Int.ofNat_le.2 (Nat.le_trans (Nat.div_le_self _ _) (Nat.mod_le _ _))) h
  have hbelow : micros % microsPerMinute < microsPerMinute := Nat.mod_lt _ (by decide)
  obtain ⟨x, hx, hfinite, hnearest⟩ := seconds_readBack hbelow
  have hsaturate : (x * Double.ofNat microsPerSecond).saturate Double.nearest minInt64 maxInt64 =
      (micros % microsPerMinute : Nat) := by
    rw [Double.saturate_eq _ hfinite, hnearest]
    rw [hnearest, minInt64, maxInt64]
    simp only [microsPerMinute, microsPerSecond] at hbelow ⊢
    omega
  simp only [readClock?, clockFields?, splitOn_clockDigits, signedCount?_padded hhours,
    signedCount?_padded hminutes, hx, hsaturate, Option.bind_eq_bind, Option.bind_some]
  rfl

/-- **A clock is read as it was written.** -/
theorem clock?_clockText {micros : Int} (h : (micros.natAbs : Int) ≤ maxInt64) :
    clock? (clockText micros).toList = some (clockParts (decide (micros < 0)) micros.natAbs) := by
  rw [toList_clockText]
  by_cases hneg : micros < 0
  · simp only [hneg, if_true, decide_true]
    exact readClock?_clockDigits true h
  · simp only [hneg, if_false, decide_false, List.nil_append]
    rw [← readClock?_clockDigits false h]
    refine clock?.eq_2 _ ?_
    intro rest heq
    -- The first character is a digit of the hours.
    cases hhours : (padded 2 (micros.natAbs / microsPerHour)).toList with
    | nil => exact padded_ne_nil hhours
    | cons c digits =>
      have hdigit : isDigit c = true :=
        isDigit_of_mem_padded (w := 2) (n := micros.natAbs / microsPerHour)
          (by rw [hhours]; exact List.mem_cons_self)
      rw [clockDigits, hhours] at heq
      cases heq
      cases hdigit

/-- The parts of a clock add up to its microseconds. -/
theorem micros_clockParts (micros : Int) :
    (clockParts (decide (micros < 0)) micros.natAbs).micros = micros := by
  have hsum : micros.natAbs / microsPerHour * microsPerHour +
      micros.natAbs % microsPerHour / microsPerMinute * microsPerMinute +
        micros.natAbs % microsPerMinute = micros.natAbs := by
    simp only [microsPerHour, microsPerMinute, microsPerSecond]
    omega
  have hcast := congrArg (Nat.cast (R := Int)) hsum
  simp only [Int.natCast_add, Int.natCast_mul] at hcast
  simp only [ClockReading.micros, clockParts, hcast, decide_eq_true_eq]
  omega

end QueryPlan.Interval
