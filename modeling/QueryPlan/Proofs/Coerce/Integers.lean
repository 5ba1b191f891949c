import QueryPlan.Proofs.Coerce.Keeping
import QueryPlan.Proofs.Number.Exact

/-!
# Coercion to integers

A truth value, a number, a text of a number and each of these in JSON denotes a rational number
(`Value.number?`). Coercion to a type of integers is exact where an integer comes out that is this
number, and a number out of the range of the type is refused.

Coercion to unsigned integers is exact. Coercion to signed integers is exact but for the doubles out
of range, which are moved to the end of the range that is nearer (`integer_coercion_exact_iff`).
-/

namespace QueryPlan

open Numeral

namespace Value

variable {i : Int64} {v : Value} {cs : List Char} {x : Double} {t : DataType} {n : UInt64}

/-! ## 1. Numbers and exactness -/

/-- The number that a value denotes. A text may have blanks around the number. -/
def number? : Value → Option ℚ
  | bool b => some (if b then 1 else 0)
  | int n => some n.toInt
  | uint n => some n.toNat
  | float x => x.value?
  | decimal s => Numeral.value? (Text.trim s.toList)
  | text s => Numeral.value? (Text.trim s.toList)
  | json (.bool b) => some (if b then 1 else 0)
  | json (.number (.integer n _)) => some n
  | json (.number (.double x _)) => x.value?
  | json (.text s) => Numeral.value? (Text.trim s.toList)
  | _ => none

/-- The double that a value is. -/
def asDouble? : Value → Option Double
  | float x => some x
  | json (.number (.double x _)) => some x
  | _ => none

/-- Whether a value, if it is a text, is spelled as an integer. -/
def isWholeForm : Value → Bool
  | decimal s => isWholeSpelling (Text.trim s.toList)
  | text s => isWholeSpelling (Text.trim s.toList)
  | json (.text s) => isWholeSpelling (Text.trim s.toList)
  | _ => true

/-- Whether a value is no double and, if it is a text, is spelled as a natural number. -/
def isNaturalForm : Value → Bool
  | float _ => false
  | json (.number (.double _ _)) => false
  | decimal s => isNaturalSpelling (Text.trim s.toList)
  | text s => isNaturalSpelling (Text.trim s.toList)
  | json (.text s) => isNaturalSpelling (Text.trim s.toList)
  | _ => true

/-- A double that denotes a number out of the range of signed integers. -/
def Overflows (v : Value) : Prop :=
  ∃ x q, v.asDouble? = some x ∧ x.value? = some q ∧ ¬((minInt64 : ℚ) ≤ q ∧ q ≤ (maxInt64 : ℚ))

/-- The error of a value that does not come to a type. -/
def refusal (t : DataType) (v : Value) : Error :=
  mismatch ("a value of type " ++ t.describe) v.describe

/-- Coercion to a type of integers from `low` to `high` is exact: the integer that comes out is the
    number that the value denotes, and a number out of the range is refused. -/
structure Exact {α : Type} (wrap : α → Value) (toInt : α → Int) (low high : Int) (t : DataType)
    (v : Value) : Prop where
  kept : ∀ i, v.coerce t = .ok (wrap i) → v.number? = some (toInt i : ℚ)
  refused : ∀ q, v.number? = some q → ¬((low : ℚ) ≤ q ∧ q ≤ (high : ℚ)) →
    v.coerce t = .error (v.refusal t)

abbrev SignedExact : DataType → Value → Prop := Exact int Int64.toInt minInt64 maxInt64

abbrev UnsignedExact : DataType → Value → Prop := Exact uint (fun n => n.toNat) 0 maxUInt64

/-! ## 2. Machine integers -/

theorem toInt_range (i : Int64) : minInt64 ≤ i.toInt ∧ i.toInt ≤ maxInt64 :=
  ⟨i.le_toInt, Int.le_of_lt_add_one i.toInt_lt⟩

theorem toInt_ofInt {n : Int} (h : minInt64 ≤ n ∧ n ≤ maxInt64) : (Int64.ofInt n).toInt = n :=
  Int64.toInt_ofInt_of_le h.1 (Int.lt_add_one_of_le h.2)

theorem ofInt_eq_iff {n : Int} (h : minInt64 ≤ n ∧ n ≤ maxInt64) :
    Int64.ofInt n = i ↔ n = i.toInt := by
  constructor
  · rintro rfl
    exact (toInt_ofInt h).symm
  · rintro rfl
    exact Int64.ofInt_toInt i

/-! ## 3. Texts -/

theorem int64OfText?_eq_some_iff : int64OfText? cs = some i ↔ integer? cs = some i.toInt := by
  rw [int64OfText?, integerIn?]
  cases integer? cs with
  | none => simp
  | some n =>
    by_cases h : minInt64 ≤ n ∧ n ≤ maxInt64
    · simp [Option.filter_some, h, ofInt_eq_iff h]
    · have hne : n ≠ i.toInt := fun hn => h (hn ▸ toInt_range i)
      simp [Option.filter_some, hne]
      omega

theorem dropPointZero?_eq_some_iff {front : List Char} :
    dropPointZero? cs = some front ↔ cs = front ++ ['.', '0'] := by
  unfold dropPointZero?
  constructor
  · intro h
    split at h
    · next hend =>
      cases h
      rw [← hend, List.take_append_drop]
    · cases h
  · rintro rfl
    simp

/-- With a point in it a text is no integer. -/
theorem integer?_of_point (h : '.' ∈ cs) : integer? cs = none := by
  by_contra hsome
  obtain ⟨n, hn⟩ := Option.ne_none_iff_exists'.1 hsome
  obtain ⟨negative, ds, hsplit, -, hall, -⟩ := integer?_eq_some_iff.1 hn
  have hmem : '.' ∈ ds := by
    have hcases := Lexicon.splitSign_cases cs
    rw [hsplit] at hcases
    rcases hcases with ⟨sign, hsign, rfl⟩ | rfl
    · refine (List.mem_cons.1 h).resolve_left ?_
      rcases hsign with rfl | rfl <;> decide
    · exact h
  exact Bool.false_ne_true (hall '.' hmem)

/-- The integer that is read from a text, with `.0` at its end or without. -/
def integerText? (cs : List Char) : Option Int64 :=
  int64OfText? cs <|> (dropPointZero? cs).bind int64OfText?

/-- A text is read as an integer exactly if it is spelled as one and denotes it. -/
theorem integerText?_eq_some_iff :
    integerText? cs = some i ↔
      isWholeSpelling cs = true ∧ Numeral.value? cs = some (i.toInt : ℚ) := by
  have hpoint : ∀ front, int64OfText? (front ++ ['.', '0']) = none := by
    intro front
    rw [int64OfText?, integerIn?, integer?_of_point (by simp)]
    rfl
  constructor
  · intro h
    rw [integerText?] at h
    cases hwhole : int64OfText? cs with
    | some j =>
      rw [hwhole] at h
      cases h
      have hread := int64OfText?_eq_some_iff.1 hwhole
      exact ⟨isWholeSpelling_iff.2 ⟨cs, _, hread, .inl rfl⟩, value?_of_integer? hread⟩
    | none =>
      rw [hwhole] at h
      obtain ⟨front, hfront, hread⟩ := Option.bind_eq_some_iff.1 h
      rw [int64OfText?_eq_some_iff] at hread
      rw [dropPointZero?_eq_some_iff] at hfront
      rw [hfront]
      exact ⟨isWholeSpelling_iff.2 ⟨front, _, hread, .inr rfl⟩, value?_of_pointZero hread⟩
  · rintro ⟨hspelling, hvalue⟩
    obtain ⟨front, n, hread, rfl | rfl⟩ := isWholeSpelling_iff.1 hspelling
    · rw [value?_of_integer? hread, Option.some.injEq, Int.cast_inj] at hvalue
      rw [integerText?, int64OfText?_eq_some_iff.2 (hvalue ▸ hread)]
      rfl
    · rw [value?_of_pointZero hread, Option.some.injEq, Int.cast_inj] at hvalue
      rw [integerText?, hpoint, dropPointZero?_eq_some_iff.2 rfl]
      exact int64OfText?_eq_some_iff.2 (hvalue ▸ hread)

/-! ## 4. Doubles -/

/-- The integer that is made of a double. -/
def integerOfDouble? (x : Double) : Option Int64 :=
  if x.isWhole then some (Int64.ofInt (x.saturate Double.truncate minInt64 maxInt64)) else none

/-- A double in the range becomes an integer exactly if it denotes it. -/
theorem integerOfDouble?_eq_some_iff
    (hrange : ∀ q, x.value? = some q → (minInt64 : ℚ) ≤ q ∧ q ≤ (maxInt64 : ℚ)) :
    integerOfDouble? x = some i ↔ x.value? = some (i.toInt : ℚ) := by
  have hwhole : x.isWhole = true → (integerOfDouble? x = some i ↔ x.truncate = i.toInt) := by
    intro hx
    obtain ⟨hleast, hgreatest⟩ := hrange _ (Double.value?_of_isWhole hx)
    rw [Int.cast_le] at hleast hgreatest
    rw [integerOfDouble?, if_pos hx,
      Double.saturate_eq _ (Double.isWhole_iff.1 hx).1 ⟨hleast, hgreatest⟩, Option.some.injEq,
      ofInt_eq_iff ⟨hleast, hgreatest⟩]
  constructor
  · intro h
    have hx : x.isWhole = true := by
      by_contra hx
      rw [integerOfDouble?, if_neg hx] at h
      cases h
    rw [Double.value?_of_isWhole hx, (hwhole hx).1 h]
  · intro h
    have hx := Double.isWhole_of_value? h
    rw [Double.value?_of_isWhole hx, Option.some.injEq, Int.cast_inj] at h
    exact (hwhole hx).2 h

/-- A double out of the range is moved to the nearer end of it. -/
theorem integerOfDouble?_of_overflow {q : ℚ} (h : x.value? = some q) :
    (q < (minInt64 : ℚ) → integerOfDouble? x = some Int64.minValue) ∧
      ((maxInt64 : ℚ) < q → integerOfDouble? x = some Int64.maxValue) := by
  -- Out of the range there are no fractions, so that the double is the integer it is cut to.
  have hclamp : ((twoTo 53 : Nat) : ℚ) ≤ |q| → q = (x.truncate : ℚ) ∧ integerOfDouble? x =
      some (Int64.ofInt (Double.clamp minInt64 maxInt64 x.truncate)) := by
    intro hlarge
    have hx := Double.isWhole_of_large h hlarge
    rw [Double.value?_of_isWhole hx, Option.some.injEq] at h
    rw [integerOfDouble?, if_pos hx, Double.saturate_eq_clamp _ _ _ (Double.isWhole_iff.1 hx).1]
    exact ⟨h.symm, rfl⟩
  have hlimit : ((twoTo 53 : Nat) : ℚ) = 9007199254740992 := by
    rw [Double.twoTo_53]
    norm_num
  have hleast : (minInt64 : ℚ) = -9223372036854775808 := by norm_num [minInt64]
  have hgreatest : (maxInt64 : ℚ) = 9223372036854775807 := by norm_num [maxInt64]
  constructor
  · intro hq
    obtain ⟨hcut, hread⟩ := hclamp (by linarith [neg_le_abs q])
    rw [hcut, Int.cast_lt] at hq
    have hend : Double.clamp minInt64 maxInt64 x.truncate = minInt64 := by
      unfold Double.clamp minInt64 maxInt64 at *
      omega
    rw [hread, hend]
    rfl
  · intro hq
    obtain ⟨hcut, hread⟩ := hclamp (by linarith [le_abs_self q])
    rw [hcut, Int.cast_lt] at hq
    have hend : Double.clamp minInt64 maxInt64 x.truncate = maxInt64 := by
      unfold Double.clamp minInt64 maxInt64 at *
      omega
    rw [hread, hend]
    rfl

/-! ## 5. Values -/

/-- In JSON a value has the number and the form that it has without the wrapping. -/
theorem unwrapScalar_forms (v : Value) : v.unwrapScalar.number? = v.number? ∧
    v.unwrapScalar.asDouble? = v.asDouble? ∧ v.unwrapScalar.isWholeForm = v.isWholeForm ∧
      v.unwrapScalar.isNaturalForm = v.isNaturalForm := by
  cases v with
  | json j =>
    cases j with
    | number n =>
      cases n with
      | double x hx => exact ⟨rfl, rfl, rfl, rfl⟩
      | integer n hn =>
        have hunwrap : (json (.number (.integer n hn))).unwrapScalar =
            ofJson (.number (.integer n hn)) := rfl
        rw [hunwrap, ofJson]
        split
        · next hfits =>
          refine ⟨?_, rfl, rfl, rfl⟩
          rw [number?, toInt_ofInt ⟨hn.1, hfits⟩]
          rfl
        · next hlarge =>
          refine ⟨?_, rfl, rfl, rfl⟩
          have hcast : ((UInt64.ofNat n.toNat).toNat : Int) = n := by
            unfold minInt64 maxInt64 maxUInt64 at *
            rw [UInt64.toNat_ofNat_of_lt' (by unfold UInt64.size; omega)]
            omega
          have hnumber : (((UInt64.ofNat n.toNat).toNat : Nat) : ℚ) = (n : ℚ) := by
            exact_mod_cast congrArg (fun m : Int => (m : ℚ)) hcast
          rw [number?, hnumber]
          rfl
    | _ => exact ⟨rfl, rfl, rfl, rfl⟩
  | _ => exact ⟨rfl, rfl, rfl, rfl⟩

/-- What is left wrapped is no scalar. -/
theorem number?_of_wrapped {j : Json} (h : v.unwrapScalar = json j) : (json j).number? = none := by
  cases v with
  | json k =>
    cases k with
    | array items | object fields =>
      cases h
      rfl
    | number n =>
      rcases ofJson_number n with ⟨k, hk⟩ | ⟨k, hk⟩ | ⟨x, hx⟩
      · cases hk.symm.trans h
      · cases hk.symm.trans h
      · cases hx.symm.trans h
    | _ => cases h
  | _ => cases h

theorem some_toInt_iff (j : Int64) : some j = some i ↔ some (j.toInt : ℚ) = some (i.toInt : ℚ) := by
  simp [Int64.toInt_inj]

/-- A value becomes a signed integer exactly if it denotes it and is not spelled in another way,
    unless it is a double out of the range. -/
theorem toInt?_eq_some_iff (h : ¬v.Overflows) :
    v.toInt? = some i ↔ v.isWholeForm = true ∧ v.number? = some (i.toInt : ℚ) := by
  obtain ⟨hnumber, hdouble, hwhole, -⟩ := unwrapScalar_forms v
  rw [toInt?, ← hnumber, ← hwhole]
  cases hu : v.unwrapScalar with
  | int n => exact (some_toInt_iff n).trans (and_iff_right rfl).symm
  | uint n =>
    dsimp only
    split
    · next hfits =>
      have hint : (Int64.ofNat n.toNat).toInt = n.toNat :=
        Int64.toInt_ofNat_of_lt (by unfold maxInt64 at hfits; omega)
      rw [some_toInt_iff, hint]
      exact (and_iff_right rfl).symm
    · next hlarge =>
      refine iff_of_false (Option.some_ne_none i).symm ?_
      rintro ⟨-, hn⟩
      rw [number?, Option.some.injEq] at hn
      have hn' : (n.toNat : Int) = i.toInt := by exact_mod_cast hn
      exact hlarge (hn' ▸ (toInt_range i).2)
  | bool b => cases b <;> exact (some_toInt_iff _).trans (and_iff_right rfl).symm
  | float x =>
    rw [hu] at hdouble
    refine (integerOfDouble?_eq_some_iff fun q hq => ?_).trans (and_iff_right rfl).symm
    by_contra hout
    exact h ⟨x, q, hdouble.symm, hq, hout⟩
  | text s | decimal s => exact integerText?_eq_some_iff
  | json j =>
    rw [number?_of_wrapped hu]
    simp
  | _ => simp [number?]

theorem toInt?_of_asDouble? (h : v.asDouble? = some x) : v.toInt? = integerOfDouble? x := by
  unfold asDouble? at h
  split at h <;> cases h <;> rfl

theorem some_toNat_iff (m : UInt64) :
    some m = some n ↔ some (m.toNat : ℚ) = some (n.toNat : ℚ) := by
  simp [UInt64.toNat_inj]

/-- The unsigned integer that is read from a text. -/
def naturalText? (cs : List Char) : Option UInt64 :=
  (unsigned? cs).bind fun n => if (n : Int) ≤ maxUInt64 then some (UInt64.ofNat n) else none

theorem naturalText?_eq_some_iff : naturalText? cs = some n ↔
    isNaturalSpelling cs = true ∧ Numeral.value? cs = some (n.toNat : ℚ) := by
  rw [← unsigned?_eq_some_iff, naturalText?]
  constructor
  · intro h
    obtain ⟨m, hm, hn⟩ := Option.bind_eq_some_iff.1 h
    split at hn
    · next hfits =>
      cases hn
      rw [hm, UInt64.toNat_ofNat_of_lt' (by unfold UInt64.size; unfold maxUInt64 at hfits; omega)]
    · cases hn
  · intro h
    have hfits : (n.toNat : Int) ≤ maxUInt64 := by
      have hlt := n.toNat_lt
      unfold maxUInt64
      omega
    rw [h, Option.bind_some, if_pos hfits, UInt64.ofNat_toNat]

/-- A text and a decimal are read alike. -/
theorem toUInt?_text (s : String) :
    (text s).toUInt? = naturalText? (Text.trim s.toList) ∧
      (decimal s).toUInt? = naturalText? (Text.trim s.toList) := by
  simp only [toUInt?, unwrapScalar, naturalText?]
  cases unsigned? (Text.trim s.toList) <;> exact ⟨rfl, rfl⟩

/-- A value becomes an unsigned integer exactly if it denotes it, is no double and is not spelled in
    another way. -/
theorem toUInt?_eq_some_iff :
    v.toUInt? = some n ↔ v.isNaturalForm = true ∧ v.number? = some (n.toNat : ℚ) := by
  obtain ⟨hnumber, -, -, hnatural⟩ := unwrapScalar_forms v
  rw [toUInt?, ← hnumber, ← hnatural]
  cases hu : v.unwrapScalar with
  | int m =>
    dsimp only
    split
    · next hsign =>
      have hlt := m.toInt_lt
      have hnat : (UInt64.ofNat m.toInt.toNat).toNat = m.toInt.toNat :=
        UInt64.toNat_ofNat_of_lt' (by unfold UInt64.size; omega)
      have hcast : ((m.toInt.toNat : Nat) : ℚ) = (m.toInt : ℚ) := by
        exact_mod_cast congrArg (fun k : Int => (k : ℚ)) (Int.toNat_of_nonneg hsign)
      rw [some_toNat_iff, hnat, hcast]
      exact (and_iff_right rfl).symm
    · next hsign =>
      refine iff_of_false (Option.some_ne_none n).symm ?_
      rintro ⟨-, hn⟩
      rw [number?, Option.some.injEq] at hn
      have hn' : m.toInt = (n.toNat : Int) := by exact_mod_cast hn
      omega
  | uint m => exact (some_toNat_iff m).trans (and_iff_right rfl).symm
  | bool b => cases b <;> exact (some_toNat_iff _).trans (and_iff_right rfl).symm
  | float x => exact iff_of_false (Option.some_ne_none n).symm fun h => Bool.false_ne_true h.1
  | text s => exact (Eq.congr_left (toUInt?_text s).1).trans naturalText?_eq_some_iff
  | decimal s => exact (Eq.congr_left (toUInt?_text s).2).trans naturalText?_eq_some_iff
  | json j =>
    rw [number?_of_wrapped hu]
    simp
  | _ => simp [number?]

theorem number?_of_asDouble? (h : v.asDouble? = some x) : v.number? = x.value? := by
  unfold asDouble? at h
  split at h <;> cases h <;> rfl

/-- What denotes a number in the range is no double out of the range. -/
theorem not_overflows (h : v.number? = some (i.toInt : ℚ)) : ¬v.Overflows := by
  rintro ⟨x, q, hx, hq, hout⟩
  rw [number?_of_asDouble? hx, hq, Option.some.injEq] at h
  apply hout
  rw [h]
  exact ⟨Int.cast_le.2 (toInt_range i).1, Int.cast_le.2 (toInt_range i).2⟩

/-! ## 6. Coercion -/

theorem coerce_of_convert?_eq_none (hv : v ≠ null) (ht : ∀ element, t ≠ .array element)
    (h : v.convert? t = none) : v.coerce t = .error (v.refusal t) := by
  rw [coerce.eq_def]
  split
  · exact absurd rfl hv
  · exact absurd rfl (ht _)
  · rw [h]
    rfl

section Reading

variable {α : Type} {wrap : α → Value} {toInt : α → Int} {low high : Int} {t : DataType} {v : Value}
  {read : Option α} {form : Bool}

/-- What comes out of a coercion that wraps what it reads. -/
theorem coerce_eq_ok_wrap_iff (hwrap : Function.Injective wrap) (hnull : ∀ i, wrap i ≠ null)
    (ht : ∀ element, t ≠ .array element) (hconvert : v.convert? t = read.map wrap)
    (hread : v = null → read = none) {i : α} : v.coerce t = .ok (wrap i) ↔ read = some i := by
  by_cases hv : v = null
  · rw [hread hv, hv, coerce_null]
    exact iff_of_false (fun h => hnull i (Except.ok.inj h).symm) (Option.some_ne_none i).symm
  · rw [coerce_eq_ok_iff_convert? hv ht, hconvert, Option.map_eq_some_iff]
    simp [hwrap.eq_iff]

/-- A coercion is exact if it reads what the value denotes, if only in some of its forms. -/
theorem exact_of_read (hcoerce : ∀ i, v.coerce t = .ok (wrap i) ↔ read = some i)
    (ht : ∀ element, t ≠ .array element) (hconvert : v.convert? t = read.map wrap)
    (hread : ∀ i, read = some i ↔ form = true ∧ v.number? = some (toInt i : ℚ))
    (hrange : ∀ i, low ≤ toInt i ∧ toInt i ≤ high) : Exact wrap toInt low high t v where
  kept i h := ((hread i).1 ((hcoerce i).1 h)).2
  refused q hq hout := by
    have hv : v ≠ null := by
      rintro rfl
      cases hq
    refine coerce_of_convert?_eq_none hv ht ?_
    rw [hconvert, Option.map_eq_none_iff, Option.eq_none_iff_forall_ne_some]
    intro i hi
    have hnumber := ((hread i).1 hi).2
    rw [hq, Option.some.injEq] at hnumber
    apply hout
    rw [hnumber]
    exact ⟨Int.cast_le.2 (hrange i).1, Int.cast_le.2 (hrange i).2⟩

end Reading

theorem convert?_signed (ht : t ∈ [DataType.smallInt, .integer, .bigInt]) (v : Value) :
    (∀ element, t ≠ .array element) ∧ v.convert? t = v.toInt?.map int := by
  simp only [List.mem_cons, List.not_mem_nil, or_false] at ht
  rcases ht with rfl | rfl | rfl <;> exact ⟨by simp, rfl⟩

theorem convert?_unsigned (ht : t ∈ [DataType.unsignedInteger, .unsignedBigInt]) (v : Value) :
    (∀ element, t ≠ .array element) ∧ v.convert? t = v.toUInt?.map uint := by
  simp only [List.mem_cons, List.not_mem_nil, or_false] at ht
  rcases ht with rfl | rfl <;> exact ⟨by simp, rfl⟩

/-- **Coercion to integers is exact but for the doubles out of the signed range.** To a signed type
    every other value comes out as the number it denotes or is refused, while such a double comes
    out as the end of the range that is nearer. To an unsigned type every value comes out as the
    number it denotes or is refused. A number in the range comes out in each of its forms that are
    read: no text of it with a point or an exponent, except a point and one zero in a signed type,
    and no double in an unsigned type. -/
theorem integer_coercion_exact_iff (v : Value) :
    (∀ t ∈ [DataType.smallInt, .integer, .bigInt],
      (SignedExact t v ↔ ¬v.Overflows) ∧
        (∀ x q, v.asDouble? = some x → x.value? = some q →
          (q < (minInt64 : ℚ) → v.coerce t = .ok (int Int64.minValue)) ∧
            ((maxInt64 : ℚ) < q → v.coerce t = .ok (int Int64.maxValue))) ∧
          ∀ i : Int64, v.isWholeForm = true → v.number? = some (i.toInt : ℚ) →
            v.coerce t = .ok (int i)) ∧
      ∀ t ∈ [DataType.unsignedInteger, .unsignedBigInt],
        UnsignedExact t v ∧
          ∀ n : UInt64, v.isNaturalForm = true → v.number? = some (n.toNat : ℚ) →
            v.coerce t = .ok (uint n) := by
  constructor
  · intro t ht
    obtain ⟨harray, hconvert⟩ := convert?_signed ht v
    have hcoerce : ∀ i, v.coerce t = .ok (int i) ↔ v.toInt? = some i := fun i =>
      coerce_eq_ok_wrap_iff (fun _ _ h => by cases h; rfl) (by simp) harray hconvert
        (fun h => by rw [h]; rfl)
    have hends : ∀ x q, v.asDouble? = some x → x.value? = some q →
        (q < (minInt64 : ℚ) → v.coerce t = .ok (int Int64.minValue)) ∧
          ((maxInt64 : ℚ) < q → v.coerce t = .ok (int Int64.maxValue)) := by
      intro x q hx hq
      rw [hcoerce, hcoerce, toInt?_of_asDouble? hx]
      exact integerOfDouble?_of_overflow hq
    refine ⟨⟨fun hexact => ?_, fun hfits => ?_⟩, hends, fun i hform hnumber => ?_⟩
    · rintro ⟨x, q, hx, hq, hout⟩
      have hrefused := hexact.refused q ((number?_of_asDouble? hx).trans hq) hout
      rcases not_and_or.1 hout with hlow | hhigh
      · cases hrefused.symm.trans ((hends x q hx hq).1 (not_le.1 hlow))
      · cases hrefused.symm.trans ((hends x q hx hq).2 (not_le.1 hhigh))
    · exact exact_of_read hcoerce harray hconvert (fun _ => toInt?_eq_some_iff hfits) toInt_range
    · exact (hcoerce i).2 ((toInt?_eq_some_iff (not_overflows hnumber)).2 ⟨hform, hnumber⟩)
  · intro t ht
    obtain ⟨harray, hconvert⟩ := convert?_unsigned ht v
    have hcoerce : ∀ n, v.coerce t = .ok (uint n) ↔ v.toUInt? = some n := fun n =>
      coerce_eq_ok_wrap_iff (fun _ _ h => by cases h; rfl) (by simp) harray hconvert
        (fun h => by rw [h]; rfl)
    have hrange (n : UInt64) : (0 : Int) ≤ n.toNat ∧ (n.toNat : Int) ≤ maxUInt64 := by
      have hlt := n.toNat_lt
      unfold maxUInt64
      omega
    refine ⟨?_, fun n hform hnumber => ?_⟩
    · exact exact_of_read hcoerce harray hconvert (fun _ => toUInt?_eq_some_iff) hrange
    · exact (hcoerce n).2 (toUInt?_eq_some_iff.2 ⟨hform, hnumber⟩)

/-- The double `2 ^ 63` is one above the signed range: it comes out as the greatest integer of the
    range, and is refused by an unsigned type. A truth value is a number in both ranges. -/
theorem integer_coercion_exact_iff_here :
    (float ⟨0x43E0000000000000⟩).number? = some 9223372036854775808 ∧
      (float ⟨0x43E0000000000000⟩).coerce .bigInt = .ok (int Int64.maxValue) ∧
      ¬SignedExact .bigInt (float ⟨0x43E0000000000000⟩) ∧
      UnsignedExact .unsignedBigInt (float ⟨0x43E0000000000000⟩) ∧
      (bool true).coerce .smallInt = .ok (int 1) ∧
      (bool true).coerce .unsignedInteger = .ok (uint 1) := by
  obtain ⟨hsigned, hunsigned⟩ := integer_coercion_exact_iff (float ⟨0x43E0000000000000⟩)
  obtain ⟨hexact, hends, -⟩ := hsigned .bigInt (by simp)
  have hvalue : Double.value? ⟨0x43E0000000000000⟩ = some 9223372036854775808 :=
    Double.value?_of_isWhole rfl
  have habove : ((maxInt64 : Int) : ℚ) < 9223372036854775808 := by norm_num [maxInt64]
  obtain ⟨hsigned', hunsigned'⟩ := integer_coercion_exact_iff (bool true)
  refine ⟨hvalue, (hends _ _ rfl hvalue).2 habove, fun h => hexact.1 h ?_,
    (hunsigned .unsignedBigInt (by simp)).1, ?_, ?_⟩
  · exact ⟨_, _, rfl, hvalue, fun hin => absurd hin.2 (not_le.2 habove)⟩
  · refine (hsigned' .smallInt (by simp)).2.2 1 rfl ?_
    simp [number?]
  · refine (hunsigned' .unsignedInteger (by simp)).2 1 rfl ?_
    simp [number?]

end Value

end QueryPlan
