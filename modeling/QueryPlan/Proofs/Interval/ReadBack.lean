import QueryPlan.Proofs.Interval.Clock

/-!
# Intervals that are read back

The text of an interval is a list of parts, each of which is read as one term: an amount of years,
months or days, or a clock (`PartReads`). The terms of a written interval add up to it, and as the
terms of one component have one sign, no sum of some of them is further from zero than the whole
(`parse_render`, `sumsFit_render`).

An interval of `Int64.minValue` microseconds is left out: the magnitude that its clock would show
has one microsecond too many for a signed integer of 64 bits.
-/

namespace QueryPlan.Interval

open Calendar Numeral Text

variable {i : Interval} {unit : String} {count : Term → Int} {word : List Char} {measure : Measure}
  {micros : Int}

/-! ## 1. Sums -/

section Sums

variable {count : Term → Int} {terms : List Term}

theorem total_append (front back : List Term) :
    total count (front ++ back) = total count front + total count back := by
  induction front with
  | nil => exact (Int.zero_add _).symm
  | cons term front ih =>
    have hcons : total count (term :: front ++ back) =
        count term + total count (front ++ back) := rfl
    rw [hcons, ih, ← Int.add_assoc]
    rfl

theorem total_nonneg (h : ∀ term ∈ terms, 0 ≤ count term) : 0 ≤ total count terms := by
  induction terms with
  | nil => exact Int.le_refl 0
  | cons term terms ih =>
    obtain ⟨hterm, hterms⟩ := List.forall_mem_cons.1 h
    exact Int.add_nonneg hterm (ih hterms)

theorem total_nonpos (h : ∀ term ∈ terms, count term ≤ 0) : total count terms ≤ 0 := by
  induction terms with
  | nil => exact Int.le_refl 0
  | cons term terms ih =>
    obtain ⟨hterm, hterms⟩ := List.forall_mem_cons.1 h
    exact Int.add_nonpos hterm (ih hterms)

/-- **Terms of one sign add up without a detour**: the sum of the first of them lies between zero
    and the sum of all. -/
theorem total_take_bounds
    (h : (∀ term ∈ terms, 0 ≤ count term) ∨ ∀ term ∈ terms, count term ≤ 0) (k : Nat) :
    min 0 (total count terms) ≤ total count (terms.take k) ∧
      total count (terms.take k) ≤ max 0 (total count terms) := by
  have hsum : total count terms = total count (terms.take k) + total count (terms.drop k) := by
    rw [← total_append, List.take_append_drop]
  rcases h with h | h
  · have htake : 0 ≤ total count (terms.take k) :=
      total_nonneg fun term hterm => h term (List.mem_of_mem_take hterm)
    have hdrop : 0 ≤ total count (terms.drop k) :=
      total_nonneg fun term hterm => h term (List.mem_of_mem_drop hterm)
    omega
  · have htake : total count (terms.take k) ≤ 0 :=
      total_nonpos fun term hterm => h term (List.mem_of_mem_take hterm)
    have hdrop : total count (terms.drop k) ≤ 0 :=
      total_nonpos fun term hterm => h term (List.mem_of_mem_drop hterm)
    omega

end Sums

/-- The numbers that come up while the parts of a clock are added. -/
def ClockReading.sums (c : ClockReading) : List Int :=
  [c.hours * microsPerHour, c.minutes * microsPerMinute,
    c.hours * microsPerHour + c.minutes * microsPerMinute,
    c.hours * microsPerHour + c.minutes * microsPerMinute + c.seconds, c.micros]

/-- All numbers are in the range of the integers of 64 bits. -/
def AllInt64 (ns : List Int) : Prop :=
  ∀ n ∈ ns, minInt64 ≤ n ∧ n ≤ maxInt64

theorem allInt64_clockParts (h : (micros.natAbs : Int) ≤ maxInt64) :
    AllInt64 (clockParts (decide (micros < 0)) micros.natAbs).sums := by
  intro n hn
  rw [ClockReading.sums, micros_clockParts] at hn
  simp only [clockParts, microsPerHour, microsPerMinute, microsPerSecond, List.mem_cons,
    List.not_mem_nil, or_false] at hn
  rw [maxInt64] at h
  rw [minInt64, maxInt64]
  omega

/-! ## 2. Amounts -/

section Amounts

variable {n : Int} {x : Double}

theorem wholeMonths_of_isInteger (hx : x.IsInteger (decide (n < 0)) n.natAbs)
    (h : minInt32 ≤ n ∧ n ≤ maxInt32) : wholeMonths x = n := by
  have htruncate := hx.truncate_eq
  rw [wholeMonths, Double.saturate_eq _ hx.isFinite (by rwa [htruncate]), htruncate]

/-- An amount is multiplied without an error. -/
theorem ofInt_mul_isInteger {c : Nat} (hc : 0 < c) (hlimit : c < twoTo 53)
    (h : (n * c).natAbs < twoTo 53) :
    (Double.ofInt n * Double.ofNat c).IsInteger (decide (n * c < 0)) (n * c).natAbs := by
  have hmul : (n * c).natAbs = n.natAbs * c := Int.natAbs_mul n c
  have hn : n.natAbs < twoTo 53 := by
    rw [hmul] at h
    exact Nat.lt_of_le_of_lt (Nat.le_mul_of_pos_right _ hc) h
  have hsign : (decide (n < 0) != false) = decide (n * c < 0) := by
    rw [Bool.bne_false, decide_eq_decide]
    have hpos : (0 : Int) < c := Int.natCast_pos.2 hc
    exact ⟨fun hneg => Int.mul_neg_of_neg_of_pos hneg hpos,
      fun hprod => neg_of_mul_neg_left hprod hpos.le⟩
  rw [hmul, ← hsign]
  exact (Double.ofInt_isInteger hn).mul (Double.ofNat_isInteger hlimit) (by rwa [← hmul])

/-- Years and months have the sign of the months that they are split from. -/
theorem years_months (n : Int) :
    n.tdiv 12 * 12 + n.tmod 12 = n ∧ (0 ≤ n → 0 ≤ n.tdiv 12 ∧ 0 ≤ n.tmod 12) ∧
      (n ≤ 0 → n.tdiv 12 ≤ 0 ∧ n.tmod 12 ≤ 0) := by
  refine ⟨Int.tdiv_mul_add_tmod n 12, fun hn => ?_, fun hn => ?_⟩
  · exact ⟨Int.tdiv_nonneg hn (by decide), Int.tmod_nonneg 12 hn⟩
  · have hdiv := Int.tdiv_nonneg (Int.neg_nonneg_of_nonpos hn) (show (0 : Int) ≤ 12 by decide)
    have hmod := Int.tmod_nonneg 12 (Int.neg_nonneg_of_nonpos hn)
    rw [Int.neg_tdiv] at hdiv
    rw [Int.neg_tmod] at hmod
    omega

theorem int32_bounds (k : Int32) : minInt32 ≤ k.toInt ∧ k.toInt ≤ maxInt32 := by
  have hlow := k.le_toInt
  have hhigh := k.toInt_lt
  rw [minInt32, maxInt32]
  omega

theorem natAbs_le_of_ne_minValue {k : Int64} (h : k ≠ Int64.minValue) :
    (k.toInt.natAbs : Int) ≤ maxInt64 := by
  have hlow := k.le_toInt
  have hhigh := k.toInt_lt
  have hne : k.toInt ≠ Int64.minValue.toInt := fun heq => h (Int64.toInt_inj.1 heq)
  rw [Int64.toInt_minValue] at hne
  rw [maxInt64]
  omega

theorem natAbs_lt_of_int32 (h : minInt32 ≤ n ∧ n ≤ maxInt32) : n.natAbs < twoTo 53 := by
  rw [Double.twoTo_53]
  rw [minInt32, maxInt32] at h
  omega

theorem term_year (h : minInt32 ≤ n * 12 ∧ n * 12 ≤ maxInt32) :
    Measure.term (Double.ofInt n) .year = .months (n * 12) :=
  congrArg Term.months (wholeMonths_of_isInteger
    (ofInt_mul_isInteger (by decide) (by decide) (natAbs_lt_of_int32 h)) h)

theorem wholeMonths_ofInt (h : minInt32 ≤ n ∧ n ≤ maxInt32) :
    wholeMonths (Double.ofInt n) = n :=
  wholeMonths_of_isInteger (Double.ofInt_isInteger (natAbs_lt_of_int32 h)) h

end Amounts

/-! ## 3. Parts -/

/-- Words that are read as certain terms, whatever follows them. -/
def ReadsTerms (words : List (List Char)) (terms : List Term) : Prop :=
  ∀ rest, wordTerms? (words ++ rest) = (wordTerms? rest).map (terms ++ ·)

theorem ReadsTerms.nil : ReadsTerms [] [] := by
  intro rest
  simp

theorem ReadsTerms.append {words words' : List (List Char)} {terms terms' : List Term}
    (h : ReadsTerms words terms) (h' : ReadsTerms words' terms') :
    ReadsTerms (words ++ words') (terms ++ terms') := by
  intro rest
  rw [List.append_assoc, h, h', Option.map_map]
  simp [Function.comp_def]

theorem ReadsTerms.wordTerms?_eq {words : List (List Char)} {terms : List Term}
    (h : ReadsTerms words terms) : wordTerms? words = some terms := by
  have hall := h []
  rw [List.append_nil] at hall
  simpa [wordTerms?] using hall

theorem wordTerms?_amount {unit : List Char} {amount : Double} (hcolon : ':' ∉ word)
    (hamount : Double.ofText? (String.ofList word) = some amount)
    (hunit : measure? unit = some measure) (rest : List (List Char)) :
    wordTerms? (word :: unit :: rest) = (wordTerms? rest).map (measure.term amount :: ·) := by
  have hcontains : word.contains ':' = false := by simpa using hcolon
  rw [wordTerms?, hcontains, if_neg Bool.false_ne_true]
  simp only [hamount, hunit, Option.bind_eq_bind, Option.bind_some]
  exact Option.map_eq_bind.symm

theorem wordTerms?_clock {c : ClockReading} (hcolon : ':' ∈ word) (hclock : clock? word = some c)
    (rest : List (List Char)) :
    wordTerms? (word :: rest) = (wordTerms? rest).map (.micros c.micros :: ·) := by
  have hcontains : word.contains ':' = true := by simpa using hcolon
  rw [wordTerms?.eq_def]
  simp only [hcontains, if_true, hclock, Option.bind_eq_bind, Option.bind_some]
  exact Option.map_eq_bind.symm

theorem clock?_eq_none (h : ':' ∉ word) : clock? word = none := by
  have hread (negative : Bool) {cs : List Char} (hcs : ':' ∉ cs) :
      readClock? negative cs = none := by
    simp [readClock?, clockFields?, splitOn_of_not_mem hcs]
  unfold clock?
  split
  · exact hread true fun hmem => h (List.mem_cons_of_mem _ hmem)
  · exact hread false h

/-- What is needed of a part of a written interval: it is read as one term, it is no ISO duration,
    and the sums of a clock in it stay in range. -/
structure PartReads (part : String) (term : Term) : Prop where
  reads : ReadsTerms (words part.toList) [term]
  starts : ∃ word rest, words part.toList = word :: rest ∧ word.head? ≠ some 'P'
  clocks : ∀ word ∈ words part.toList, ∀ c, clock? word = some c → AllInt64 c.sums

/-- A unit behind an amount. -/
def unitText (n : Int) (unit : String) : String :=
  unit ++ (if n.natAbs = 1 then "" else "s")

theorem measure?_unitText (hone : measure? unit.toList = some measure)
    (hmany : measure? (unit ++ "s").toList = some measure) (n : Int) :
    measure? (unitText n unit).toList = some measure := by
  unfold unitText
  split
  · rw [String.append_empty, hone]
  · exact hmany

theorem toString_ne_nil (n : Int) : (toString n).toList ≠ [] := by
  rw [toList_toString]
  exact List.append_ne_nil_of_right_ne_nil _ Nat.toDigits_ne_nil

/-- A unit that can stand behind an amount: it is not empty and has no blanks and colons. -/
def isUnit (unit : String) : Bool :=
  !unit.toList.isEmpty && unit.toList.all fun c => !isBlank c && c != ':'

theorem isUnit_iff : isUnit unit = true ↔
    unit.toList ≠ [] ∧ (∀ c ∈ unit.toList, isBlank c = false) ∧ ':' ∉ unit.toList := by
  have hcolon : ':' ∉ unit.toList ↔ ∀ c ∈ unit.toList, c ≠ ':' := by
    constructor
    · rintro h c hc rfl
      exact h hc
    · exact fun h hmem => h ':' hmem rfl
  simp only [isUnit, Bool.and_eq_true, List.all_eq_true, Bool.not_eq_true', bne_iff_ne, hcolon,
    List.isEmpty_eq_false_iff, forall_and]

theorem words_counted (n : Int) (hne : unit.toList ≠ [])
    (hblank : ∀ c ∈ unit.toList, isBlank c = false) :
    words (counted n unit).toList = [(toString n).toList, (unitText n unit).toList] := by
  have hnumber : ∀ c ∈ (toString n).toList, isBlank c = false := by
    intro c hc
    rcases mem_toString hc with rfl | hdigit
    · rfl
    · exact isBlank_of_isDigit hdigit
  have hunit : ∀ c ∈ (unitText n unit).toList, isBlank c = false := by
    intro c hc
    rw [unitText, String.toList_append, List.mem_append] at hc
    rcases hc with hc | hc
    · exact hblank c hc
    · split at hc
      · cases hc
      · rw [List.mem_singleton.1 hc]
        rfl
  have hunitNe : (unitText n unit).toList ≠ [] := by
    rw [unitText, String.toList_append]
    exact List.append_ne_nil_of_left_ne_nil hne _
  have htext : (counted n unit).toList =
      (toString n).toList ++ ' ' :: (unitText n unit).toList := by
    simp [counted, unitText, toString]
  rw [htext, words_append rfl, words_noBlank (toString_ne_nil n) hnumber,
    words_noBlank hunitNe hunit]
  rfl

theorem partReads_counted {n : Int} {term : Term} (hisUnit : isUnit unit = true)
    (hmeasure : measure? (unitText n unit).toList = some measure)
    (hterm : measure.term (Double.ofInt n) = term) : PartReads (counted n unit) term := by
  obtain ⟨hne, hblank, hcolon⟩ := isUnit_iff.1 hisUnit
  have hwords := words_counted n hne hblank
  have hnumber : ':' ∉ (toString n).toList := not_mem_toString (by decide) rfl
  have hunit : ':' ∉ (unitText n unit).toList := by
    rw [unitText, String.toList_append, List.mem_append, not_or]
    refine ⟨hcolon, ?_⟩
    split <;> simp
  refine ⟨?_, ⟨_, _, hwords, ?_⟩, ?_⟩
  · intro rest
    have hamount : Double.ofText? (String.ofList (toString n).toList) = some (Double.ofInt n) := by
      rw [String.ofList_toList, Double.ofText?_toString]
    rw [hwords, ← hterm]
    exact wordTerms?_amount hnumber hamount hmeasure rest
  · intro hhead
    exact not_mem_toString (by decide) rfl (List.mem_of_mem_head? hhead)
  · intro word hword c hclock
    rw [hwords] at hword
    simp only [List.mem_cons, List.not_mem_nil, or_false] at hword
    rcases hword with rfl | rfl
    · rw [clock?_eq_none hnumber] at hclock
      cases hclock
    · rw [clock?_eq_none hunit] at hclock
      cases hclock

theorem mem_clockDigits {micros : Nat} {c : Char} (h : c ∈ clockDigits micros) :
    isDigit c = true ∨ c = ':' ∨ c = '.' := by
  simp only [clockDigits, List.mem_append, List.mem_cons] at h
  rcases h with h | rfl | h | rfl | h
  · exact .inl (isDigit_of_mem_padded h)
  · exact .inr (.inl rfl)
  · exact .inl (isDigit_of_mem_padded h)
  · exact .inr (.inl rfl)
  · exact (mem_secondsDigits h).imp_right .inr

theorem mem_clockText {c : Char} (h : c ∈ (clockText micros).toList) :
    c = '-' ∨ isDigit c = true ∨ c = ':' ∨ c = '.' := by
  rw [toList_clockText, List.mem_append] at h
  rcases h with h | h
  · split at h
    · exact .inl (List.mem_singleton.1 h)
    · cases h
  · exact .inr (mem_clockDigits h)

theorem colon_mem_clockText (micros : Int) : ':' ∈ (clockText micros).toList := by
  simp [toList_clockText, clockDigits]

theorem words_clockText (micros : Int) :
    words (clockText micros).toList = [(clockText micros).toList] := by
  refine words_noBlank (List.ne_nil_of_mem (colon_mem_clockText micros)) ?_
  intro c hc
  rcases mem_clockText hc with rfl | h | rfl | rfl
  · rfl
  · exact isBlank_of_isDigit h
  · rfl
  · rfl

theorem partReads_clockText (h : (micros.natAbs : Int) ≤ maxInt64) :
    PartReads (clockText micros) (.micros micros) := by
  have hwords := words_clockText micros
  refine ⟨?_, ⟨_, _, hwords, ?_⟩, ?_⟩
  · intro rest
    have hstep := wordTerms?_clock (colon_mem_clockText micros) (clock?_clockText h) rest
    rw [micros_clockParts] at hstep
    rw [hwords]
    exact hstep
  · intro hhead
    rcases mem_clockText (List.mem_of_mem_head? hhead) with h | h | h | h <;> cases h
  · intro word hword c hclock
    rw [hwords, List.mem_singleton] at hword
    rw [hword, clock?_clockText h] at hclock
    cases hclock
    exact allInt64_clockParts h

/-! ## 4. Written intervals -/

/-- A part and its term, unless the amount is zero. -/
def entry (n : Int) (part : String) (term : Term) : List (String × Term) :=
  if n = 0 then [] else [(part, term)]

/-- The parts of the calendar with the terms that they stand for. -/
def calendarEntries (i : Interval) : List (String × Term) :=
  let years := i.months.toInt.tdiv 12
  let rest := i.months.toInt.tmod 12
  let days := i.days.toInt
  entry years (counted years "year") (.months (years * 12)) ++
    entry rest (counted rest "mon") (.months rest) ++
    entry days (counted days "day") (.days days)

/-- The parts of a written interval with the terms that they stand for. -/
def entries (i : Interval) : List (String × Term) :=
  i.calendarEntries ++
    if i.micros ≠ 0 ∨ i.calendarEntries = [] then
      [(clockText i.micros.toInt, .micros i.micros.toInt)]
    else []

theorem map_fst_entry (n : Int) (part : String) (term : Term) :
    (entry n part term).map Prod.fst = if n = 0 then [] else [part] := by
  unfold entry
  split <;> rfl

theorem parts_eq (i : Interval) : i.parts = i.entries.map Prod.fst := by
  have hcalendar : i.calendarEntries.map Prod.fst =
      (if i.months.toInt.tdiv 12 = 0 then [] else [counted (i.months.toInt.tdiv 12) "year"]) ++
        (if i.months.toInt.tmod 12 = 0 then [] else [counted (i.months.toInt.tmod 12) "mon"]) ++
        (if i.days.toInt = 0 then [] else [counted i.days.toInt "day"]) := by
    simp only [calendarEntries, List.map_append, map_fst_entry]
  have hnil : i.calendarEntries.map Prod.fst = [] ↔ i.calendarEntries = [] := List.map_eq_nil_iff
  rw [hcalendar] at hnil
  rw [entries, List.map_append, hcalendar]
  by_cases hclock : i.micros ≠ 0 ∨ i.calendarEntries = []
  · rw [if_pos hclock]
    exact if_pos (hclock.imp_right hnil.2)
  · rw [if_neg hclock, List.map_nil, List.append_nil]
    exact if_neg fun h => hclock (h.imp_right hnil.1)

theorem entries_ne_nil (i : Interval) : i.entries ≠ [] := by
  unfold entries
  split
  · simp
  · next h =>
    rw [not_or] at h
    simpa using h.2

theorem mem_entries {e : String × Term} (h : e ∈ i.entries) :
    e = (counted (i.months.toInt.tdiv 12) "year", .months (i.months.toInt.tdiv 12 * 12)) ∨
      e = (counted (i.months.toInt.tmod 12) "mon", .months (i.months.toInt.tmod 12)) ∨
      e = (counted i.days.toInt "day", .days i.days.toInt) ∨
      e = (clockText i.micros.toInt, .micros i.micros.toInt) := by
  have hentry {n : Int} {part : String} {term : Term} (he : e ∈ entry n part term) :
      e = (part, term) := by
    unfold entry at he
    split at he
    · cases he
    · exact List.mem_singleton.1 he
  rw [entries, calendarEntries, List.mem_append, List.mem_append, List.mem_append] at h
  rcases h with ((h | h) | h) | h
  · exact .inl (hentry h)
  · exact .inr (.inl (hentry h))
  · exact .inr (.inr (.inl (hentry h)))
  · split at h
    · exact .inr (.inr (.inr (List.mem_singleton.1 h)))
    · cases h

/-- Every part of a written interval is read as its term. -/
theorem partReads_of_mem_entries (h : i.micros ≠ Int64.minValue) {e : String × Term}
    (he : e ∈ i.entries) : PartReads e.1 e.2 := by
  have hmonths := int32_bounds i.months
  obtain ⟨hsplit, hpos, hneg⟩ := years_months i.months.toInt
  rcases mem_entries he with rfl | rfl | rfl | rfl
  · have hyears : minInt32 ≤ i.months.toInt.tdiv 12 * 12 ∧
        i.months.toInt.tdiv 12 * 12 ≤ maxInt32 := by
      rw [minInt32, maxInt32] at hmonths ⊢
      omega
    have hmeasure : measure? (unitText (i.months.toInt.tdiv 12) "year").toList = some .year :=
      measure?_unitText (by rfl) (by rfl) _
    exact partReads_counted rfl hmeasure (term_year hyears)
  · have hrest : minInt32 ≤ i.months.toInt.tmod 12 ∧ i.months.toInt.tmod 12 ≤ maxInt32 := by
      rw [minInt32, maxInt32] at hmonths ⊢
      omega
    have hmeasure : measure? (unitText (i.months.toInt.tmod 12) "mon").toList = some .month :=
      measure?_unitText (by rfl) (by rfl) _
    exact partReads_counted rfl hmeasure (congrArg Term.months (wholeMonths_ofInt hrest))
  · have hmeasure : measure? (unitText i.days.toInt "day").toList = some .day :=
      measure?_unitText (by rfl) (by rfl) _
    exact partReads_counted rfl hmeasure
      (congrArg Term.days (wholeMonths_ofInt (int32_bounds i.days)))
  · exact partReads_clockText (natAbs_le_of_ne_minValue h)

/-- The words of parts that are joined by blanks are the words of the parts. -/
theorem words_intercalate (parts : List String) :
    words (" ".intercalate parts).toList = parts.flatMap fun part => words part.toList := by
  induction parts with
  | nil => rfl
  | cons part parts ih =>
    cases parts with
    | nil => rw [String.intercalate_singleton, List.flatMap_singleton]
    | cons next parts =>
      have hblank : (part ++ " " ++ " ".intercalate (next :: parts)).toList =
          part.toList ++ ' ' :: (" ".intercalate (next :: parts)).toList := by
        rw [String.append_assoc, String.toList_append, String.toList_append]
        rfl
      rw [String.intercalate_cons_cons, hblank, words_append rfl, ih]
      rfl

theorem words_render (i : Interval) :
    words i.render.toList = i.entries.flatMap fun e => words e.1.toList := by
  rw [render, words_intercalate, parts_eq, List.flatMap_map]

theorem reads_entries {es : List (String × Term)} (h : ∀ e ∈ es, PartReads e.1 e.2) :
    ReadsTerms (es.flatMap fun e => words e.1.toList) (es.map Prod.snd) := by
  induction es with
  | nil => exact ReadsTerms.nil
  | cons e es ih =>
    obtain ⟨he, hes⟩ := List.forall_mem_cons.1 h
    rw [List.flatMap_cons, List.map_cons]
    exact he.reads.append (ih hes)

/-- A text whose first word does not start with `P` is no ISO duration. -/
theorem terms?_of_words {s : String} {rest : List (List Char)}
    (hwords : words s.toList = word :: rest) (hstart : word.head? ≠ some 'P') :
    terms? s = wordTerms? (word :: rest) := by
  rw [← words_trim] at hwords
  unfold terms?
  split
  · next cs heq =>
    rw [heq] at hwords
    obtain ⟨tail, others, hfirst⟩ := words_cons (c := 'P') rfl cs
    rw [hfirst] at hwords
    cases hwords
    exact absurd rfl hstart
  · rw [hwords]

/-- **The terms of a written interval are those of its parts.** -/
theorem terms?_render (h : i.micros ≠ Int64.minValue) :
    terms? i.render = some (i.entries.map Prod.snd) := by
  have hparts : ∀ e ∈ i.entries, PartReads e.1 e.2 := fun _ => partReads_of_mem_entries h
  have hreads := reads_entries hparts
  have hwords := words_render i
  cases hentries : i.entries with
  | nil => exact absurd hentries i.entries_ne_nil
  | cons e es =>
    rw [hentries] at hparts hreads hwords
    obtain ⟨word, rest, hfirst, hstart⟩ := (hparts e List.mem_cons_self).starts
    rw [List.flatMap_cons, hfirst, List.cons_append] at hreads hwords
    rw [terms?_of_words hwords hstart, hreads.wordTerms?_eq]

/-! ## 5. The sum of the terms -/

theorem total_entry {n : Int} {part : String} {term : Term} (h : n = 0 → count term = 0) :
    total count ((entry n part term).map Prod.snd) = count term := by
  unfold entry
  split
  · next hn => exact (h hn).symm
  · exact Int.add_zero _

/-- A component of a written interval is the sum over its years, months, days and clock, also if
    some of them are left out. -/
theorem total_entries (i : Interval) (hmonths : count (.months 0) = 0) (hdays : count (.days 0) = 0)
    (hmicros : count (.micros 0) = 0) :
    total count (i.entries.map Prod.snd) =
      count (.months (i.months.toInt.tdiv 12 * 12)) + count (.months (i.months.toInt.tmod 12)) +
        count (.days i.days.toInt) + count (.micros i.micros.toInt) := by
  have hclock : total count
      ((if i.micros ≠ 0 ∨ i.calendarEntries = [] then
        [(clockText i.micros.toInt, Term.micros i.micros.toInt)] else []).map Prod.snd) =
      count (.micros i.micros.toInt) := by
    split
    · exact Int.add_zero _
    · next hnone =>
      have hzero : i.micros = 0 := by
        rw [not_or, not_not] at hnone
        exact hnone.1
      rw [hzero]
      exact hmicros.symm
  rw [entries, List.map_append, total_append, hclock, calendarEntries, List.map_append,
    List.map_append, total_append, total_append, total_entry, total_entry, total_entry]
  · intro hn
    rw [hn, hdays]
  · intro hn
    rw [hn, hmonths]
  · intro hn
    rw [hn, Int.zero_mul, hmonths]

theorem total_monthCount (i : Interval) :
    total Term.monthCount (i.entries.map Prod.snd) = i.months.toInt := by
  rw [total_entries i rfl rfl rfl]
  have hsplit := (years_months i.months.toInt).1
  simp only [Term.monthCount]
  omega

theorem total_dayCount (i : Interval) :
    total Term.dayCount (i.entries.map Prod.snd) = i.days.toInt := by
  rw [total_entries i rfl rfl rfl]
  simp [Term.dayCount]

theorem total_microCount (i : Interval) :
    total Term.microCount (i.entries.map Prod.snd) = i.micros.toInt := by
  rw [total_entries i rfl rfl rfl]
  simp [Term.microCount]

theorem ofTerms_entries (i : Interval) : ofTerms (i.entries.map Prod.snd) = i := by
  rw [ofTerms, total_monthCount, total_dayCount, total_microCount, Int32.ofInt_toInt,
    Int32.ofInt_toInt, Int64.ofInt_toInt]

/-- An interval is read back from its text. -/
theorem parse_render (h : i.micros ≠ Int64.minValue) : parse i.render = some i := by
  rw [parse, terms?_render h, Option.map_some, ofTerms_entries]

/-! ## 6. Sums in range -/

/-- The sums of the first terms of a text stay in a range. -/
def PrefixesFit (count : Term → Int) (least greatest : Int) (s : String) : Prop :=
  ∀ terms, terms? s = some terms → ∀ k,
    least ≤ total count (terms.take k) ∧ total count (terms.take k) ≤ greatest

/-- No sum that comes up while a text is read leaves the range of its integers: the sums of its
    clocks, and those of each component while one term after the other is added. -/
structure SumsFit (s : String) : Prop where
  clocks : ∀ word ∈ words (trim s.toList), ∀ c, clock? word = some c → AllInt64 c.sums
  months : PrefixesFit Term.monthCount minInt32 maxInt32 s
  days : PrefixesFit Term.dayCount minInt32 maxInt32 s
  micros : PrefixesFit Term.microCount minInt64 maxInt64 s

theorem forall_terms {P : Term → Prop} (hyears : P (.months (i.months.toInt.tdiv 12 * 12)))
    (hmonths : P (.months (i.months.toInt.tmod 12))) (hdays : P (.days i.days.toInt))
    (hmicros : P (.micros i.micros.toInt)) : ∀ term ∈ i.entries.map Prod.snd, P term := by
  intro term hmem
  obtain ⟨e, he, rfl⟩ := List.mem_map.1 hmem
  rcases mem_entries he with rfl | rfl | rfl | rfl
  · exact hyears
  · exact hmonths
  · exact hdays
  · exact hmicros

section Signs

variable (i : Interval)

theorem monthCount_sameSign :
    (∀ term ∈ i.entries.map Prod.snd, 0 ≤ term.monthCount) ∨
      ∀ term ∈ i.entries.map Prod.snd, term.monthCount ≤ 0 := by
  obtain ⟨-, hpos, hneg⟩ := years_months i.months.toInt
  rcases Int.le_total 0 i.months.toInt with hsign | hsign
  · obtain ⟨hyears, hmonths⟩ := hpos hsign
    exact .inl (forall_terms (Int.mul_nonneg hyears (by decide)) hmonths (Int.le_refl 0)
      (Int.le_refl 0))
  · obtain ⟨hyears, hmonths⟩ := hneg hsign
    exact .inr (forall_terms (Int.mul_nonpos_of_nonpos_of_nonneg hyears (by decide)) hmonths
      (Int.le_refl 0) (Int.le_refl 0))

theorem dayCount_sameSign :
    (∀ term ∈ i.entries.map Prod.snd, 0 ≤ term.dayCount) ∨
      ∀ term ∈ i.entries.map Prod.snd, term.dayCount ≤ 0 :=
  (Int.le_total 0 i.days.toInt).imp
    (fun hsign => forall_terms (Int.le_refl 0) (Int.le_refl 0) hsign (Int.le_refl 0))
    (fun hsign => forall_terms (Int.le_refl 0) (Int.le_refl 0) hsign (Int.le_refl 0))

theorem microCount_sameSign :
    (∀ term ∈ i.entries.map Prod.snd, 0 ≤ term.microCount) ∨
      ∀ term ∈ i.entries.map Prod.snd, term.microCount ≤ 0 :=
  (Int.le_total 0 i.micros.toInt).imp
    (fun hsign => forall_terms (Int.le_refl 0) (Int.le_refl 0) (Int.le_refl 0) hsign)
    (fun hsign => forall_terms (Int.le_refl 0) (Int.le_refl 0) (Int.le_refl 0) hsign)

end Signs

theorem prefixesFit_render (h : i.micros ≠ Int64.minValue) {least greatest : Int}
    (hsign : (∀ term ∈ i.entries.map Prod.snd, 0 ≤ count term) ∨
      ∀ term ∈ i.entries.map Prod.snd, count term ≤ 0) (hzero : least ≤ 0 ∧ 0 ≤ greatest)
    (htotal : least ≤ total count (i.entries.map Prod.snd) ∧
      total count (i.entries.map Prod.snd) ≤ greatest) :
    PrefixesFit count least greatest i.render := by
  intro terms heq k
  rw [terms?_render h] at heq
  cases heq
  have hbounds := total_take_bounds hsign k
  omega

theorem sumsFit_render (h : i.micros ≠ Int64.minValue) : SumsFit i.render where
  clocks word hword c hclock := by
    rw [words_trim, words_render, List.mem_flatMap] at hword
    obtain ⟨e, he, hpart⟩ := hword
    exact (partReads_of_mem_entries h he).clocks word hpart c hclock
  months := by
    refine prefixesFit_render h i.monthCount_sameSign (by decide) ?_
    rw [total_monthCount]
    exact int32_bounds i.months
  days := by
    refine prefixesFit_render h i.dayCount_sameSign (by decide) ?_
    rw [total_dayCount]
    exact int32_bounds i.days
  micros := by
    refine prefixesFit_render h i.microCount_sameSign (by decide) ?_
    have hmicros := natAbs_le_of_ne_minValue h
    rw [total_microCount]
    rw [maxInt64] at hmicros
    rw [minInt64, maxInt64]
    omega

/-- **The text of an interval denotes the interval**, and all sums stay in range while it is read.
    This holds for all months, all days and all microseconds but the least ones. -/
theorem render_denotes (i : Interval) (h : i.micros ≠ Int64.minValue) :
    parse i.render = some i ∧ SumsFit i.render :=
  ⟨parse_render h, sumsFit_render h⟩

/-- Months and days at their least, and one microsecond more than the least. -/
theorem render_denotes_least :
    Int64.minValue + 1 ≠ Int64.minValue ∧
      parse (render ⟨Int32.minValue, Int32.minValue, Int64.minValue + 1⟩) =
        some ⟨Int32.minValue, Int32.minValue, Int64.minValue + 1⟩ ∧
      SumsFit (render ⟨Int32.minValue, Int32.minValue, Int64.minValue + 1⟩) :=
  ⟨by decide, render_denotes ⟨Int32.minValue, Int32.minValue, Int64.minValue + 1⟩ (by decide)⟩

end QueryPlan.Interval
