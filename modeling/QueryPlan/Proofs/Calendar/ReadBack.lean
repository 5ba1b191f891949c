import QueryPlan.Calendar.Printer
import QueryPlan.Calendar.Reader
import QueryPlan.Proofs.Number.Digits

/-!
# Dates and times that are read back

What a plan document holds for a date, a time of day or a timestamp is read as what was written
(`Date.ofPlan?_render` and the theorems beside it). The numbers are written with their full width,
so that no digit of one is taken for one of the next; a year of more than four digits has a sign in
front and is read up to the mark behind it.
-/

namespace QueryPlan

open Numeral

/-! ## 1. Numbers of a fixed width -/

theorem Date.month_lt (d : Date) : d.month < 100 := by
  have := d.month_mem
  omega

theorem Date.day_lt (d : Date) : d.day < 100 := by
  have hday := d.day_mem
  have hdays : daysInMonth d.year d.month ≤ 31 := by
    unfold daysInMonth
    repeat' split
    all_goals omega
  omega

theorem Clock.hour_lt (c : Clock) : c.hour < 100 := by
  have := c.seconds_lt
  unfold Clock.hour
  omega

theorem Clock.minute_lt (c : Clock) : c.minute < 100 := by
  unfold Clock.minute
  omega

theorem Clock.second_lt (c : Clock) : c.second < 100 := by
  have := c.nanos_lt
  unfold Clock.second
  omega

theorem Clock.fraction_lt (c : Clock) : c.fraction < 1000000000 := by
  unfold Clock.fraction
  omega

namespace Calendar

/-- An integer is its sign and its absolute value. -/
theorem signed_natAbs (n : Int) :
    (if decide (n < 0) then -(n.natAbs : Int) else n.natAbs) = n := by
  by_cases h : n < 0
  · rw [decide_eq_true h, if_pos rfl]
    omega
  · rw [decide_eq_false h, if_neg nofun]
    omega

section Padded

variable {w n : Nat} {rest : List Char}

theorem toList_padded : (padded w n).toList =
    List.replicate (w - (digitsOf n).length) '0' ++ digitsOf n :=
  String.toList_ofList

theorem isDigit_of_mem_padded {c : Char} (h : c ∈ (padded w n).toList) : isDigit c = true := by
  rw [toList_padded, List.mem_append] at h
  rcases h with h | h
  · rw [List.eq_of_mem_replicate h]
    rfl
  · exact isDigit_of_mem_digitsOf h

theorem valueFrom_padded : valueFrom 0 (padded w n).toList = n := by
  have hzeros : valueFrom 0 (List.replicate (w - (digitsOf n).length) '0') = 0 :=
    Nat.ofDigitChars_replicate_zero.trans (Nat.mul_zero _)
  have happend : valueFrom 0 (padded w n).toList =
      valueFrom (valueFrom 0 (List.replicate (w - (digitsOf n).length) '0')) (digitsOf n) := by
    rw [toList_padded]
    exact Nat.ofDigitChars_append 0
  rw [happend, hzeros, valueFrom_digitsOf]

theorem length_padded (hw : 0 < w) (h : n < tenTo w) :
    (padded w n).toList.length = w := by
  have hlength := (Nat.length_toDigits_le_iff (by decide) hw).2 h
  rw [toList_padded, List.length_append, List.length_replicate]
  unfold digitsOf
  omega

theorem padded_ne_nil : (padded w n).toList ≠ [] := by
  rw [toList_padded]
  exact List.append_ne_nil_of_right_ne_nil _ Nat.toDigits_ne_nil

theorem readDigits?_of_takeWhile {digits : List Char} (hne : digits ≠ [])
    (h : ((digits ++ rest).take w).takeWhile isDigit = digits) :
    readDigits? w (digits ++ rest) = some (valueFrom 0 digits, rest) := by
  unfold readDigits?
  rw [h, if_neg (by rwa [List.isEmpty_iff]), List.drop_left]

theorem readDigits?_padded (hw : 0 < w) (h : n < tenTo w) :
    readDigits? w ((padded w n).toList ++ rest) = some (n, rest) := by
  rw [readDigits?_of_takeWhile padded_ne_nil, valueFrom_padded]
  rw [List.take_left' (length_padded hw h)]
  have hdigits := takeWhile_of_digits (fun _ => isDigit_of_mem_padded (w := w) (n := n)) .nil
  rwa [List.append_nil] at hdigits

theorem readExactly?_padded (hw : 0 < w) (h : n < tenTo w) :
    readExactly? w ((padded w n).toList ++ rest) = some (n, rest) := by
  have hlength := length_padded hw h
  have hall : (padded w n).toList.all isDigit = true :=
    List.all_eq_true.2 fun _ => isDigit_of_mem_padded
  unfold readExactly?
  rw [List.take_left' hlength, List.drop_left' hlength, if_pos ⟨hlength, hall⟩, valueFrom_padded]

/-- Digits up to the end of their run. -/
theorem readDigits?_run (hends : EndsDigits rest) :
    readDigits? ((padded w n).toList ++ rest).length ((padded w n).toList ++ rest) =
      some (n, rest) := by
  rw [readDigits?_of_takeWhile padded_ne_nil, valueFrom_padded]
  rw [List.take_length]
  exact takeWhile_of_digits (fun _ => isDigit_of_mem_padded) hends

/-! ## 2. Blanks -/

theorem trimFront_cons {c : Char} {cs : List Char} (h : Text.isBlank c = false) :
    Text.trimFront (c :: cs) = c :: cs :=
  List.dropWhile_cons_of_neg (by rw [h]; decide)

theorem trimFront_padded :
    Text.trimFront ((padded w n).toList ++ rest) = (padded w n).toList ++ rest := by
  cases hdigits : (padded w n).toList with
  | nil => exact absurd hdigits padded_ne_nil
  | cons c digits =>
    refine trimFront_cons (isBlank_of_isDigit (isDigit_of_mem_padded (w := w) (n := n) ?_))
    rw [hdigits]
    exact List.mem_cons_self

end Padded

/-! ## 3. Items -/

section Items

variable {items : List Item} {parts parts' : Parts} {cs rest : List Char} {n : Nat}

/-- Reading item by item. -/
theorem readItems?_cons {item : Item} (h : readItem? item parts cs = some (parts', rest)) :
    readItems? (item :: items) parts cs = readItems? items parts' rest := by
  rw [readItems?, h]
  rfl

theorem readItems?_append (front : List Item)
    (h : readItems? front parts cs = some (parts', rest)) :
    readItems? (front ++ items) parts cs = readItems? items parts' rest := by
  induction front generalizing parts cs with
  | nil =>
    cases h
    rfl
  | cons item front ih =>
    cases hitem : readItem? item parts cs with
    | none =>
      rw [readItems?, hitem] at h
      cases h
    | some p =>
      obtain ⟨parts₁, rest₁⟩ := p
      rw [readItems?_cons hitem] at h
      rw [List.cons_append, readItems?_cons hitem]
      exact ih h

theorem readItem?_mark (m : Char) : readItem? (.mark m) parts (m :: rest) = some (parts, rest) := by
  simp [readItem?]

theorem readItem?_blanks {c : Char} (h : Text.isBlank c = false) :
    readItem? .blanks parts (c :: rest) = some (parts, c :: rest) := by
  rw [readItem?, trimFront_cons h]

/-- A number of two digits. -/
theorem readItem?_part (part : Part) (hpart : part ≠ .year) (h : n < 100) :
    readItem? (.part part) parts ((padded 2 n).toList ++ rest) = some (parts.set part n, rest) := by
  rw [readItem?.eq_2 _ _ _ hpart, trimFront_padded, readDigits?_padded (by decide) h]
  rfl

theorem readYear?_padded (h : n < tenTo 4) :
    readYear? ((padded 4 n).toList ++ rest) = some ((n : Int), rest) := by
  cases hdigits : (padded 4 n).toList with
  | nil => exact absurd hdigits padded_ne_nil
  | cons c digits =>
    have hc : isDigit c = true := by
      refine isDigit_of_mem_padded (w := 4) (n := n) ?_
      rw [hdigits]
      exact List.mem_cons_self
    have hread : readDigits? 4 (c :: digits ++ rest) = some (n, rest) := by
      rw [← hdigits]
      exact readDigits?_padded (by decide) h
    unfold readYear?
    split
    case h_1 | h_2 =>
      rename_i heq
      cases heq
      exact absurd hc (by decide)
    · rw [hread]
      rfl

/-- A year with a sign goes up to the mark behind it. -/
theorem readYear?_signed (negative : Bool) (hends : EndsDigits rest) :
    readYear? ((if negative then '-' else '+') :: ((padded 4 n).toList ++ rest)) =
      some (if negative then -(n : Int) else n, rest) := by
  have hread := readDigits?_run (w := 4) (n := n) hends
  cases negative with
  | true =>
    rw [if_pos rfl, if_pos rfl, readYear?, hread]
    rfl
  | false =>
    rw [if_neg nofun, if_neg nofun, readYear?, hread]
    rfl

theorem yearText_of_signed {year : Int} (h : ¬(0 ≤ year ∧ year ≤ 9999)) :
    (Date.yearText year).toList =
      (if decide (year < 0) then '-' else '+') :: (padded 4 year.natAbs).toList := by
  unfold Date.yearText
  rw [if_neg h]
  by_cases hneg : year < 0
  · rw [if_pos hneg, decide_eq_true hneg, String.toList_append]
    rfl
  · rw [if_neg hneg, decide_eq_false hneg, String.toList_append]
    rfl

theorem readItem?_year {year : Int} (hends : EndsDigits rest) :
    readItem? (.part .year) parts ((Date.yearText year).toList ++ rest) =
      some ({ parts with year := some year }, rest) := by
  by_cases h : 0 ≤ year ∧ year ≤ 9999
  · have htext : Date.yearText year = padded 4 year.toNat := if_pos h
    have hyear : year.toNat < 10000 := by omega
    rw [htext, readItem?, trimFront_padded, readYear?_padded hyear, Option.map_some,
      show ((year.toNat : Nat) : Int) = year by omega]
  · have hblank : Text.isBlank (if decide (year < 0) then '-' else '+') = false := by
      split <;> rfl
    rw [yearText_of_signed h, readItem?, List.cons_append, trimFront_cons hblank,
      readYear?_signed _ hends, Option.map_some]
    rw [signed_natAbs]

/-- A fraction with as many digits as it has places. -/
theorem readFraction?_padded {w : Nat} (hw : 0 < w) (hw9 : w ≤ 9) (h : n < tenTo w)
    (hends : EndsDigits rest) :
    readFraction? parts ('.' :: ((padded w n).toList ++ rest)) =
      some ({ parts with nanos := some (n * tenTo (9 - w)) }, rest) := by
  have hlength := length_padded hw h
  have hnanos : readNanos? ((padded w n).toList ++ rest) = some (n * tenTo (9 - w), rest) := by
    unfold readNanos?
    rw [spanDigits_of_digits (fun _ => isDigit_of_mem_padded) hends]
    dsimp only
    rw [if_neg (by rw [List.isEmpty_iff]; exact padded_ne_nil),
      List.take_of_length_le (by omega), valueFrom_padded, hlength]
  rw [readFraction?, hnanos]
  rfl

/-- The fraction of a second. -/
theorem readItem?_fraction (hn : n < 1000000000) (hends : EndsDigits rest)
    (hpoint : rest.head? ≠ some '.') :
    readItem? .fraction parts ((Clock.fractionText n).toList ++ rest) =
      some (if n = 0 then parts else { parts with nanos := some n }, rest) := by
  rw [readItem?]
  unfold Clock.fractionText
  split
  · show readFraction? parts rest = _
    unfold readFraction?
    split
    · exact absurd rfl hpoint
    · rfl
  have htext : ∀ w m,
      ("." ++ padded w m).toList ++ rest = '.' :: ((padded w m).toList ++ rest) := by
    intro w m
    rw [String.toList_append]
    rfl
  split
  · have hmillis : n / 1000000 < 1000 := by omega
    rw [htext, readFraction?_padded (by decide) (by decide) hmillis hends]
    rw [show tenTo (9 - 3) = 1000000 from rfl, show n / 1000000 * 1000000 = n by omega]
  split
  · have hmicros : n / 1000 < 1000000 := by omega
    rw [htext, readFraction?_padded (by decide) (by decide) hmicros hends]
    rw [show tenTo (9 - 6) = 1000 from rfl, show n / 1000 * 1000 = n by omega]
  · rw [htext, readFraction?_padded (by decide) (by decide) hn hends]
    rw [show tenTo (9 - 9) = 1 from rfl, Nat.mul_one]

end Items

/-! ## 4. Layouts -/

section Layouts

variable {parts : Parts} {rest : List Char}

/-- The parts of a date. -/
def Parts.withDate (parts : Parts) (d : Date) : Parts :=
  { parts with year := some d.year, month := some d.month, day := some d.day }

/-- The parts of a time of day. A fraction of zero is not written. -/
def Parts.withClock (parts : Parts) (c : Clock) : Parts :=
  { parts with
    hour := some c.hour
    minute := some c.minute
    second := some c.second
    nanos := if c.fraction = 0 then parts.nanos else some c.fraction }

theorem toList_renderDate (d : Date) : d.render.toList =
    (Date.yearText d.year).toList ++ '-' :: ((padded 2 d.month).toList ++ '-' ::
      (padded 2 d.day).toList) := by
  show (Date.yearText d.year ++ "-" ++ padded 2 d.month ++ "-" ++ padded 2 d.day).toList = _
  simp

theorem toList_renderClock (c : Clock) : c.render.toList =
    (padded 2 c.hour).toList ++ ':' :: ((padded 2 c.minute).toList ++ ':' ::
      ((padded 2 c.second).toList ++ (Clock.fractionText c.fraction).toList)) := by
  show (padded 2 c.hour ++ ":" ++ padded 2 c.minute ++ ":" ++ padded 2 c.second ++
    Clock.fractionText c.fraction).toList = _
  simp

theorem readItems?_date (d : Date) :
    readItems? spacedDateItems parts (d.render.toList ++ rest) = some (parts.withDate d, rest) := by
  rw [toList_renderDate, List.append_assoc, spacedDateItems]
  rw [List.cons_append, List.append_assoc, List.cons_append]
  rw [readItems?_cons (readItem?_year (.cons rfl)), readItems?_cons (readItem?_blanks rfl),
    readItems?_cons (readItem?_mark '-'), readItems?_cons (readItem?_part .month nofun d.month_lt),
    readItems?_cons (readItem?_blanks rfl), readItems?_cons (readItem?_mark '-'),
    readItems?_cons (readItem?_part .day nofun d.day_lt)]
  rfl

/-- The items of an hour and a minute. -/
theorem readItems?_minute (c : Clock) :
    readItems? [.part .hour, .blanks, .mark ':', .part .minute] parts
        ((padded 2 c.hour).toList ++ ':' :: ((padded 2 c.minute).toList ++ rest)) =
      some ({ parts with hour := some c.hour, minute := some c.minute }, rest) := by
  rw [readItems?_cons (readItem?_part .hour nofun c.hour_lt),
    readItems?_cons (readItem?_blanks rfl), readItems?_cons (readItem?_mark ':'),
    readItems?_cons (readItem?_part .minute nofun c.minute_lt)]
  rfl

/-- The items of a second and its fraction. -/
theorem readItems?_second (c : Clock) (hends : EndsDigits rest) (hpoint : rest.head? ≠ some '.') :
    readItems? [.blanks, .mark ':', .part .second, .fraction, .blanks] parts
        (':' :: ((padded 2 c.second).toList ++ ((Clock.fractionText c.fraction).toList ++ rest))) =
      some
        ({ parts with
          second := some c.second
          nanos := if c.fraction = 0 then parts.nanos else some c.fraction },
        Text.trimFront rest) := by
  rw [readItems?_cons (readItem?_blanks rfl), readItems?_cons (readItem?_mark ':'),
    readItems?_cons (readItem?_part .second nofun c.second_lt),
    readItems?_cons (readItem?_fraction c.fraction_lt hends hpoint)]
  by_cases hzero : c.fraction = 0
  · simp only [hzero, if_true]
    rfl
  · simp only [hzero, if_false]
    rfl

theorem readItems?_clock (c : Clock) (hends : EndsDigits rest) (hpoint : rest.head? ≠ some '.') :
    readItems? spacedClockItems parts (c.render.toList ++ rest) =
      some (parts.withClock c, Text.trimFront rest) := by
  rw [toList_renderClock]
  simp only [List.append_assoc, List.cons_append]
  exact (readItems?_append [.part .hour, .blanks, .mark ':', .part .minute]
    (readItems?_minute c)).trans (readItems?_second c hends hpoint)

theorem Parts.date?_withDate (d : Date) : (parts.withDate d).date? = some d := by
  show Date.of? d.year d.month d.day = _
  exact dif_pos ⟨d.year_mem, d.month_mem, d.day_mem⟩

theorem clockOf? (c : Clock) : Clock.of? c.hour c.minute c.second c.fraction = some c := by
  obtain ⟨seconds, nanos, hseconds, hnanos, hleap⟩ := c
  simp only [Clock.hour, Clock.minute, Clock.second, Clock.fraction]
  by_cases h : nanos < 1000000000
  · unfold Clock.of?
    rw [dif_pos (by omega)]
    congr 1
    simp only [Clock.mk.injEq]
    omega
  · have := hleap (by omega)
    unfold Clock.of?
    rw [dif_neg (by omega), dif_pos (by omega)]
    congr 1
    simp only [Clock.mk.injEq]
    omega

theorem Parts.clock?_withClock (h : parts.nanos = none) (c : Clock) :
    (parts.withClock c).clock? = some c := by
  have hnanos : (parts.withClock c).nanos.getD 0 = c.fraction := by
    rw [Parts.withClock]
    split
    · rename_i hzero
      rw [h, hzero]
      rfl
    · rfl
  show Clock.of? c.hour c.minute c.second ((parts.withClock c).nanos.getD 0) = _
  rw [hnanos, clockOf?]

end Layouts

end Calendar

open Calendar

/-! ## 5. Dates and times -/

/-- **Dates are read back.** -/
theorem Date.ofPlan?_render (d : Date) : Date.ofPlan? d.render = some d := by
  have hdate : readItems? spacedDateItems {} (d.render.toList ++ []) =
      some (Parts.withDate {} d, []) := readItems?_date d
  rw [List.append_nil] at hdate
  have hitems : readItems? (spacedDateItems ++ [.blanks]) {} d.render.toList =
      some (Parts.withDate {} d, []) := (readItems?_append _ hdate).trans rfl
  rw [Date.ofPlan?, matchItems?, hitems]
  dsimp only
  rw [Option.bind_some, Parts.date?_withDate]

/-- **Times of day are read back.** -/
theorem Clock.ofPlan?_render (c : Clock) : Clock.ofPlan? c.render = some c := by
  have hsecond : readItems? [.blanks, .mark ':', .part .second, .fraction, .blanks]
      { hour := some c.hour, minute := some c.minute }
      (':' :: ((padded 2 c.second).toList ++ ((Clock.fractionText c.fraction).toList ++ []))) =
      some (Parts.withClock {} c, []) := readItems?_second c .nil nofun
  rw [List.append_nil] at hsecond
  unfold Clock.ofPlan?
  rw [toList_renderClock, readItems?_minute, Option.bind_eq_bind, Option.bind_some]
  dsimp only
  rw [hsecond]
  exact Parts.clock?_withClock rfl c

theorem Timestamp.toList_render (t : Timestamp) :
    (t.render "T").toList = t.date.render.toList ++ 'T' :: t.clock.render.toList := by
  simp [Timestamp.render]

theorem Parts.timestamp?_withClock (t : Timestamp) :
    ((Parts.withDate {} t.date).withClock t.clock).timestamp? = some t := by
  have hdate : ((Parts.withClock {} t.clock).withDate t.date).date? = some t.date :=
    Parts.date?_withDate t.date
  have hclock : ((Parts.withDate {} t.date).withClock t.clock).clock? = some t.clock :=
    Parts.clock?_withClock rfl t.clock
  show ((Parts.withClock {} t.clock).withDate t.date).date? >>= _ = _
  rw [hdate]
  show ((Parts.withDate {} t.date).withClock t.clock).clock? >>= _ = _
  rw [hclock]
  rfl

/-- **Timestamps are read back.** -/
theorem Timestamp.ofPlan?_render (t : Timestamp) : Timestamp.ofPlan? (t.render "T") = some t := by
  have hclock : readItems? spacedClockItems (Parts.withDate {} t.date)
      (t.clock.render.toList ++ []) = some ((Parts.withDate {} t.date).withClock t.clock, []) :=
    readItems?_clock t.clock .nil nofun
  rw [List.append_nil] at hclock
  have hitems : readItems? (spacedDateItems ++ [.blanks, .mark 'T'] ++ spacedClockItems) {}
      (t.render "T").toList = some ((Parts.withDate {} t.date).withClock t.clock, []) := by
    rw [Timestamp.toList_render, List.append_assoc, readItems?_append _ (readItems?_date _)]
    rw [List.cons_append, readItems?_cons (readItem?_blanks rfl)]
    rw [List.cons_append, readItems?_cons (readItem?_mark 'T')]
    exact hclock
  rw [Timestamp.ofPlan?, matchItems?, hitems]
  dsimp only
  rw [Option.bind_some, Parts.timestamp?_withClock]

/-! ## 6. Offsets -/

namespace Calendar

theorem toList_offsetText (offset : Int) : (OffsetTimestamp.offsetText offset).toList =
    (if decide (offset < 0) then '-' else '+') :: ((padded 2 (offset.natAbs / 60)).toList ++ ':' ::
      (padded 2 (offset.natAbs % 60)).toList) := by
  show ((if offset < 0 then "-" else "+") ++ (padded 2 (offset.natAbs / 60) ++ ":" ++
    padded 2 (offset.natAbs % 60))).toList = _
  by_cases h : offset < 0
  · simp [h]
  · simp [h]

theorem skipOffsetMark?_padded (style : OffsetStyle) {w n : Nat} :
    skipOffsetMark? style (':' :: (padded w n).toList) = some (padded w n).toList := by
  cases hdigits : (padded w n).toList with
  | nil => exact absurd hdigits padded_ne_nil
  | cons c digits =>
    have hc : isDigit c = true := by
      refine isDigit_of_mem_padded (w := w) (n := n) ?_
      rw [hdigits]
      exact List.mem_cons_self
    have hcolon : (c == ':') = false := by
      refine beq_eq_false_iff_ne.2 ?_
      rintro rfl
      exact absurd hc (by decide)
    have hskip : (':' :: c :: digits).dropWhile (fun c => c == ':' || Text.isBlank c) =
        c :: digits := by
      rw [List.dropWhile_cons_of_pos rfl,
        List.dropWhile_cons_of_neg (by rw [hcolon, isBlank_of_isDigit hc]; decide)]
    cases style with
    | strict => rfl
    | spaced | short => exact congrArg some hskip

/-- A sign, hours and minutes. -/
theorem readOffset?_signed (style : OffsetStyle) (negative : Bool) {hours minutes : Nat}
    (hh : hours < 100) (hm : minutes < 60) :
    readOffset? style ((if negative then '-' else '+') :: ((padded 2 hours).toList ++ ':' ::
      (padded 2 minutes).toList)) =
        some (if negative then -((hours * 60 + minutes : Nat) : Int)
          else ((hours * 60 + minutes : Nat) : Int), []) := by
  have hhours : readExactly? 2 ((padded 2 hours).toList ++ ':' :: (padded 2 minutes).toList) =
      some (hours, ':' :: (padded 2 minutes).toList) := readExactly?_padded (by decide) hh
  have hm100 : minutes < 100 := by omega
  have hminutes : readExactly? 2 ((padded 2 minutes).toList ++ []) = some (minutes, []) :=
    readExactly?_padded (by decide) hm100
  rw [List.append_nil] at hminutes
  have hrange : ¬60 ≤ minutes := by omega
  have hrest : padded 2 minutes ≠ "" := fun hempty => padded_ne_nil (congrArg String.toList hempty)
  cases negative with
  | true =>
    rw [if_pos rfl, readOffset?.eq_3 _ _ _ (by decide) (by decide)]
    simp [hhours, skipOffsetMark?_padded, hminutes, hrange, hrest]
  | false =>
    rw [if_neg nofun, readOffset?.eq_3 _ _ _ (by decide) (by decide)]
    simp [hhours, skipOffsetMark?_padded, hminutes, hrange, hrest]

theorem readOffset?_offsetText (style : OffsetStyle) {offset : Int}
    (h : -1440 < offset ∧ offset < 1440) :
    readOffset? style (OffsetTimestamp.offsetText offset).toList = some (offset, []) := by
  rw [toList_offsetText, readOffset?_signed _ _ (by omega) (by omega), Nat.div_add_mod',
    signed_natAbs]

/-- No offset is taken for the name of universal time. -/
theorem readZone?_offsetText {offset : Int} (h : -1440 < offset ∧ offset < 1440) :
    OffsetTimestamp.readZone? (OffsetTimestamp.offsetText offset).toList = some (offset, []) := by
  have hread := readOffset?_offsetText .spaced h
  rw [toList_offsetText] at hread ⊢
  unfold OffsetTimestamp.readZone?
  rw [if_neg, hread]
  split <;> simp

end Calendar

/-- What stands behind the time of a timestamp with an offset. -/
def OffsetTimestamp.zoneText (offset : Int) : List Char :=
  if offset = 0 then ['Z'] else (offsetText offset).toList

theorem OffsetTimestamp.toList_renderZulu (t : OffsetTimestamp) : t.renderZulu.toList =
    t.localTime.date.render.toList ++ 'T' :: (t.localTime.clock.render.toList ++
      zoneText t.offset) := by
  rw [renderZulu, String.toList_append, Timestamp.toList_render, List.append_assoc, zoneText]
  split <;> rfl

/-- An offset starts with a sign. -/
theorem OffsetTimestamp.head_offsetText (offset : Int) :
    ∃ c behind, (offsetText offset).toList = c :: behind ∧ isDigit c = false ∧ c ≠ '.' ∧
      Text.isBlank c = false := by
  rw [toList_offsetText]
  split
  · exact ⟨'-', _, rfl, rfl, by decide, rfl⟩
  · exact ⟨'+', _, rfl, rfl, by decide, rfl⟩

/-- The zone starts with a character that is part of no number and no blank. -/
theorem OffsetTimestamp.head_zoneText (offset : Int) :
    ∃ c behind, zoneText offset = c :: behind ∧ isDigit c = false ∧ c ≠ '.' ∧
      Text.isBlank c = false := by
  unfold zoneText
  split
  · exact ⟨'Z', [], rfl, rfl, by decide, rfl⟩
  · exact head_offsetText offset

theorem OffsetTimestamp.readZone?_zoneText {offset : Int} (h : -1440 < offset ∧ offset < 1440) :
    readZone? (zoneText offset) = some (offset, []) := by
  unfold zoneText
  split
  · rename_i hzero
    rw [hzero]
    rfl
  · exact readZone?_offsetText h

/-- **Timestamps with an offset are read back.** -/
theorem OffsetTimestamp.ofPlan?_renderZulu (t : OffsetTimestamp) :
    OffsetTimestamp.ofPlan? t.renderZulu = some t := by
  obtain ⟨c, behind, hzone, hdigit, hpoint, hblank⟩ := head_zoneText t.offset
  have hclock : readItems? spacedClockItems (Parts.withDate {} t.localTime.date)
      (t.localTime.clock.render.toList ++ zoneText t.offset) =
        some ((Parts.withDate {} t.localTime.date).withClock t.localTime.clock,
          zoneText t.offset) := by
    rw [hzone, readItems?_clock _ (.cons hdigit) (by simpa using hpoint), trimFront_cons hblank]
  have htrim : Text.trimFront (zoneText t.offset) = zoneText t.offset := by
    rw [hzone, trimFront_cons hblank]
  have hlocal : ofLocal? t.localTime t.offset = some t := dif_pos ⟨t.offset_mem, t.utc_isSome⟩
  unfold OffsetTimestamp.ofPlan?
  rw [toList_renderZulu, readItems?_date, Option.bind_eq_bind, Option.bind_some]
  have hdivider : skipDivider? ('T' :: (t.localTime.clock.render.toList ++ zoneText t.offset)) =
      some (t.localTime.clock.render.toList ++ zoneText t.offset) := rfl
  simp only [hdivider, Option.bind_eq_bind, Option.bind_some, hclock, htrim,
    readZone?_zoneText t.offset_mem]
  have hend : (Text.trimFront []).isEmpty = true := rfl
  rw [if_pos hend, Parts.offsetTimestamp?, Parts.timestamp?_withClock]
  exact hlocal

end QueryPlan
