import Mathlib.Data.List.DropRight
import QueryPlan.Proofs.Calendar.ReadBack
import QueryPlan.Proofs.Coerce.Typing

/-!
# The date of a timestamp with an offset

A timestamp with an offset has two dates: the one that it shows, and the one that it falls on in
universal time. A value of the type gives the first, and its text gives the second: a text that is
no date is taken as a timestamp without an offset, and one with an offset is moved to universal time
for that. The two agree as long as the offset does not carry the time of day across midnight
(`date_of_offset_text`).

A text with an offset is taken neither for a date nor for a timestamp without an offset. This is a
matter of what a layout leaves of a text (`Calendar.left?`): behind the date and the time there is
still the offset.
-/

namespace QueryPlan

open Numeral

variable {clock : List Item}

namespace Calendar

/-! ## 1. What a layout leaves of a text -/

/-- What is left of a text behind the items of a layout. -/
def left? (items : List Item) (cs : List Char) : Option (List Char) :=
  (readItems? items {} cs).map Prod.snd

section Left

variable {item : Item} {items : List Item} {cs rest : List Char}

/-- What has been read before does not matter. -/
theorem readItem?_rest (item : Item) (parts parts' : Parts) (cs : List Char) :
    (readItem? item parts cs).map Prod.snd = (readItem? item parts' cs).map Prod.snd := by
  cases item with
  | part p => cases p <;> simp [readItem?, Function.comp_def]
  | mark m =>
    cases cs with
    | nil => rfl
    | cons c cs =>
      rw [readItem?, readItem?]
      split <;> rfl
  | blanks => rfl
  | fraction =>
    rw [readItem?, readItem?]
    unfold readFraction?
    split
    · simp [Function.comp_def]
    · rfl

theorem readItems?_rest (items : List Item) (parts parts' : Parts) (cs : List Char) :
    (readItems? items parts cs).map Prod.snd = (readItems? items parts' cs).map Prod.snd := by
  induction items generalizing parts parts' cs with
  | nil => rfl
  | cons item items ih =>
    have hitem := readItem?_rest item parts parts' cs
    rw [readItems?, readItems?]
    cases h : readItem? item parts cs with
    | none =>
      rw [h] at hitem
      rw [Option.map_eq_none_iff.1 hitem.symm]
    | some p =>
      rw [h] at hitem
      obtain ⟨p', hp', hrest⟩ := Option.map_eq_some_iff.1 hitem.symm
      rw [hp']
      simp only [Option.bind_eq_bind, Option.bind_some, hrest]
      exact ih p.1 p'.1 p.2

theorem left?_of_readItems? {parts parts' : Parts}
    (h : readItems? items parts cs = some (parts', rest)) : left? items cs = some rest := by
  rw [left?, readItems?_rest items {} parts, h]
  rfl

theorem left?_cons (item : Item) (items : List Item) (cs : List Char) :
    left? (item :: items) cs = (left? [item] cs).bind (left? items) := by
  rw [left?, left?, readItems?, readItems?]
  cases readItem? item {} cs with
  | none => rfl
  | some p => exact readItems?_rest items p.1 {} p.2

theorem left?_append (front back : List Item) (cs : List Char) :
    left? (front ++ back) cs = (left? front cs).bind (left? back) := by
  induction front generalizing cs with
  | nil => rfl
  | cons item front ih =>
    rw [List.cons_append, left?_cons, left?_cons item front, Option.bind_assoc]
    exact Option.bind_congr fun rest _ => ih rest

/-- Reading on behind an item. -/
theorem left?_step (h : left? [item] cs = some rest) :
    left? (item :: items) cs = left? items rest := by
  rw [left?_cons, h, Option.bind_some]

theorem matchItems?_eq_none (h : left? items cs ≠ some []) : matchItems? items cs = none := by
  unfold matchItems?
  split
  · next parts heq => exact absurd (left?_of_readItems? heq) h
  · rfl

theorem left?_mark (m : Char) (cs : List Char) : left? [.mark m] (m :: cs) = some cs := by
  have hread : readItem? (.mark m) {} (m :: cs) = some ({}, cs) := readItem?_mark m
  exact left?_of_readItems? (readItems?_cons hread)

theorem left?_mark_of_ne {m c : Char} (h : c ≠ m) (cs : List Char) :
    left? [.mark m] (c :: cs) = none := by
  simp [left?, readItems?, readItem?, h]

theorem left?_blanks (cs : List Char) : left? [.blanks] cs = some (Text.trimFront cs) := rfl

/-- An hour does not start with any other character than a digit or a blank. -/
theorem left?_of_not_digit {c : Char} (hdigit : isDigit c = false) (hblank : Text.isBlank c = false)
    (items : List Item) (cs : List Char) : left? (.part .hour :: items) (c :: cs) = none := by
  have hread : readItem? (.part .hour) {} (c :: cs) = none := by
    simp [readItem?, trimFront_cons hblank, readDigits?, hdigit]
  rw [left?, readItems?, hread]
  rfl

end Left

/-! ## 2. A clock with more behind it -/

/-- A text that starts with a clock and goes on behind it. -/
def ClockAndMore (cs : List Char) : Prop :=
  ∃ c rest, left? clockItems cs = some (c :: rest)

section ClockAndMore

variable {c : Char} {cs : List Char}

theorem ClockAndMore.minute (h : ClockAndMore cs) :
    ∃ rest, left? minuteItems cs = some (':' :: rest) := by
  obtain ⟨c, rest, h⟩ := h
  rw [clockItems, left?_append, Option.bind_eq_some_iff] at h
  obtain ⟨behind, hbehind, h⟩ := h
  cases behind with
  | nil => cases h
  | cons d behind =>
    by_cases hd : d = ':'
    · rw [hd] at hbehind
      exact ⟨behind, hbehind⟩
    · rw [left?_cons, left?_mark_of_ne hd] at h
      cases h

/-- Neither of the two forms of a clock fills the text. -/
theorem ClockAndMore.left?_ne (h : ClockAndMore cs)
    (hclock : clock = clockItems ∨ clock = minuteItems) : left? clock cs ≠ some [] := by
  rcases hclock with rfl | rfl
  · obtain ⟨c, rest, h⟩ := h
    simp [h]
  · obtain ⟨rest, hrest⟩ := h.minute
    simp [hrest]

/-- A clock starts with a digit. -/
theorem left?_clock_of_not_digit (hdigit : isDigit c = false) (hblank : Text.isBlank c = false)
    (hclock : clock = clockItems ∨ clock = minuteItems) (cs : List Char) :
    left? clock (c :: cs) = none := by
  rcases hclock with rfl | rfl <;> exact left?_of_not_digit hdigit hblank _ cs

/-- Blanks in front of a clock do not matter. -/
theorem left?_clock_congr {cs' : List Char} (h : Text.trimFront cs = Text.trimFront cs')
    (hclock : clock = clockItems ∨ clock = minuteItems) : left? clock cs = left? clock cs' := by
  have hitem : readItem? (.part .hour) {} cs = readItem? (.part .hour) {} cs' := by
    rw [readItem?.eq_2 _ _ _ (by decide), readItem?.eq_2 _ _ _ (by decide), h]
  have hhour (items : List Item) :
      left? (.part .hour :: items) cs = left? (.part .hour :: items) cs' := by
    rw [left?, left?, readItems?, readItems?, hitem]
  rcases hclock with rfl | rfl
  · exact hhour _
  · exact hhour _

theorem left?_blanks_clock (hclock : clock = clockItems ∨ clock = minuteItems) (cs : List Char) :
    left? (.blanks :: clock) cs = left? clock cs := by
  have htrim : Text.trimFront (Text.trimFront cs) = Text.trimFront cs :=
    List.dropWhile_idempotent Text.isBlank cs
  rw [left?_step (left?_blanks cs), left?_clock_congr htrim hclock]

theorem left?_blanks_of_not_digit (hdigit : isDigit c = false) (hblank : Text.isBlank c = false)
    (hclock : clock = clockItems ∨ clock = minuteItems) (cs : List Char) :
    left? (.blanks :: clock) (c :: cs) = none := by
  rw [left?_blanks_clock hclock, left?_clock_of_not_digit hdigit hblank hclock]

end ClockAndMore

/-- What follows the date in a text with an offset: a mark or blanks, a clock, and the offset. A
    small mark stands in the internet form only. -/
inductive OffsetClock : List Char → Prop
  | mark {cs : List Char} (h : ClockAndMore cs) : OffsetClock ('T' :: cs)
  | smallMark (cs : List Char) : OffsetClock ('t' :: cs)
  | blanks {cs : List Char} (h : ClockAndMore cs) : OffsetClock cs

theorem OffsetClock.ne_nil {cs : List Char} (h : OffsetClock cs) : cs ≠ [] := by
  cases h with
  | mark h | smallMark cs => simp
  | blanks h =>
    rintro rfl
    obtain ⟨c, rest, h⟩ := h
    cases h

/-- No layout of a time without an offset fills the text. -/
theorem OffsetClock.left?_ne {cs : List Char} (h : OffsetClock cs)
    (hclock : clock = clockItems ∨ clock = minuteItems) :
    left? (.mark 'T' :: clock) cs ≠ some [] ∧ left? (.blanks :: clock) cs ≠ some [] := by
  cases h with
  | mark h =>
    rw [left?_step (left?_mark 'T' _), left?_blanks_of_not_digit rfl rfl hclock]
    exact ⟨h.left?_ne hclock, by simp⟩
  | smallMark cs =>
    rw [left?_cons, left?_mark_of_ne (by decide), left?_blanks_of_not_digit rfl rfl hclock]
    exact ⟨by simp, by simp⟩
  | blanks h =>
    refine ⟨?_, ?_⟩
    · cases cs with
      | nil => simp [left?, readItems?, readItem?]
      | cons c cs =>
        have hne : c ≠ 'T' := by
          rintro rfl
          obtain ⟨d, rest, h⟩ := h
          rw [left?_clock_of_not_digit rfl rfl (.inl rfl)] at h
          cases h
        rw [left?_cons, left?_mark_of_ne hne]
        simp
    · rw [left?_blanks_clock hclock]
      exact h.left?_ne hclock

/-! ## 3. Texts with an offset -/

section Offset

variable {cs rest : List Char} {n w : Nat}

/-- Digits of the full width are read where fewer would do. -/
theorem readDigits?_of_readExactly? (hw : 0 < w) (h : readExactly? w cs = some (n, rest)) :
    readDigits? w cs = some (n, rest) ∧ ∃ c behind, cs = c :: behind ∧ isDigit c = true := by
  unfold readExactly? at h
  dsimp only at h
  split at h
  · next hdigits =>
    obtain ⟨hlength, hall⟩ := hdigits
    cases h
    have hrun := takeWhile_of_digits (List.all_eq_true.1 hall) .nil
    rw [List.append_nil] at hrun
    have hempty : ¬(cs.take w).isEmpty = true := by
      rw [List.isEmpty_iff, ← List.length_eq_zero_iff, hlength]
      omega
    refine ⟨?_, ?_⟩
    · unfold readDigits?
      rw [hrun, if_neg hempty, hlength]
    · cases cs with
      | nil => simp at hempty
      | cons c behind =>
        refine ⟨c, behind, rfl, List.all_eq_true.1 hall c ?_⟩
        rw [List.take_cons hw]
        exact List.mem_cons_self
  · cases h

theorem left?_part {part : Part} (hpart : part ≠ .year) (h : readExactly? 2 cs = some (n, rest)) :
    left? [.part part] cs = some rest := by
  obtain ⟨hread, c, behind, rfl, hdigit⟩ := readDigits?_of_readExactly? (by decide) h
  have hitem : readItem? (.part part) {} (c :: behind) = some (Parts.set {} part n, rest) := by
    rw [readItem?.eq_2 _ _ _ hpart, trimFront_cons (isBlank_of_isDigit hdigit), hread]
    rfl
  exact left?_of_readItems? (readItems?_cons hitem)

theorem left?_year (h : readExactly? 4 cs = some (n, rest)) :
    left? [.part .year] cs = some rest := by
  obtain ⟨hread, c, behind, rfl, hdigit⟩ := readDigits?_of_readExactly? (by decide) h
  have hyear : readYear? (c :: behind) = some ((n : Int), rest) := by
    unfold readYear?
    split
    case h_1 | h_2 =>
      rename_i heq
      cases heq
      cases hdigit
    · rw [hread]
      rfl
  have hitem : readItem? (.part .year) {} (c :: behind) = some ({ year := some (n : Int) }, rest) := by
    rw [readItem?, trimFront_cons (isBlank_of_isDigit hdigit), hyear]
    rfl
  exact left?_of_readItems? (readItems?_cons hitem)

theorem left?_mark_of {m : Char} (h : OffsetTimestamp.ofInternet?.mark m cs = some rest) :
    left? [.mark m] cs = some rest := by
  unfold OffsetTimestamp.ofInternet?.mark at h
  cases cs with
  | nil => cases h
  | cons c cs =>
    dsimp only at h
    split at h
    · next hc =>
      cases h
      rw [beq_iff_eq.1 hc]
      exact left?_mark m rest
    · cases h

theorem left?_fraction {parts parts' : Parts} (h : readFraction? parts cs = some (parts', rest)) :
    left? [.fraction] cs = some rest := by
  have hitem : readItem? .fraction parts cs = some (parts', rest) := h
  exact left?_of_readItems? (readItems?_cons hitem)

/-- An offset is not empty, also behind blanks. -/
theorem ne_nil_of_readOffset? {style : OffsetStyle} {p : Int × List Char}
    (h : readOffset? style (Text.trimFront rest) = some p) : rest ≠ [] := by
  rintro rfl
  cases h

end Offset

end Calendar

open Calendar

namespace OffsetTimestamp

variable {cs : List Char} {t : OffsetTimestamp}

/-- The form with a short offset. -/
theorem exists_left_of_ofShort? {divider : Item}
    (h : ofShort? (dateItems ++ [divider] ++ clockItems) cs = some t) :
    ∃ behind c rest, left? dateItems cs = some behind ∧
      left? (divider :: clockItems) behind = some (c :: rest) := by
  unfold ofShort? at h
  simp only [Option.bind_eq_bind, Option.bind_eq_some_iff] at h
  obtain ⟨⟨parts, rest⟩, hitems, ⟨offset, left⟩, hoffset, -⟩ := h
  have hleft := left?_of_readItems? hitems
  rw [List.append_assoc, left?_append, Option.bind_eq_some_iff] at hleft
  obtain ⟨behind, hbehind, hclock⟩ := hleft
  obtain ⟨c, rest, rfl⟩ := List.exists_cons_of_ne_nil (ne_nil_of_readOffset? hoffset)
  exact ⟨behind, c, rest, hbehind, hclock⟩

/-- The internet form. -/
theorem exists_left_of_ofInternet? (h : ofInternet? cs = some t) :
    ∃ divider behind, left? dateItems cs = some (divider :: behind) ∧
      (divider = 'T' ∨ divider = 't' ∨ divider = ' ') ∧ ClockAndMore behind := by
  unfold ofInternet? at h
  simp only [Option.bind_eq_bind, Option.bind_eq_some_iff] at h
  obtain ⟨⟨year, cs₁⟩, hyear, cs₂, hmark₂, ⟨month, cs₃⟩, hmonth, cs₄, hmark₄, ⟨day, cs₅⟩, hday,
    cs₆, hdivider, ⟨hour, cs₇⟩, hhour, cs₈, hmark₈, ⟨minute, cs₉⟩, hminute, cs₁₀, hmark₁₀,
    ⟨second, cs₁₁⟩, hsecond, ⟨parts, cs₁₂⟩, hfraction, ⟨offset, cs₁₃⟩, hoffset, -⟩ := h
  have hdate : left? dateItems cs = some cs₅ := by
    rw [dateItems, left?_step (left?_year hyear), left?_step (left?_mark_of hmark₂),
      left?_step (left?_part (by decide) hmonth), left?_step (left?_mark_of hmark₄),
      left?_part (by decide) hday]
  have hclock : left? clockItems cs₆ = some cs₁₂ := by
    rw [clockItems, minuteItems, List.cons_append, List.cons_append, List.cons_append,
      List.nil_append, left?_step (left?_part (by decide) hhour),
      left?_step (left?_mark_of hmark₈), left?_step (left?_part (by decide) hminute),
      left?_step (left?_mark_of hmark₁₀), left?_step (left?_part (by decide) hsecond),
      left?_fraction hfraction]
  have hmore : cs₁₂ ≠ [] := by
    rintro rfl
    cases hoffset
  obtain ⟨c, rest, rfl⟩ := List.exists_cons_of_ne_nil hmore
  cases cs₅ with
  | nil => cases hdivider
  | cons divider behind =>
    unfold skipDivider? at hdivider
    dsimp only at hdivider
    split at hdivider
    · next hd =>
      cases hdivider
      refine ⟨divider, cs₆, hdate, ?_, c, rest, hclock⟩
      simpa [or_assoc] using hd
    · cases hdivider

theorem ofText?_cases (h : ofText? cs = some t) :
    ofInternet? cs = some t ∨ ofShort? (dateItems ++ [.blanks] ++ clockItems) cs = some t ∨
      ofShort? (dateItems ++ [.mark 'T'] ++ clockItems) cs = some t := by
  unfold ofText? at h
  cases hinternet : ofInternet? cs with
  | some u =>
    rw [hinternet] at h
    exact .inl h
  | none =>
    rw [hinternet] at h
    cases hblanks : ofShort? (dateItems ++ [.blanks] ++ clockItems) cs with
    | some u =>
      rw [hblanks] at h
      exact .inr (.inl h)
    | none =>
      rw [hblanks] at h
      exact .inr (.inr h)

/-- In every form the clock and the offset stand behind the date. -/
theorem exists_offsetClock_of_ofText? (h : ofText? cs = some t) :
    ∃ behind, left? dateItems cs = some behind ∧ OffsetClock behind := by
  rcases ofText?_cases h with h | h | h
  · obtain ⟨divider, behind, hdate, hdivider, hclock⟩ := exists_left_of_ofInternet? h
    refine ⟨divider :: behind, hdate, ?_⟩
    rcases hdivider with rfl | rfl | rfl
    · exact .mark hclock
    · exact .smallMark behind
    · have htrim : Text.trimFront (' ' :: behind) = Text.trimFront behind :=
        List.dropWhile_cons_of_pos rfl
      obtain ⟨c, rest, hleft⟩ := hclock
      exact .blanks ⟨c, rest, (left?_clock_congr htrim (.inl rfl)).trans hleft⟩
  · obtain ⟨behind, c, rest, hdate, hclock⟩ := exists_left_of_ofShort? h
    rw [left?_blanks_clock (.inl rfl)] at hclock
    exact ⟨behind, hdate, .blanks ⟨c, rest, hclock⟩⟩
  · obtain ⟨behind, c, rest, hdate, hclock⟩ := exists_left_of_ofShort? h
    refine ⟨behind, hdate, ?_⟩
    cases behind with
    | nil => cases hclock
    | cons d behind =>
      by_cases hd : d = 'T'
      · rw [hd] at hclock ⊢
        rw [left?_step (left?_mark 'T' _)] at hclock
        exact .mark ⟨c, rest, hclock⟩
      · rw [left?_cons, left?_mark_of_ne hd] at hclock
        cases hclock

/-- **A text with an offset is nothing else**: no date and no timestamp without an offset. -/
theorem ofText?_others (h : ofText? cs = some t) :
    Date.ofText? cs = none ∧ Timestamp.ofText? cs = none := by
  obtain ⟨behind, hdate, hclock⟩ := exists_offsetClock_of_ofText? h
  have hlayout {divider : Item} {clock : List Item}
      (hne : left? (divider :: clock) behind ≠ some []) :
      matchItems? (dateItems ++ [divider] ++ clock) cs = none := by
    refine matchItems?_eq_none ?_
    rw [List.append_assoc, left?_append, hdate, Option.bind_some]
    exact hne
  obtain ⟨hmark, hblanks⟩ := hclock.left?_ne (.inl rfl)
  obtain ⟨hmarkMinute, hblanksMinute⟩ := hclock.left?_ne (.inr rfl)
  refine ⟨?_, ?_⟩
  · rw [Date.ofText?, matchItems?_eq_none]
    · rfl
    · rw [hdate]
      simpa using hclock.ne_nil
  · simp only [Timestamp.ofText?, Timestamp.textLayouts, List.findSome?_cons, List.findSome?_nil,
      hlayout hmark, hlayout hblanks, hlayout hmarkMinute, hlayout hblanksMinute, Option.bind_none]

end OffsetTimestamp

/-! ## 4. The two dates -/

namespace Date

variable {d d' : Date}

theorem of?_eq_some {year : Int} {month day : Nat} (h : of? year month day = some d) :
    d.year = year ∧ d.month = month ∧ d.day = day := by
  unfold of? at h
  split at h
  · cases h
    exact ⟨rfl, rfl, rfl⟩
  · cases h

theorem next?_ne (h : d.next? = some d') : d' ≠ d := by
  rintro rfl
  unfold next? at h
  split at h
  · have hday := (of?_eq_some h).2.2
    omega
  · split at h
    · have hmonth := (of?_eq_some h).2.1
      omega
    · have hyear := (of?_eq_some h).1
      omega

theorem previous?_ne (h : d.previous? = some d') : d' ≠ d := by
  rintro rfl
  unfold previous? at h
  split at h
  · have hday := (of?_eq_some h).2.2
    omega
  · split at h
    · have hmonth := (of?_eq_some h).2.1
      omega
    · have hyear := (of?_eq_some h).1
      omega

end Date

namespace OffsetTimestamp

/-- The offset does not carry the time of day across midnight. -/
def StaysOnDay (t : OffsetTimestamp) : Prop :=
  0 ≤ (t.localTime.clock.seconds : Int) - t.offset * 60 ∧
    (t.localTime.clock.seconds : Int) - t.offset * 60 < 86400

instance (t : OffsetTimestamp) : Decidable t.StaysOnDay :=
  inferInstanceAs (Decidable (_ ∧ _))

/-- The two dates of a timestamp agree if and only if it stays on its day. -/
theorem utc_date_eq_iff (t : OffsetTimestamp) :
    t.utc.date = t.localTime.date ↔ t.StaysOnDay := by
  have hshift : t.localTime.shift? (-t.offset) = some t.utc := (Option.some_get t.utc_isSome).symm
  unfold Timestamp.shift? at hshift
  rw [StaysOnDay]
  obtain ⟨date, hdate, hutc⟩ := Option.map_eq_some_iff.1 hshift
  have hsame : t.utc.date = date := by rw [← hutc]
  rw [hsame]
  split at hdate
  · exact ⟨fun heq => absurd heq (Date.previous?_ne hdate), fun hstays => by omega⟩
  · split at hdate
    · exact ⟨fun heq => absurd heq (Date.next?_ne hdate), fun hstays => by omega⟩
    · cases hdate
      exact ⟨fun _ => by omega, fun _ => rfl⟩

end OffsetTimestamp

namespace Value

/-- **A timestamp with an offset gives one date as a value and another one as text**: the date that
    it shows, and the date that it falls on in universal time. They are the same if and only if the
    offset does not carry the time of day across midnight. -/
theorem date_of_offset_text (s : String) (t : OffsetTimestamp)
    (h : OffsetTimestamp.ofText? (Text.trim s.toList) = some t) :
    (text s).coerce .timestampTz = .ok (timestampTz t) ∧
      (timestampTz t).coerce .date = .ok (date t.localTime.date) ∧
      (text s).coerce .date = .ok (date t.utc.date) ∧
      ((text s).coerce .date = (timestampTz t).coerce .date ↔ t.StaysOnDay) := by
  obtain ⟨hdate, htimestamp⟩ := OffsetTimestamp.ofText?_others h
  have htz : (text s).convert? .timestampTz = some (timestampTz t) := by
    simp [convert?, toTimestampTz?, unwrapScalar, h]
  have hvalue : (timestampTz t).convert? .date = some (date t.localTime.date) := rfl
  have htext : (text s).convert? .date = some (date t.utc.date) := by
    simp [convert?, toDate?, unwrapScalar, timestampOfText?, hdate, htimestamp, h]
  have hvalue' := (coerce_eq_ok_iff_convert? (by simp) (by simp)).2 hvalue
  have htext' := (coerce_eq_ok_iff_convert? (by simp) (by simp)).2 htext
  refine ⟨(coerce_eq_ok_iff_convert? (by simp) (by simp)).2 htz, hvalue', htext', ?_⟩
  rw [hvalue', htext', ← t.utc_date_eq_iff]
  simp

/-- Half an hour before midnight, two hours behind universal time. -/
theorem date_of_offset_text_late :
    let shown : Date := ⟨2024, 1, 1, by decide, by decide, by decide⟩
    let clock : Clock := ⟨84600, 0, by decide, by decide, by decide⟩
    let t : OffsetTimestamp := ⟨⟨shown, clock⟩, -120, by decide, by decide⟩
    OffsetTimestamp.ofText? (Text.trim "2024-01-01T23:30:00-02:00".toList) = some t ∧
      (text "2024-01-01T23:30:00-02:00").coerce .timestampTz = .ok (timestampTz t) ∧
      (timestampTz t).coerce .date = .ok (date shown) ∧
      (text "2024-01-01T23:30:00-02:00").coerce .date =
        .ok (date ⟨2024, 1, 2, by decide, by decide, by decide⟩) ∧
      (text "2024-01-01T23:30:00-02:00").coerce .date ≠ (timestampTz t).coerce .date := by
  intro shown clock t
  have hread : OffsetTimestamp.ofText? (Text.trim "2024-01-01T23:30:00-02:00".toList) =
      some t := rfl
  have hutc : t.utc.date = ⟨2024, 1, 2, by decide, by decide, by decide⟩ := by decide
  obtain ⟨htz, hvalue, htext, hiff⟩ := date_of_offset_text _ t hread
  rw [hutc] at htext
  exact ⟨hread, htz, hvalue, htext, fun heq => absurd (hiff.1 heq) (by decide)⟩

end Value

end QueryPlan
