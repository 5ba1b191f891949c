import QueryPlan.Proofs.Calendar.ReadBack

/-!
# Dates and times in text columns

What is written for a date, a time of day or a timestamp is read as what was written from a text
column too, where the layouts have no blanks (`Date.ofText?_render` and the theorems beside it). A
timestamp with an offset is read by the internet form if its year has four digits, and else by the
last of the three forms.
-/

namespace QueryPlan

open Numeral Calendar

/-! ## 1. Layouts without blanks -/

namespace Calendar

section Layouts

variable {parts : Parts} {rest : List Char}

theorem readItems?_dateItems (d : Date) :
    readItems? dateItems parts (d.render.toList ++ rest) = some (parts.withDate d, rest) := by
  rw [toList_renderDate, List.append_assoc, dateItems]
  rw [List.cons_append, List.append_assoc, List.cons_append]
  rw [readItems?_cons (readItem?_year (.cons rfl)), readItems?_cons (readItem?_mark '-'),
    readItems?_cons (readItem?_part .month nofun d.month_lt),
    readItems?_cons (readItem?_mark '-'),
    readItems?_cons (readItem?_part .day nofun d.day_lt)]
  rfl

theorem readItems?_clockItems (c : Clock) (hends : EndsDigits rest)
    (hpoint : rest.head? ≠ some '.') :
    readItems? clockItems parts (c.render.toList ++ rest) = some (parts.withClock c, rest) := by
  rw [toList_renderClock]
  simp only [List.append_assoc, List.cons_append, clockItems, minuteItems, List.nil_append]
  rw [readItems?_cons (readItem?_part .hour nofun c.hour_lt), readItems?_cons (readItem?_mark ':'),
    readItems?_cons (readItem?_part .minute nofun c.minute_lt),
    readItems?_cons (readItem?_mark ':'),
    readItems?_cons (readItem?_part .second nofun c.second_lt),
    readItems?_cons (readItem?_fraction c.fraction_lt hends hpoint)]
  by_cases hzero : c.fraction = 0
  · simp only [hzero, if_true]
    rw [readItems?, Parts.withClock, hzero]
    rfl
  · simp only [hzero, if_false]
    rw [readItems?, Parts.withClock, if_neg hzero]
    rfl

end Layouts

end Calendar

/-! ## 2. Dates and times -/

/-- **Dates are read back from text columns.** -/
theorem Date.ofText?_render (d : Date) : Date.ofText? d.render.toList = some d := by
  have hitems : readItems? dateItems {} (d.render.toList ++ []) =
      some (Parts.withDate {} d, []) := readItems?_dateItems d
  rw [List.append_nil] at hitems
  rw [Date.ofText?, matchItems?, hitems]
  dsimp only
  rw [Option.bind_some, Parts.date?_withDate]

/-- **Times of day are read back from text columns.** -/
theorem Clock.ofText?_render (c : Clock) : Clock.ofText? c.render.toList = some c := by
  have hitems : readItems? clockItems {} (c.render.toList ++ []) =
      some (Parts.withClock {} c, []) := readItems?_clockItems c .nil nofun
  rw [List.append_nil] at hitems
  rw [Clock.ofText?, matchItems?, hitems]
  dsimp only
  rw [Option.bind_some, Parts.clock?_withClock rfl]
  rfl

/-- Date and time with a mark between them. -/
theorem Calendar.readItems?_timestamp (t : Timestamp) {rest : List Char} (hends : EndsDigits rest)
    (hpoint : rest.head? ≠ some '.') :
    readItems? (dateItems ++ [.mark 'T'] ++ clockItems) {} ((t.render "T").toList ++ rest) =
      some ((Parts.withDate {} t.date).withClock t.clock, rest) := by
  rw [Timestamp.toList_render, List.append_assoc, List.append_assoc,
    readItems?_append _ (readItems?_dateItems t.date), List.singleton_append, List.cons_append,
    readItems?_cons (readItem?_mark 'T'), readItems?_clockItems t.clock hends hpoint]

/-- **Timestamps are read back from text columns.** -/
theorem Timestamp.ofText?_render (t : Timestamp) :
    Timestamp.ofText? (t.render "T").toList = some t := by
  have hitems := readItems?_timestamp t .nil nofun
  rw [List.append_nil] at hitems
  have hfirst : (matchItems? (dateItems ++ [.mark 'T'] ++ clockItems) (t.render "T").toList).bind
      Parts.timestamp? = some t := by
    rw [matchItems?, hitems]
    dsimp only
    rw [Option.bind_some, Parts.timestamp?_withClock]
  rw [Timestamp.ofText?, textLayouts, List.findSome?_cons, hfirst]

/-! ## 3. Timestamps with an offset -/

namespace OffsetTimestamp

theorem toList_render (t : OffsetTimestamp) : (t.render "T").toList =
    (t.localTime.render "T").toList ++ (offsetText t.offset).toList :=
  String.toList_append

theorem toList_render_date (t : OffsetTimestamp) : (t.render "T").toList =
    t.localTime.date.render.toList ++ 'T' :: (t.localTime.clock.render.toList ++
      (offsetText t.offset).toList) := by
  rw [toList_render, Timestamp.toList_render, List.append_assoc, List.cons_append]

theorem endsDigits_offsetText (offset : Int) : EndsDigits (offsetText offset).toList := by
  obtain ⟨c, behind, heq, hdigit, -, -⟩ := head_offsetText offset
  rw [heq]
  exact .cons hdigit

theorem head?_offsetText_ne (offset : Int) : (offsetText offset).toList.head? ≠ some '.' := by
  obtain ⟨c, behind, heq, -, hpoint, -⟩ := head_offsetText offset
  rw [heq]
  simpa using hpoint

theorem trimFront_offsetText (offset : Int) :
    Text.trimFront (offsetText offset).toList = (offsetText offset).toList := by
  obtain ⟨c, behind, heq, -, -, hblank⟩ := head_offsetText offset
  rw [heq, trimFront_cons hblank]

theorem offsetTimestamp?_withClock (t : OffsetTimestamp) :
    ((Parts.withDate {} t.localTime.date).withClock t.localTime.clock).offsetTimestamp? t.offset =
      some t := by
  rw [Parts.offsetTimestamp?, Parts.timestamp?_withClock]
  exact dif_pos ⟨t.offset_mem, t.utc_isSome⟩

/-- The form with a mark between date and time. -/
theorem ofShort?_mark (t : OffsetTimestamp) :
    ofShort? (dateItems ++ [.mark 'T'] ++ clockItems) (t.render "T").toList = some t := by
  unfold ofShort?
  rw [toList_render, readItems?_timestamp t.localTime (endsDigits_offsetText _)
    (head?_offsetText_ne _), Option.bind_eq_bind, Option.bind_some]
  dsimp only
  rw [trimFront_offsetText, readOffset?_offsetText .short t.offset_mem]
  exact offsetTimestamp?_withClock t

/-- The form with blanks between date and time does not take the mark. -/
theorem ofShort?_blanks (t : OffsetTimestamp) :
    ofShort? (dateItems ++ [.blanks] ++ clockItems) (t.render "T").toList = none := by
  have hitems : ∀ rest, readItems? (dateItems ++ [.blanks] ++ clockItems) {}
      (t.localTime.date.render.toList ++ 'T' :: rest) = none := by
    intro rest
    rw [List.append_assoc, readItems?_append _ (readItems?_dateItems t.localTime.date),
      List.singleton_append, readItems?_cons (readItem?_blanks rfl)]
    rfl
  unfold ofShort?
  rw [toList_render_date, hitems]
  rfl

/-- A mark of the internet form. -/
theorem mark_cons (m : Char) (rest : List Char) : ofInternet?.mark m (m :: rest) = some rest := by
  simp [ofInternet?.mark]

/-- The internet form takes years of four digits. -/
theorem ofInternet?_render (t : OffsetTimestamp)
    (hyear : 0 ≤ t.localTime.date.year ∧ t.localTime.date.year ≤ 9999) :
    ofInternet? (t.render "T").toList = some t := by
  have htext : Date.yearText t.localTime.date.year = padded 4 t.localTime.date.year.toNat :=
    if_pos hyear
  have hy : t.localTime.date.year.toNat < 10000 := by omega
  have hcast : ((t.localTime.date.year.toNat : Nat) : Int) = t.localTime.date.year := by omega
  have hfour : ∀ rest, readExactly? 4 ((padded 4 t.localTime.date.year.toNat).toList ++ rest) =
      some (t.localTime.date.year.toNat, rest) := fun _ => readExactly?_padded (by decide) hy
  have htwo : ∀ n rest, n < 100 → readExactly? 2 ((padded 2 n).toList ++ rest) = some (n, rest) :=
    fun _ _ hn => readExactly?_padded (by decide) hn
  have hdivider : ∀ rest, skipDivider? ('T' :: rest) = some rest := fun _ => rfl
  have hfraction : ∀ parts, readFraction? parts
      ((Clock.fractionText t.localTime.clock.fraction).toList ++ (offsetText t.offset).toList) =
        some (if t.localTime.clock.fraction = 0 then parts
          else { parts with nanos := some t.localTime.clock.fraction },
          (offsetText t.offset).toList) := fun parts =>
    readItem?_fraction (Clock.fraction_lt _) (endsDigits_offsetText _) (head?_offsetText_ne _)
  rw [toList_render_date, toList_renderDate, toList_renderClock, htext]
  simp only [List.append_assoc, List.cons_append]
  unfold ofInternet?
  simp only [hfour, htwo _ _ (Date.month_lt _), htwo _ _ (Date.day_lt _),
    htwo _ _ (Clock.hour_lt _), htwo _ _ (Clock.minute_lt _), htwo _ _ (Clock.second_lt _),
    mark_cons, hdivider, hfraction, readOffset?_offsetText .strict t.offset_mem,
    Option.bind_eq_bind, Option.bind_some, hcast]
  rw [List.isEmpty_nil, if_pos rfl]
  refine Eq.trans ?_ (offsetTimestamp?_withClock t)
  rw [Parts.withClock]
  split <;> rfl

/-- The internet form takes no year with a sign. -/
theorem ofInternet?_signed (t : OffsetTimestamp)
    (hyear : ¬(0 ≤ t.localTime.date.year ∧ t.localTime.date.year ≤ 9999)) :
    ofInternet? (t.render "T").toList = none := by
  have hread : ∀ rest, readExactly? 4 ((Date.yearText t.localTime.date.year).toList ++ rest) =
      none := by
    intro rest
    rw [yearText_of_signed hyear, List.cons_append, readExactly?, if_neg]
    rintro ⟨-, hall⟩
    have hsign := List.all_eq_true.1 hall _ List.mem_cons_self
    split at hsign <;> exact absurd hsign (by decide)
  unfold ofInternet?
  rw [toList_render_date, toList_renderDate, List.append_assoc, hread]
  rfl

/-- **Timestamps with an offset are read back from text columns.** -/
theorem ofText?_render (t : OffsetTimestamp) : ofText? (t.render "T").toList = some t := by
  unfold ofText?
  by_cases hyear : 0 ≤ t.localTime.date.year ∧ t.localTime.date.year ≤ 9999
  · rw [ofInternet?_render t hyear]
    rfl
  · rw [ofInternet?_signed t hyear, ofShort?_blanks, ofShort?_mark]
    rfl

/-- A text with an offset is no text without. -/
theorem render_ne (s : Timestamp) (t : OffsetTimestamp) : s.render "T" ≠ t.render "T" := by
  intro heq
  have hs := readItems?_timestamp s .nil (Option.some_ne_none '.').symm
  have ht := readItems?_timestamp t.localTime (endsDigits_offsetText t.offset)
    (head?_offsetText_ne t.offset)
  rw [List.append_nil, heq, toList_render, ht] at hs
  obtain ⟨c, behind, hoffset, -⟩ := head_offsetText t.offset
  rw [hoffset] at hs
  cases congrArg Prod.snd (Option.some.inj hs)

end OffsetTimestamp

/-! ## 4. Blanks -/

theorem Text.trim_of_noBlank {cs : List Char} (h : ∀ c ∈ cs, isBlank c = false) : trim cs = cs := by
  have hdrop : ∀ cs : List Char, (∀ c ∈ cs, isBlank c = false) → cs.dropWhile isBlank = cs := by
    intro cs hcs
    cases cs with
    | nil => rfl
    | cons c cs => exact trimFront_cons (hcs c List.mem_cons_self)
  rw [trim, trimFront, hdrop cs h, trimBack, hdrop _ fun c hc => h c (List.mem_reverse.1 hc),
    List.reverse_reverse]

namespace Calendar

theorem noBlank_padded {w n : Nat} : ∀ c ∈ (padded w n).toList, Text.isBlank c = false :=
  fun _ hc => isBlank_of_isDigit (isDigit_of_mem_padded hc)

theorem noBlank_year (year : Int) : ∀ c ∈ (Date.yearText year).toList, Text.isBlank c = false := by
  by_cases h : 0 ≤ year ∧ year ≤ 9999
  · rw [Date.yearText, if_pos h]
    exact noBlank_padded
  · rw [yearText_of_signed h]
    refine List.forall_mem_cons.2 ⟨?_, noBlank_padded⟩
    split <;> rfl

theorem noBlank_date (d : Date) : ∀ c ∈ d.render.toList, Text.isBlank c = false := by
  rw [toList_renderDate]
  simp only [List.forall_mem_append, List.forall_mem_cons]
  exact ⟨noBlank_year _, rfl, noBlank_padded, rfl, noBlank_padded⟩

theorem noBlank_fraction (nanos : Nat) :
    ∀ c ∈ (Clock.fractionText nanos).toList, Text.isBlank c = false := by
  have hdigits : ∀ w n, ∀ c ∈ ("." ++ padded w n).toList, Text.isBlank c = false := by
    intro w n
    rw [String.toList_append]
    exact List.forall_mem_append.2 ⟨List.forall_mem_cons.2 ⟨rfl, List.forall_mem_nil _⟩,
      noBlank_padded⟩
  unfold Clock.fractionText
  split
  · exact List.forall_mem_nil _
  · split
    · exact hdigits _ _
    · split
      · exact hdigits _ _
      · exact hdigits _ _

theorem noBlank_clock (c : Clock) : ∀ x ∈ c.render.toList, Text.isBlank x = false := by
  rw [toList_renderClock]
  simp only [List.forall_mem_append, List.forall_mem_cons]
  exact ⟨noBlank_padded, rfl, noBlank_padded, rfl, noBlank_padded, noBlank_fraction _⟩

theorem noBlank_timestamp (t : Timestamp) :
    ∀ c ∈ (t.render "T").toList, Text.isBlank c = false := by
  rw [Timestamp.toList_render, List.forall_mem_append, List.forall_mem_cons]
  exact ⟨noBlank_date _, rfl, noBlank_clock _⟩

theorem noBlank_offsetTimestamp (t : OffsetTimestamp) :
    ∀ c ∈ (t.render "T").toList, Text.isBlank c = false := by
  rw [OffsetTimestamp.toList_render, toList_offsetText]
  simp only [List.forall_mem_append, List.forall_mem_cons]
  refine ⟨noBlank_timestamp _, ?_, noBlank_padded, rfl, noBlank_padded⟩
  split <;> rfl

end Calendar

end QueryPlan
