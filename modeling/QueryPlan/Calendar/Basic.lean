/-!
# Dates, times of day and timestamps

A `Date` is a day of the Gregorian calendar, extended backwards and forwards to about a quarter of a
million years. A `Clock` is a time of day down to the nanosecond; a leap second is the last second
of its minute with a thousand million nanoseconds or more. An `OffsetTimestamp` is a local time
together with its distance from universal time, in whole minutes.

The types carry the rules that make a day, a time of day or a moment one.
-/

namespace QueryPlan

/-! ## 1. Dates -/

/-- Leap years of the Gregorian calendar. -/
def isLeapYear (year : Int) : Bool :=
  year % 4 == 0 && (year % 100 != 0 || year % 400 == 0)

/-- The number of days of a month. -/
def daysInMonth (year : Int) (month : Nat) : Nat :=
  if month = 2 then if isLeapYear year then 29 else 28
  else if month = 4 ∨ month = 6 ∨ month = 9 ∨ month = 11 then 30
  else 31

/-- A day of the calendar. -/
structure Date where
  year : Int
  month : Nat
  day : Nat
  year_mem : -262143 ≤ year ∧ year ≤ 262142
  month_mem : 1 ≤ month ∧ month ≤ 12
  day_mem : 1 ≤ day ∧ day ≤ daysInMonth year month
  deriving DecidableEq

namespace Date

/-- The day with these numbers, if there is one. -/
def of? (year : Int) (month day : Nat) : Option Date :=
  if h : (-262143 ≤ year ∧ year ≤ 262142) ∧ (1 ≤ month ∧ month ≤ 12) ∧
      1 ≤ day ∧ day ≤ daysInMonth year month then
    some ⟨year, month, day, h.1, h.2.1, h.2.2⟩
  else none

/-- The day after, if the calendar has one. -/
def next? (d : Date) : Option Date :=
  if d.day < daysInMonth d.year d.month then of? d.year d.month (d.day + 1)
  else if d.month < 12 then of? d.year (d.month + 1) 1
  else of? (d.year + 1) 1 1

/-- The day before, if the calendar has one. -/
def previous? (d : Date) : Option Date :=
  if 1 < d.day then of? d.year d.month (d.day - 1)
  else if 1 < d.month then of? d.year (d.month - 1) (daysInMonth d.year (d.month - 1))
  else of? (d.year - 1) 12 31

end Date

/-! ## 2. Times of day -/

/-- A time of day: the seconds since midnight and the nanoseconds in that second. -/
structure Clock where
  seconds : Nat
  nanos : Nat
  seconds_lt : seconds < 86400
  nanos_lt : nanos < 2000000000
  leap : 1000000000 ≤ nanos → seconds % 60 = 59
  deriving DecidableEq

namespace Clock

def midnight : Clock := ⟨0, 0, by decide, by decide, by decide⟩

/-- The time with these numbers, if there is one. The second 60 is the leap second that follows
    second 59. -/
def of? (hour minute second nanos : Nat) : Option Clock :=
  if h : hour < 24 ∧ minute < 60 ∧ second < 60 ∧ nanos < 1000000000 then
    some ⟨hour * 3600 + minute * 60 + second, nanos, by omega, by omega, by omega⟩
  else if h : hour < 24 ∧ minute < 60 ∧ second = 60 ∧ nanos < 1000000000 then
    some ⟨hour * 3600 + minute * 60 + 59, nanos + 1000000000, by omega, by omega, by omega⟩
  else none

def hour (c : Clock) : Nat := c.seconds / 3600

def minute (c : Clock) : Nat := c.seconds / 60 % 60

/-- The second as it is shown: 60 in a leap second. -/
def second (c : Clock) : Nat :=
  c.seconds % 60 + c.nanos / 1000000000

/-- The nanoseconds as they are shown. -/
def fraction (c : Clock) : Nat :=
  c.nanos % 1000000000

end Clock

/-! ## 3. Timestamps -/

/-- A time of a day. -/
structure Timestamp where
  date : Date
  clock : Clock
  deriving DecidableEq

namespace Timestamp

/-- The time of day that is a number of minutes later or earlier, on whatever day. A leap second
    stays one. -/
def shiftClock (c : Clock) (minutes : Int) : Clock :=
  { seconds := (((c.seconds : Int) + minutes * 60) % 86400).toNat
    nanos := c.nanos
    seconds_lt := by omega
    nanos_lt := c.nanos_lt
    leap := fun h => by have := c.leap h; omega }

/-- The timestamp that is a number of minutes, less than a day, later or earlier. -/
def shift? (t : Timestamp) (minutes : Int) : Option Timestamp :=
  let total := (t.clock.seconds : Int) + minutes * 60
  let date? :=
    if total < 0 then t.date.previous?
    else if 86400 ≤ total then t.date.next?
    else some t.date
  date?.map fun date => ⟨date, shiftClock t.clock minutes⟩

/-- A shift by nothing leaves a timestamp as it is. -/
theorem shift?_zero (t : Timestamp) : t.shift? 0 = some t := by
  obtain ⟨date, ⟨seconds, nanos, hs, hn, hl⟩⟩ := t
  have h1 : ¬ ((seconds : Int) + 0 * 60 < 0) := by omega
  have h2 : ¬ (86400 ≤ (seconds : Int) + 0 * 60) := by omega
  have h3 : (((seconds : Int) + 0 * 60) % 86400).toNat = seconds := by omega
  simp only [shift?, shiftClock, h1, h2, h3, if_false, Option.map_some]

/-- The first moment of a day. -/
def startOf (date : Date) : Timestamp :=
  ⟨date, .midnight⟩

end Timestamp

/-- A local time, and by how many minutes it is ahead of universal time: less than a day. -/
structure OffsetTimestamp where
  localTime : Timestamp
  offset : Int
  offset_mem : -1440 < offset ∧ offset < 1440
  utc_isSome : (localTime.shift? (-offset)).isSome = true
  deriving DecidableEq

namespace OffsetTimestamp

/-- The moment in universal time. -/
def utc (t : OffsetTimestamp) : Timestamp :=
  (t.localTime.shift? (-t.offset)).get t.utc_isSome

/-- A moment given in universal time. -/
def ofUtc (utc : Timestamp) : OffsetTimestamp :=
  ⟨utc, 0, by decide, by rw [Int.neg_zero, Timestamp.shift?_zero]; rfl⟩

/-- A moment given in local time, if the offset is less than a day and universal time has the
    moment. -/
def ofLocal? (here : Timestamp) (offset : Int) : Option OffsetTimestamp :=
  if h : (-1440 < offset ∧ offset < 1440) ∧ (here.shift? (-offset)).isSome = true then
    some ⟨here, offset, h.1, h.2⟩
  else none

/-- Two moments are the same if they are in universal time. -/
def same (s t : OffsetTimestamp) : Bool :=
  s.utc == t.utc

end OffsetTimestamp

end QueryPlan
