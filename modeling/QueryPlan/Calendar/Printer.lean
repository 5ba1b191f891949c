import QueryPlan.Calendar.Basic

/-!
# How dates and times are written

Years from 0 to 9999 have four digits, all others a sign and four digits at least. The fraction of a
second has three, six or nine digits, the fewest that are exact, and is left out when it is zero.
-/

namespace QueryPlan

/-- A natural number with zeros in front up to a width. -/
def padded (width n : Nat) : String :=
  let digits := Nat.toDigits 10 n
  String.ofList (List.replicate (width - digits.length) '0' ++ digits)

namespace Date

def yearText (year : Int) : String :=
  if 0 ≤ year ∧ year ≤ 9999 then padded 4 year.toNat
  else (if year < 0 then "-" else "+") ++ padded 4 year.natAbs

/-- The date as `2024-02-29`. -/
def render (d : Date) : String :=
  s!"{yearText d.year}-{padded 2 d.month}-{padded 2 d.day}"

end Date

namespace Clock

/-- The fraction of a second with its point. -/
def fractionText (nanos : Nat) : String :=
  if nanos = 0 then ""
  else if nanos % 1000000 = 0 then "." ++ padded 3 (nanos / 1000000)
  else if nanos % 1000 = 0 then "." ++ padded 6 (nanos / 1000)
  else "." ++ padded 9 nanos

/-- The time as `10:20:30.500`. -/
def render (c : Clock) : String :=
  s!"{padded 2 c.hour}:{padded 2 c.minute}:{padded 2 c.second}{fractionText c.fraction}"

end Clock

namespace Timestamp

/-- Date and time with a text between them. -/
def render (separator : String) (t : Timestamp) : String :=
  t.date.render ++ separator ++ t.clock.render

end Timestamp

namespace OffsetTimestamp

/-- The offset as `+02:00`. -/
def offsetText (offset : Int) : String :=
  let minutes := offset.natAbs
  (if offset < 0 then "-" else "+") ++ s!"{padded 2 (minutes / 60)}:{padded 2 (minutes % 60)}"

/-- Local time and offset, with a text between date and time. -/
def render (separator : String) (t : OffsetTimestamp) : String :=
  t.localTime.render separator ++ offsetText t.offset

/-- Local time and offset, where no offset is written as `Z`. -/
def renderZulu (t : OffsetTimestamp) : String :=
  t.localTime.render "T" ++ (if t.offset = 0 then "Z" else offsetText t.offset)

end OffsetTimestamp

end QueryPlan
