import QueryPlan.Calendar.Printer
import QueryPlan.Number.Numeral
import QueryPlan.Text.Blank
import QueryPlan.Text.Split

/-!
# Calendar intervals

Months and days have no fixed length, so an interval keeps them apart from its microseconds. It is
written as `1 year 2 mons 3 days 04:05:06.5`, and read in that form or as an ISO duration
(`P1Y2M3DT4H5M6S`). Reading yields a list of terms, one for each amount; the interval is their sum.
-/

namespace QueryPlan

/-- An interval of months, days and microseconds. -/
structure Interval where
  months : Int32
  days : Int32
  micros : Int64
  deriving DecidableEq

namespace Interval

def zero : Interval := ⟨0, 0, 0⟩

instance : Inhabited Interval := ⟨zero⟩

def isZero (i : Interval) : Bool :=
  i == zero

def microsPerSecond : Nat := 1000000

def microsPerMinute : Nat := 60 * microsPerSecond

def microsPerHour : Nat := 60 * microsPerMinute

/-! ## 1. Terms -/

/-- An amount of one of the three components. -/
inductive Term where
  | months (n : Int)
  | days (n : Int)
  | micros (n : Int)
  deriving DecidableEq

def Term.monthCount : Term → Int
  | months n => n
  | _ => 0

def Term.dayCount : Term → Int
  | days n => n
  | _ => 0

def Term.microCount : Term → Int
  | micros n => n
  | _ => 0

/-- The sum of one component over all terms. -/
def total (count : Term → Int) (terms : List Term) : Int :=
  terms.foldr (fun term sum => count term + sum) 0

/-- The sum of the terms. -/
def ofTerms (terms : List Term) : Interval :=
  { months := Int32.ofInt (total Term.monthCount terms)
    days := Int32.ofInt (total Term.dayCount terms)
    micros := Int64.ofInt (total Term.microCount terms) }

/-- A double without its fraction, moved into 32 bits. -/
def wholeMonths (x : Double) : Int :=
  x.saturate Double.truncate minInt32 maxInt32

/-- A double without its fraction, moved into 64 bits. -/
def wholeMicros (x : Double) : Int :=
  x.saturate Double.truncate minInt64 maxInt64

/-- The units of an interval. -/
inductive Measure where
  | year
  | month
  | week
  | day
  | hour
  | minute
  | second

/-- An amount of a unit as a term. -/
def Measure.term (amount : Double) : Measure → Term
  | .year => .months (wholeMonths (amount * Double.ofNat 12))
  | .month => .months (wholeMonths amount)
  | .week => .days (wholeMonths (amount * Double.ofNat 7))
  | .day => .days (wholeMonths amount)
  | .hour => .micros (wholeMicros (amount * Double.ofNat microsPerHour))
  | .minute => .micros (wholeMicros (amount * Double.ofNat microsPerMinute))
  | .second => .micros (wholeMicros (amount * Double.ofNat microsPerSecond))

/-! ## 2. Words -/

/-- A number of hours or minutes: an integer of 64 bits. -/
def signedCount? (cs : List Char) : Option Int :=
  Numeral.integerIn? minInt64 maxInt64 cs

/-- A clock as it is read: its sign, its hours and minutes, and the microseconds of its seconds. -/
structure ClockReading where
  negative : Bool
  hours : Int
  minutes : Int
  seconds : Int

/-- The microseconds of a clock. The sign holds for the whole. -/
def ClockReading.micros (c : ClockReading) : Int :=
  let sum := c.hours * microsPerHour + c.minutes * microsPerMinute + c.seconds
  if c.negative then -sum else sum

/-- The fields of `hours:minutes:seconds`, where the seconds may be missing. -/
def clockFields? (cs : List Char) : Option (List Char × List Char × List Char) :=
  match Text.splitOn ':' cs with
  | hours :: minutes :: seconds :: _ => some (hours, minutes, seconds)
  | [hours, minutes] => some (hours, minutes, ['0'])
  | _ => none

/-- A clock without its sign. The seconds may have a fraction. -/
def readClock? (negative : Bool) (cs : List Char) : Option ClockReading := do
  let (hours, minutes, seconds) ← clockFields? cs
  let hours ← signedCount? hours
  let minutes ← signedCount? minutes
  let seconds ← Double.ofText? (String.ofList seconds)
  let micros := (seconds * Double.ofNat microsPerSecond).saturate Double.nearest minInt64 maxInt64
  some { negative, hours, minutes, seconds := micros }

/-- A clock that may have a minus sign in front. -/
def clock? : List Char → Option ClockReading
  | '-' :: rest => readClock? true rest
  | cs => readClock? false cs

/-- Characters without any of one kind at the end. -/
def dropBack (mark : Char) (cs : List Char) : List Char :=
  (cs.reverse.dropWhile (· == mark)).reverse

/-- The unit that a word names, in either number, in any case, and before a comma. -/
def measure? (word : List Char) : Option Measure :=
  match String.ofList (dropBack 's' ((dropBack ',' word).map Char.toLower)) with
  | "year" => some .year
  | "mon" => some .month
  | "month" => some .month
  | "week" => some .week
  | "day" => some .day
  | "hour" => some .hour
  | "min" => some .minute
  | "minute" => some .minute
  | "sec" => some .second
  | "second" => some .second
  | _ => none

/-- The terms of a list of words: a clock by itself, all else as an amount and a unit. -/
def wordTerms? : List (List Char) → Option (List Term)
  | [] => some []
  | word :: rest =>
    if word.contains ':' then do
      let clock ← clock? word
      let terms ← wordTerms? rest
      some (.micros clock.micros :: terms)
    else
      match rest with
      | [] => none
      | unit :: rest => do
        let amount ← Double.ofText? (String.ofList word)
        let measure ← measure? unit
        let terms ← wordTerms? rest
        some (measure.term amount :: terms)

/-! ## 3. ISO durations -/

/-- The unit of a letter, in front of the `T` or behind it. -/
def isoMeasure? : (inTime : Bool) → Char → Option Measure
  | false, 'Y' => some .year
  | false, 'M' => some .month
  | false, 'W' => some .week
  | false, 'D' => some .day
  | true, 'H' => some .hour
  | true, 'M' => some .minute
  | true, 'S' => some .second
  | _, _ => none

/-- The terms of a duration without its `P`. The characters of the amount that is being read are
    in reverse. -/
def isoTerms? (inTime : Bool) (amount : List Char) : List Char → Option (List Term)
  | [] => if amount.isEmpty then some [] else none
  | c :: cs =>
    if c == 'T' then isoTerms? true amount cs
    else if Numeral.isDigit c || c == '.' || c == '-' then isoTerms? inTime (c :: amount) cs
    else do
      let number ← Double.ofText? (String.ofList amount.reverse)
      let measure ← isoMeasure? inTime c
      let terms ← isoTerms? inTime [] cs
      some (measure.term number :: terms)

/-! ## 4. Texts -/

/-- The terms that a text denotes. -/
def terms? (s : String) : Option (List Term) :=
  match Text.trim s.toList with
  | 'P' :: rest => isoTerms? false [] rest
  | cs =>
    match Text.words cs with
    | [] => none
    | words => wordTerms? words

/-- The interval that a text denotes. -/
def parse (s : String) : Option Interval :=
  (terms? s).map ofTerms

/-- An amount and its unit, which has an `s` unless the amount is one. -/
def counted (n : Int) (unit : String) : String :=
  s!"{n} {unit}" ++ (if n.natAbs = 1 then "" else "s")

/-- The clock of an interval: hours of two digits or more, and a fraction without zeros at its
    end. -/
def clockText (micros : Int) : String :=
  let total := micros.natAbs
  let fraction := total % microsPerSecond
  let clock :=
    s!"{padded 2 (total / microsPerHour)}:{padded 2 (total % microsPerHour / microsPerMinute)}:" ++
      padded 2 (total % microsPerMinute / microsPerSecond)
  (if micros < 0 then "-" else "") ++ clock ++
    (if fraction = 0 then ""
      else "." ++ String.ofList (dropBack '0' (padded 6 fraction).toList))

/-- The parts of an interval that are written: those that are not zero, and a clock if there is
    none. -/
def parts (i : Interval) : List String :=
  let months := i.months.toInt
  let years := months.tdiv 12
  let rest := months.tmod 12
  let days := i.days.toInt
  let calendar :=
    (if years = 0 then [] else [counted years "year"]) ++
      (if rest = 0 then [] else [counted rest "mon"]) ++
      (if days = 0 then [] else [counted days "day"])
  if i.micros ≠ 0 ∨ calendar = [] then calendar ++ [clockText i.micros.toInt] else calendar

/-- An interval as text. -/
def render (i : Interval) : String :=
  " ".intercalate i.parts

end Interval

end QueryPlan
