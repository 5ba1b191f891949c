import QueryPlan.Calendar.Basic
import QueryPlan.Number.Numeral
import QueryPlan.Text.Blank

/-!
# Reading dates and times

A layout is a list of items: numbers, marks, blanks and an optional fraction. A number skips blanks
in front and takes as many digits as it may; blanks match any run of white space. What the items
yield is collected in `Parts` and put together at the end, where the ranges are checked.

A text matches a layout only if nothing is left behind it.
-/

namespace QueryPlan

namespace Calendar

open QueryPlan.Text

/-! ## 1. Layouts -/

/-- A number of a date or a time. -/
inductive Part where
  | year
  | month
  | day
  | hour
  | minute
  | second
  deriving DecidableEq

/-- An item of a layout. -/
inductive Item where
  | part (part : Part)
  | mark (c : Char)
  | blanks
  | fraction

/-- What has been read. -/
structure Parts where
  year : Option Int := none
  month : Option Nat := none
  day : Option Nat := none
  hour : Option Nat := none
  minute : Option Nat := none
  second : Option Nat := none
  nanos : Option Nat := none

def Parts.set (parts : Parts) (part : Part) (n : Nat) : Parts :=
  match part with
  | .year => { parts with year := some n }
  | .month => { parts with month := some n }
  | .day => { parts with day := some n }
  | .hour => { parts with hour := some n }
  | .minute => { parts with minute := some n }
  | .second => { parts with second := some n }

/-! ## 2. Numbers, fractions and offsets -/

/-- At most `width` digits in front, at least one. -/
def readDigits? (width : Nat) (cs : List Char) : Option (Nat × List Char) :=
  let digits := (cs.take width).takeWhile Numeral.isDigit
  if digits.isEmpty then none else some (Numeral.valueFrom 0 digits, cs.drop digits.length)

/-- Exactly `width` digits. -/
def readExactly? (width : Nat) (cs : List Char) : Option (Nat × List Char) :=
  let digits := cs.take width
  if digits.length = width ∧ digits.all Numeral.isDigit = true then
    some (Numeral.valueFrom 0 digits, cs.drop width)
  else none

/-- A year: up to four digits, or any number of them behind a sign. -/
def readYear? (cs : List Char) : Option (Int × List Char) :=
  match cs with
  | '-' :: rest => (readDigits? rest.length rest).map fun (n, rest) => (-(n : Int), rest)
  | '+' :: rest => (readDigits? rest.length rest).map fun (n, rest) => ((n : Int), rest)
  | _ => (readDigits? 4 cs).map fun (n, rest) => ((n : Int), rest)

/-- The nanoseconds of a fraction whose point has been read. Digits behind the ninth are
    skipped. -/
def readNanos? (cs : List Char) : Option (Nat × List Char) :=
  let (digits, rest) := Numeral.spanDigits cs
  if digits.isEmpty then none
  else
    let kept := digits.take 9
    some (Numeral.valueFrom 0 kept * tenTo (9 - kept.length), rest)

/-- A fraction, if a point stands in front. -/
def readFraction? (parts : Parts) (cs : List Char) : Option (Parts × List Char) :=
  match cs with
  | '.' :: behind => (readNanos? behind).map fun (n, rest) => ({ parts with nanos := some n }, rest)
  | _ => some (parts, cs)

/-- How the minutes of an offset are set off. -/
inductive OffsetStyle where
  /-- A colon, and the minutes must follow. -/
  | strict
  /-- Any run of colons and blanks, and the minutes must follow. -/
  | spaced
  /-- Any run of colons and blanks, and the minutes may be missing at the end of the text. -/
  | short
  deriving DecidableEq

/-- What stands between the hours and the minutes. -/
def skipOffsetMark? : OffsetStyle → List Char → Option (List Char)
  | .strict, ':' :: rest => some rest
  | .strict, _ => none
  | _, cs => some (cs.dropWhile fun c => c == ':' || isBlank c)

/-- The minutes of an offset: `Z`, or a sign, two digits of hours and two of minutes. -/
def readOffset? (style : OffsetStyle) (cs : List Char) : Option (Int × List Char) :=
  match cs with
  | 'Z' :: rest => some (0, rest)
  | 'z' :: rest => some (0, rest)
  | sign :: rest => do
    let negative ←
      if sign == '+' then some false
      else if sign == '-' || sign == '−' then some true
      else none
    let (hours, rest) ← readExactly? 2 rest
    let rest ← skipOffsetMark? style rest
    let (minutes, rest) ←
      if style = .short ∧ rest.isEmpty then some (0, rest) else readExactly? 2 rest
    if 60 ≤ minutes then none
    else
      let total : Int := hours * 60 + minutes
      some (if negative then -total else total, rest)
  | [] => none

/-! ## 3. Matching -/

/-- Reads one item. -/
def readItem? (item : Item) (parts : Parts) (cs : List Char) : Option (Parts × List Char) :=
  match item with
  | .part .year =>
    (readYear? (trimFront cs)).map fun (n, rest) => ({ parts with year := some n }, rest)
  | .part part => (readDigits? 2 (trimFront cs)).map fun (n, rest) => (parts.set part n, rest)
  | .mark m =>
    match cs with
    | c :: rest => if c == m then some (parts, rest) else none
    | [] => none
  | .blanks => some (parts, trimFront cs)
  | .fraction => readFraction? parts cs

/-- Reads all items of a layout. -/
def readItems? : List Item → Parts → List Char → Option (Parts × List Char)
  | [], parts, cs => some (parts, cs)
  | item :: items, parts, cs => do
    let (parts, rest) ← readItem? item parts cs
    readItems? items parts rest

/-- Reads a layout that fills the whole text. -/
def matchItems? (items : List Item) (cs : List Char) : Option Parts :=
  match readItems? items {} cs with
  | some (parts, []) => some parts
  | _ => none

/-! ## 4. Putting the parts together -/

def Parts.date? (parts : Parts) : Option Date := do
  Date.of? (← parts.year) (← parts.month) (← parts.day)

/-- The time of day. Seconds may be missing, but then no fraction may stand. -/
def Parts.clock? (parts : Parts) : Option Clock := do
  let hour ← parts.hour
  let minute ← parts.minute
  match parts.second, parts.nanos with
  | some second, nanos => Clock.of? hour minute second (nanos.getD 0)
  | none, none => Clock.of? hour minute 0 0
  | none, some _ => none

def Parts.timestamp? (parts : Parts) : Option Timestamp := do
  let date ← parts.date?
  let clock ← parts.clock?
  some ⟨date, clock⟩

def Parts.offsetTimestamp? (parts : Parts) (offset : Int) : Option OffsetTimestamp := do
  OffsetTimestamp.ofLocal? (← parts.timestamp?) offset

/-! ## 5. Layouts in use -/

/-- Year, month and day without blanks. -/
def dateItems : List Item :=
  [.part .year, .mark '-', .part .month, .mark '-', .part .day]

/-- Hour and minute without blanks. -/
def minuteItems : List Item :=
  [.part .hour, .mark ':', .part .minute]

/-- Hour, minute, second and fraction without blanks. -/
def clockItems : List Item :=
  minuteItems ++ [.mark ':', .part .second, .fraction]

/-- Year, month and day, with blanks in front of the marks. -/
def spacedDateItems : List Item :=
  [.part .year, .blanks, .mark '-', .part .month, .blanks, .mark '-', .part .day]

/-- Hour, minute, second and fraction, with blanks in front of the marks. -/
def spacedClockItems : List Item :=
  [.part .hour, .blanks, .mark ':', .part .minute, .blanks, .mark ':', .part .second, .fraction,
    .blanks]

end Calendar

open Calendar

namespace Date

/-- A date as it stands in text columns. -/
def ofText? (cs : List Char) : Option Date :=
  (matchItems? dateItems cs).bind Parts.date?

/-- A date as it stands in plans: blanks are allowed in front of the marks and at the end. -/
def ofPlan? (s : String) : Option Date :=
  (matchItems? (spacedDateItems ++ [.blanks]) s.toList).bind Parts.date?

end Date

namespace Clock

/-- A time of day as it stands in text columns. -/
def ofText? (cs : List Char) : Option Clock :=
  (matchItems? clockItems cs).bind Parts.clock? <|>
    (matchItems? minuteItems cs).bind Parts.clock?

/-- A time of day as it stands in plans: seconds may be missing. -/
def ofPlan? (s : String) : Option Clock := do
  let (parts, rest) ← readItems? [.part .hour, .blanks, .mark ':', .part .minute] {} s.toList
  let (parts, rest) :=
    (readItems? [.blanks, .mark ':', .part .second, .fraction, .blanks] parts rest).getD
      (parts, rest)
  if (Text.trimFront rest).isEmpty then parts.clock? else none

end Clock

namespace Timestamp

/-- The forms of a timestamp without an offset in text columns. -/
def textLayouts : List (List Item) :=
  [dateItems ++ [.mark 'T'] ++ clockItems,
    dateItems ++ [.blanks] ++ clockItems,
    dateItems ++ [.mark 'T'] ++ minuteItems,
    dateItems ++ [.blanks] ++ minuteItems]

/-- A timestamp without an offset as it stands in text columns. -/
def ofText? (cs : List Char) : Option Timestamp :=
  textLayouts.findSome? fun items => (matchItems? items cs).bind Parts.timestamp?

/-- A timestamp as it stands in plans. -/
def ofPlan? (s : String) : Option Timestamp :=
  (matchItems? (spacedDateItems ++ [.blanks, .mark 'T'] ++ spacedClockItems) s.toList).bind
    Parts.timestamp?

end Timestamp

namespace OffsetTimestamp

/-- What divides date and time. -/
def skipDivider? : List Char → Option (List Char)
  | c :: rest => if c == 'T' || c == 't' || c == ' ' then some rest else none
  | [] => none

/-- The internet form: all numbers have their full width, and the offset has a colon. -/
def ofInternet? (cs : List Char) : Option OffsetTimestamp := do
  let (year, cs) ← readExactly? 4 cs
  let cs ← mark '-' cs
  let (month, cs) ← readExactly? 2 cs
  let cs ← mark '-' cs
  let (day, cs) ← readExactly? 2 cs
  let cs ← skipDivider? cs
  let (hour, cs) ← readExactly? 2 cs
  let cs ← mark ':' cs
  let (minute, cs) ← readExactly? 2 cs
  let cs ← mark ':' cs
  let (second, cs) ← readExactly? 2 cs
  let (parts, cs) ←
    readFraction?
      { year := some (year : Int), month := some month, day := some day, hour := some hour,
        minute := some minute, second := some second } cs
  let (offset, cs) ← readOffset? .strict cs
  if cs.isEmpty then parts.offsetTimestamp? offset else none
where
  mark (m : Char) (cs : List Char) : Option (List Char) :=
    match cs with
    | c :: rest => if c == m then some rest else none
    | [] => none

/-- A timestamp with a short offset: blanks in front of the offset are skipped. -/
def ofShort? (items : List Item) (cs : List Char) : Option OffsetTimestamp := do
  let (parts, cs) ← readItems? items {} cs
  let (offset, cs) ← readOffset? .short (Text.trimFront cs)
  if cs.isEmpty then parts.offsetTimestamp? offset else none

/-- A timestamp with an offset as it stands in text columns: the internet form, or one with a short
    offset. -/
def ofText? (cs : List Char) : Option OffsetTimestamp :=
  ofInternet? cs <|> ofShort? (dateItems ++ [.blanks] ++ clockItems) cs <|>
    ofShort? (dateItems ++ [.mark 'T'] ++ clockItems) cs

/-- Reads `UTC` in any case, or an offset. -/
def readZone? (cs : List Char) : Option (Int × List Char) :=
  if (cs.take 3).map Char.toLower = ['u', 't', 'c'] then some (0, cs.drop 3)
  else readOffset? .spaced cs

/-- A timestamp with an offset as it stands in plans. -/
def ofPlan? (s : String) : Option OffsetTimestamp := do
  let (parts, cs) ← readItems? spacedDateItems {} s.toList
  let cs ← skipDivider? cs
  let (parts, cs) ← readItems? spacedClockItems parts cs
  let (offset, cs) ← readZone? (Text.trimFront cs)
  if (Text.trimFront cs).isEmpty then parts.offsetTimestamp? offset
  else none

end OffsetTimestamp

end QueryPlan
