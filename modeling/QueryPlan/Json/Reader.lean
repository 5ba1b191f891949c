import QueryPlan.Json.Basic
import QueryPlan.Number.Numeral
import QueryPlan.Text.Hex
import QueryPlan.Text.Utf8

/-!
# Reading JSON text

`Json.read` reads a text as it stands, with repeated names; `Json.parse` settles them. What cannot
be read is a `SyntaxError`: the problem and the place where it was noticed, as a line and the number
of bytes of that line that had been looked at.

Every reading function takes the characters that are left and gives back those that it leaves. The
functions that go down into values count their steps; a text has fewer values than characters, so
that the count never runs out.
-/

namespace QueryPlan

namespace Json

/-! ## 1. Problems -/

/-- What is wrong with a text. -/
inductive Problem where
  | endInList
  | endInObject
  | endInString
  | endInValue
  | colon
  | listEnd
  | objectEnd
  | word
  | value
  | escape
  | number
  | numberRange
  | codePoint
  | controlCharacter
  | key
  | loneSurrogate
  | trailingComma
  | trailingCharacters
  | hexEnd
  | nesting
  deriving DecidableEq

def Problem.message : Problem → String
  | endInList => "EOF while parsing a list"
  | endInObject => "EOF while parsing an object"
  | endInString => "EOF while parsing a string"
  | endInValue => "EOF while parsing a value"
  | colon => "expected `:`"
  | listEnd => "expected `,` or `]`"
  | objectEnd => "expected `,` or `\x7d`"
  | word => "expected ident"
  | value => "expected value"
  | escape => "invalid escape"
  | number => "invalid number"
  | numberRange => "number out of range"
  | codePoint => "invalid unicode code point"
  | controlCharacter => "control character (\\u0000-\\u001F) found while parsing a string"
  | key => "key must be a string"
  | loneSurrogate => "lone leading surrogate in hex escape"
  | trailingComma => "trailing comma"
  | trailingCharacters => "trailing characters"
  | hexEnd => "unexpected end of hex escape"
  | nesting => "recursion limit exceeded"

/-- A problem and its place: `ahead` bytes into the characters that were left. -/
structure Fault where
  problem : Problem
  rest : List Char
  ahead : Nat

/-- A problem at the end of what has been read. -/
def Fault.here (problem : Problem) (rest : List Char) : Fault := ⟨problem, rest, 0⟩

/-- A problem with the next byte. -/
def Fault.next (problem : Problem) (rest : List Char) : Fault := ⟨problem, rest, 1⟩

/-- A problem at a line, and the number of bytes of that line that had been looked at. -/
structure SyntaxError where
  problem : Problem
  line : Nat
  column : Nat
  deriving DecidableEq

def SyntaxError.message (e : SyntaxError) : String :=
  s!"{e.problem.message} at line {e.line} column {e.column}"

/-- The line and the column behind the first `index` bytes of a text. -/
def lineColumn : List Char → Nat → Nat × Nat → Nat × Nat
  | [], _, place => place
  | c :: cs, index, (line, column) =>
    if index = 0 then (line, column)
    else if c == '\n' then lineColumn cs (index - 1) (line + 1, 0)
    else lineColumn cs (index - c.utf8Size) (line, column + min index c.utf8Size)

/-- The number of bytes in front of a fault. -/
def Fault.index (fault : Fault) (input : List Char) : Nat :=
  let size := Text.utf8Width input
  min size (size - Text.utf8Width fault.rest + fault.ahead)

/-- The place of a fault in the text that was read. -/
def Fault.locate (fault : Fault) (input : List Char) : SyntaxError :=
  let (line, column) := lineColumn input (fault.index input) (1, 0)
  ⟨fault.problem, line, column⟩

/-! ## 2. Blanks and words -/

/-- The four blanks of JSON. -/
def isSpace (c : Char) : Bool :=
  c == ' ' || c == '\n' || c == '\t' || c == '\r'

def skipSpace (cs : List Char) : List Char :=
  cs.dropWhile isSpace

/-- Reads the rest of a word. -/
def readWord : List Char → List Char → Except Fault (Unit × List Char)
  | [], cs => .ok ((), cs)
  | _ :: _, [] => .error (.here .endInValue [])
  | w :: word, c :: cs => if c == w then readWord word cs else .error (.next .word (c :: cs))

/-! ## 3. Strings -/

/-- Four hexadecimal digits. -/
def readHex (cs : List Char) : Except Fault (Nat × List Char) :=
  match cs with
  | a :: b :: c :: d :: rest =>
    match Text.hexValue? a, Text.hexValue? b, Text.hexValue? c, Text.hexValue? d with
    | some a, some b, some c, some d => .ok (((a * 16 + b) * 16 + c) * 16 + d, rest)
    | _, _, _, _ => .error ⟨.escape, cs, 4⟩
  | _ =>
    if Text.utf8Width cs < 4 then .error ⟨.endInString, cs, 4⟩ else .error ⟨.escape, cs, 4⟩

/-- The second half of a pair of surrogates, whose first half is `high`. -/
def readLowSurrogate (high : Nat) (cs : List Char) : Except Fault (Char × List Char) :=
  match cs with
  | [] => .error (.here .endInString [])
  | '\\' :: [] => .error (.here .endInString [])
  | '\\' :: 'u' :: behind => do
    let (low, rest) ← readHex behind
    if 0xDC00 ≤ low && low ≤ 0xDFFF then
      pure (Char.ofNat ((high - 0xD800) * 0x400 + (low - 0xDC00) + 0x10000), rest)
    else throw (.here .loneSurrogate rest)
  | '\\' :: behind => .error (.next .hexEnd behind)
  | _ => .error (.next .hexEnd cs)

/-- The character that an escape stands for; the backslash has been read. -/
def readEscape (cs : List Char) : Except Fault (Char × List Char) :=
  match cs with
  | [] => .error (.here .endInString [])
  | 'u' :: behind => do
    let (unit, rest) ← readHex behind
    if 0xDC00 ≤ unit && unit ≤ 0xDFFF then throw (.here .loneSurrogate rest)
    else if 0xD800 ≤ unit && unit ≤ 0xDBFF then readLowSurrogate unit rest
    else pure (Char.ofNat unit, rest)
  | c :: rest =>
    match c with
    | '"' => .ok ('"', rest)
    | '\\' => .ok ('\\', rest)
    | '/' => .ok ('/', rest)
    | 'b' => .ok ('\x08', rest)
    | 'f' => .ok ('\x0c', rest)
    | 'n' => .ok ('\n', rest)
    | 'r' => .ok ('\r', rest)
    | 't' => .ok ('\t', rest)
    | _ => .error (.next .escape cs)

/-- The characters of a string up to its closing quote, read in front of those in `read`, which
    are in reverse. -/
def readString : Nat → List Char → List Char → Except Fault (String × List Char)
  | 0, _, cs => .error (.here .endInString cs)
  | steps + 1, read, cs =>
    match cs with
    | [] => .error (.here .endInString [])
    | '"' :: rest => .ok (String.ofList read.reverse, rest)
    | '\\' :: behind => do
      let (c, rest) ← readEscape behind
      readString steps (c :: read) rest
    | c :: rest =>
      if c.toNat < 0x20 then .error (.next .controlCharacter cs)
      else readString steps (c :: read) rest

/-- A string whose opening quote has been read. -/
def readText (cs : List Char) : Except Fault (String × List Char) :=
  readString (cs.length + 1) [] cs

/-! ## 4. Numbers

A number that is no integer in range is made of at most nineteen or twenty digits, as many as fit
64 bits, and one power of ten: two roundings, one of the digits and one of the product or quotient.
-/

/-- Digits collected into 64 bits, and the power of ten that belongs to them. -/
structure Significand where
  digits : Nat
  exponent : Int

/-- Whether a further digit would overflow 64 bits. -/
def overflows (digits digit : Nat) : Bool :=
  maxUInt64 < digits * 10 + digit

def digitValue (c : Char) : Nat :=
  c.toNat - 48

/-- Digits in front of the point. Those that no longer fit only count. -/
def wholeDigits : Nat → List Char → Significand
  | digits, [] => ⟨digits, 0⟩
  | digits, c :: cs =>
    if overflows digits (digitValue c) then ⟨digits, (c :: cs).length⟩
    else wholeDigits (digits * 10 + digitValue c) cs

/-- Digits behind the point. Those that no longer fit are left out. -/
def fractionDigits (start : Significand) : List Char → Significand
  | [] => start
  | c :: cs =>
    if overflows start.digits (digitValue c) then start
    else fractionDigits ⟨start.digits * 10 + digitValue c, start.exponent - 1⟩ cs

/-- The power of ten nearest to `10 ^ n`. -/
def powerOfTen (n : Nat) : Double :=
  Double.ofNat (tenTo n)

/-- Divides by `10 ^ n`, at most `10 ^ 308` at a time. -/
def divideTens : Nat → Double → Nat → Double
  | 0, x, _ => x
  | steps + 1, x, n =>
    if x.isZero then x
    else if n ≤ 308 then x / powerOfTen n
    else divideTens steps (x / powerOfTen 308) (n - 308)

/-- The double of a significand, or nothing if it is too large. -/
def scaled? (negative : Bool) (s : Significand) : Option Double :=
  let x := Double.ofNat s.digits
  let y? : Option Double :=
    if x.isZero then some x
    else if s.exponent < 0 then
      some (divideTens (s.exponent.natAbs / 308 + 1) x s.exponent.natAbs)
    else if 308 < s.exponent then none
    else some (x * powerOfTen s.exponent.toNat)
  (y?.filter Double.isFinite).map fun y =>
    if negative then Double.ofMagnitude true y.bits.toNat else y

/-- A finite double as a value. -/
def ofScaled (negative : Bool) (s : Significand) (rest : List Char) :
    Except Fault (Json × List Char) :=
  match scaled? negative s with
  | some x => .ok (ofDouble x, rest)
  | none => .error (.here .numberRange rest)

/-- The digits of an exponent, `value` having been read already, and the characters behind them.
    An exponent of more than 31 bits stops the reading: the number is then too large, or zero. -/
def exponentDigits : Nat → List Char → Except (List Char) (Nat × List Char)
  | value, [] => .ok (value, [])
  | value, c :: cs =>
    if Numeral.isDigit c then
      let more := value * 10 + digitValue c
      if maxInt32 < more then .error cs else exponentDigits more cs
    else .ok (value, c :: cs)

/-- The exponent of a number; its `e` has been read. -/
def readExponent (negative : Bool) (s : Significand) (cs : List Char) :
    Except Fault (Json × List Char) :=
  let (below, digits) := Numeral.splitSign cs
  match digits with
  | [] => .error (.here .endInValue [])
  | c :: _ =>
    if Numeral.isDigit c then
      match exponentDigits 0 digits with
      | .ok (value, rest) =>
        let moved : Int := if below then s.exponent - value else s.exponent + value
        ofScaled negative ⟨s.digits, moved⟩ rest
      | .error rest =>
        if s.digits ≠ 0 ∧ below = false then .error (.here .numberRange rest)
        else .ok (ofDouble (Double.zero negative), rest.dropWhile Numeral.isDigit)
    else .error (.next .number digits)

/-- What follows the digits in front of the point, for a number that has a point, an exponent or
    too many digits. -/
def readScaled (negative : Bool) (s : Significand) (cs : List Char) :
    Except Fault (Json × List Char) :=
  match cs with
  | '.' :: behind =>
    let (digits, rest) := Numeral.spanDigits behind
    if digits.isEmpty then
      match behind with
      | [] => .error (.here .endInValue [])
      | _ => .error (.next .number behind)
    else
      let s := fractionDigits s digits
      match rest with
      | c :: after =>
        if c == 'e' || c == 'E' then readExponent negative s after else ofScaled negative s rest
      | [] => ofScaled negative s rest
  | c :: after =>
    if c == 'e' || c == 'E' then readExponent negative s after else ofScaled negative s cs
  | [] => ofScaled negative s cs

/-- Whether a number goes on behind the digits in front of the point. -/
def continuesNumber : List Char → Bool
  | c :: _ => c == '.' || c == 'e' || c == 'E'
  | [] => false

/-- A number whose minus sign, if it has one, has been read. -/
def readNumber (negative : Bool) (cs : List Char) : Except Fault (Json × List Char) :=
  match cs with
  | [] => .error (.here .endInValue [])
  | c :: behind =>
    if !Numeral.isDigit c then .error (.next .number cs)
    else
      let (digits, rest) := if c == '0' then (['0'], behind) else Numeral.spanDigits cs
      match c == '0', rest with
      | true, d :: _ =>
        if Numeral.isDigit d then .error (.next .number rest) else finish digits rest
      | _, _ => finish digits rest
where
  /-- An integer stays one if it is in range and not `-0`. -/
  finish (digits rest : List Char) : Except Fault (Json × List Char) :=
    let s := wholeDigits 0 digits
    if continuesNumber rest || s.exponent ≠ 0 then readScaled negative s rest
    else if negative then
      if s.digits = 0 ∨ maxInt64 + 1 < s.digits then ofScaled true s rest
      else .ok (ofInt (-(s.digits : Int)), rest)
    else .ok (ofNat s.digits, rest)

/-! ## 5. Values -/

/-- The greatest number of values that may stand inside each other. -/
def maxDepth : Nat := 127

mutual

/-- A value, blanks in front of it included. `depth` values may still be opened inside each
    other. -/
def readValue : Nat → Nat → List Char → Except Fault (Json × List Char)
  | 0, _, cs => .error (.next .value cs)
  | steps + 1, depth, cs =>
    match skipSpace cs with
    | [] => .error (.here .endInValue [])
    | c :: rest =>
      match c with
      | 'n' => return (.null, (← readWord ['u', 'l', 'l'] rest).2)
      | 't' => return (.bool true, (← readWord ['r', 'u', 'e'] rest).2)
      | 'f' => return (.bool false, (← readWord ['a', 'l', 's', 'e'] rest).2)
      | '"' => do
        let (s, rest) ← readText rest
        return (.text s, rest)
      | '[' =>
        match depth with
        | 0 => .error (.next .nesting (c :: rest))
        | depth + 1 => do
          let (items, rest) ← readItems steps depth true rest
          return (.array items, rest)
      | '\x7b' =>
        match depth with
        | 0 => .error (.next .nesting (c :: rest))
        | depth + 1 => do
          let (fields, rest) ← readFields steps depth true rest
          return (.object fields, rest)
      | '-' => readNumber true rest
      | _ =>
        if Numeral.isDigit c then readNumber false (c :: rest)
        else .error (.next .value (c :: rest))

/-- The items of an array up to its end; `first` says that none has been read yet. -/
def readItems : Nat → Nat → Bool → List Char → Except Fault (List Json × List Char)
  | 0, _, _, cs => .error (.here .endInList cs)
  | steps + 1, depth, first, cs =>
    match skipSpace cs with
    | [] => .error (.here .endInList [])
    | ']' :: rest => .ok ([], rest)
    | c :: rest =>
      if first then readItem steps depth (c :: rest)
      else if c == ',' then
        match skipSpace rest with
        | [] => .error (.here .endInValue [])
        | ']' :: behind => .error (.next .trailingComma (']' :: behind))
        | behind => readItem steps depth behind
      else .error (.next .listEnd (c :: rest))

/-- An item of an array and all that follow it. -/
def readItem : Nat → Nat → List Char → Except Fault (List Json × List Char)
  | 0, _, cs => .error (.here .endInList cs)
  | steps + 1, depth, cs => do
    let (item, rest) ← readValue steps depth cs
    let (items, rest) ← readItems steps depth false rest
    return (item :: items, rest)

/-- The fields of an object up to its end; `first` says that none has been read yet. -/
def readFields : Nat → Nat → Bool → List Char → Except Fault (List (String × Json) × List Char)
  | 0, _, _, cs => .error (.here .endInObject cs)
  | steps + 1, depth, first, cs =>
    match skipSpace cs with
    | [] => .error (.here .endInObject [])
    | '\x7d' :: rest => .ok ([], rest)
    | c :: rest =>
      if first then
        if c == '"' then readField steps depth rest else .error (.next .key (c :: rest))
      else if c == ',' then
        match skipSpace rest with
        | [] => .error (.here .endInValue [])
        | '"' :: behind => readField steps depth behind
        | '\x7d' :: behind => .error (.next .trailingComma ('\x7d' :: behind))
        | behind => .error (.next .key behind)
      else .error (.next .objectEnd (c :: rest))

/-- A field whose opening quote has been read, and all that follow it. -/
def readField : Nat → Nat → List Char → Except Fault (List (String × Json) × List Char)
  | 0, _, cs => .error (.here .endInObject cs)
  | steps + 1, depth, cs => do
    let (name, rest) ← readText cs
    match skipSpace rest with
    | [] => .error (.here .endInObject [])
    | ':' :: behind =>
      let (value, rest) ← readValue steps depth behind
      let (fields, rest) ← readFields steps depth false rest
      return ((name, value) :: fields, rest)
    | behind => .error (.next .colon behind)

end

/-! ## 6. Texts -/

/-- A value that fills the whole text. -/
def readAll (cs : List Char) : Except Fault Json :=
  match readValue (3 * cs.length + 3) maxDepth cs with
  | .error fault => .error fault
  | .ok (j, rest) =>
    match skipSpace rest with
    | [] => .ok j
    | behind => .error (.next .trailingCharacters behind)

/-- The value of a text, with repeated names as they stand. -/
def read (s : String) : Except SyntaxError Json :=
  match readAll s.toList with
  | .ok j => .ok j
  | .error fault => .error (fault.locate s.toList)

/-- The value of a text. -/
def parse (s : String) : Except SyntaxError Json :=
  (read s).map settle

/-! ## 7. Bytes -/

/-- Where the first string ends that holds a byte which belongs to no character. `inside` says that
    the characters stand in a string, `stray` that such a byte was met in it; a backslash takes the
    next character with it. -/
def strayEnd? : (inside stray escaped : Bool) → (index : Nat) → List (Option Char) → Option Nat
  | _, _, _, _, [] => none
  | inside, stray, true, index, g :: rest =>
    strayEnd? inside (stray || g.isNone) false (index + (g.map Char.utf8Size).getD 1) rest
  | true, stray, false, index, g :: rest =>
    let index := index + (g.map Char.utf8Size).getD 1
    if g == some '"' then
      if stray then some index else strayEnd? false false false index rest
    else strayEnd? true (stray || g.isNone) (g == some '\\') index rest
  | false, _, false, index, g :: rest =>
    strayEnd? (g == some '"') false false (index + (g.map Char.utf8Size).getD 1) rest

/-- The value of a text given as bytes. A byte that belongs to no character is a problem where it
    stands, but inside a string only when the string ends. -/
def parseBytes (bytes : List UInt8) : Except SyntaxError Json :=
  let glyphs := Text.decodeUtf8 bytes
  let cs := glyphs.map (·.getD '\x7f')
  let result := readAll cs
  let stray := strayEnd? false false false 0 glyphs
  match stray, result with
  | none, .ok j => .ok j.settle
  | none, .error fault => .error (fault.locate cs)
  | some stop, .ok _ => .error (locateAt stop cs)
  | some stop, .error fault =>
    if fault.index cs < stop then .error (fault.locate cs) else .error (locateAt stop cs)
where
  locateAt (stop : Nat) (cs : List Char) : SyntaxError :=
    let (line, column) := lineColumn cs stop (1, 0)
    ⟨.codePoint, line, column⟩

end Json

end QueryPlan
