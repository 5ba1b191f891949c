import QueryPlan.Json.Basic
import QueryPlan.Number.Spelling
import QueryPlan.Text.Hex

/-!
# JSON text

The compact form: no blanks, fields in their order. In strings the quote, the backslash and the
control characters are escaped, by a letter where JSON has one; all else stands as it is.
-/

namespace QueryPlan.Json

/-- A control character in hexadecimal, as `\u00xx`. -/
def hexEscape (c : Char) : List Char :=
  ['\\', 'u', '0', '0', Text.hexDigit (c.toNat / 16), Text.hexDigit (c.toNat % 16)]

/-- A character inside a string. -/
def escape (c : Char) : List Char :=
  if c == '"' then ['\\', '"']
  else if c == '\\' then ['\\', '\\']
  else if c == '\x08' then ['\\', 'b']
  else if c == '\t' then ['\\', 't']
  else if c == '\n' then ['\\', 'n']
  else if c == '\x0c' then ['\\', 'f']
  else if c == '\r' then ['\\', 'r']
  else if c.toNat < 0x20 then hexEscape c
  else [c]

/-- A string with its quotes. -/
def quoted (s : String) : List Char :=
  '"' :: s.toList.flatMap escape ++ ['"']

/-- An integer in decimal digits. -/
def integerDigits (n : Int) : List Char :=
  if n < 0 then '-' :: digitsOf n.natAbs else digitsOf n.natAbs

/-- A number. -/
def numberText : JsonNumber → List Char
  | .integer n _ => integerDigits n
  | .double x _ => (x.spell .json).toList

mutual

/-- The characters of the compact form. -/
def chars : Json → List Char
  | null => ['n', 'u', 'l', 'l']
  | bool true => ['t', 'r', 'u', 'e']
  | bool false => ['f', 'a', 'l', 's', 'e']
  | number n => numberText n
  | text s => quoted s
  | array items => '[' :: charsItems items ++ [']']
  | object fields => '\x7b' :: charsFields fields ++ ['\x7d']

def charsItems : List Json → List Char
  | [] => []
  | [item] => chars item
  | item :: rest => chars item ++ ',' :: charsItems rest

def charsFields : List (String × Json) → List Char
  | [] => []
  | [(name, value)] => quoted name ++ ':' :: chars value
  | (name, value) :: rest => quoted name ++ ':' :: chars value ++ ',' :: charsFields rest

end

/-- The compact form. -/
def render (j : Json) : String :=
  String.ofList j.chars

end QueryPlan.Json
