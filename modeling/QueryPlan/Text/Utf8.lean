/-!
# UTF-8

Texts as bytes. Decoding goes on behind bytes that belong to no character: each of them is reported
by itself, so that a reader can say where they stand.
-/

namespace QueryPlan.Text

/-- The bytes of a text. -/
def utf8 (s : String) : List UInt8 :=
  s.toUTF8.data.toList

/-- The number of bytes that a character takes. -/
def utf8Width (cs : List Char) : Nat :=
  cs.foldl (fun n c => n + c.utf8Size) 0

/-- The payload of a continuation byte. -/
def continuation? (b : UInt8) : Option Nat :=
  if 0x80 ≤ b && b < 0xC0 then some (b.toNat - 0x80) else none

/-- The character that starts at the first byte, and the number of bytes behind it that belong to
    it. Overlong forms and surrogates are no characters. -/
def leadingChar? : List UInt8 → Option (Char × Nat)
  | [] => none
  | a :: rest =>
    let a := a.toNat
    let accept (least n width : Nat) : Option (Char × Nat) :=
      if least ≤ n ∧ n.isValidChar then some (Char.ofNat n, width) else none
    if a < 0x80 then some (Char.ofNat a, 0)
    else
      let tail := rest.map continuation?
      if 0xC0 ≤ a && a < 0xE0 then
        match tail with
        | some b :: _ => accept 0x80 ((a - 0xC0) * 64 + b) 1
        | _ => none
      else if 0xE0 ≤ a && a < 0xF0 then
        match tail with
        | some b :: some c :: _ => accept 0x800 (((a - 0xE0) * 64 + b) * 64 + c) 2
        | _ => none
      else if 0xF0 ≤ a && a < 0xF8 then
        match tail with
        | some b :: some c :: some d :: _ =>
          accept 0x10000 ((((a - 0xF0) * 64 + b) * 64 + c) * 64 + d) 3
        | _ => none
      else none

/-- The characters of a byte sequence, `none` for a byte that belongs to none. The first argument
    counts the bytes that a character has already taken. -/
def decodeUtf8From : Nat → List UInt8 → List (Option Char)
  | _, [] => []
  | taken + 1, _ :: rest => decodeUtf8From taken rest
  | 0, b :: rest =>
    match leadingChar? ((b :: rest).take 4) with
    | some (c, width) => some c :: decodeUtf8From width rest
    | none => none :: decodeUtf8From 0 rest

/-- The characters of a byte sequence, `none` for a byte that belongs to none. -/
def decodeUtf8 (bytes : List UInt8) : List (Option Char) :=
  decodeUtf8From 0 bytes

end QueryPlan.Text
