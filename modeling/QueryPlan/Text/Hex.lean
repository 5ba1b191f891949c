/-!
# Bytes in hexadecimal

Bytes are written as pairs of lower case digits. Reading takes digits of either case, and a pair may
have a plus sign for its first digit.
-/

namespace QueryPlan.Text

/-- The digit of a number below sixteen. -/
def hexDigit (n : Nat) : Char :=
  if n < 10 then Char.ofNat (48 + n) else Char.ofNat (87 + n)

/-- The value of a hexadecimal digit. -/
def hexValue? (c : Char) : Option Nat :=
  if '0' ≤ c && c ≤ '9' then some (c.toNat - 48)
  else if 'a' ≤ c && c ≤ 'f' then some (c.toNat - 87)
  else if 'A' ≤ c && c ≤ 'F' then some (c.toNat - 55)
  else none

/-- Bytes as pairs of digits. -/
def hexEncode (bytes : List UInt8) : List Char :=
  bytes.flatMap fun b => [hexDigit (b.toNat / 16), hexDigit (b.toNat % 16)]

/-- What holds of the sixteen digits holds of the characters that bytes are written with. -/
theorem forall_mem_hexEncode {p : Char → Prop} (h : ∀ n < 16, p (hexDigit n))
    (bytes : List UInt8) : ∀ c ∈ hexEncode bytes, p c := by
  intro c hc
  obtain ⟨b, -, hc⟩ := List.mem_flatMap.1 hc
  have hb : b.toNat < 256 := b.toNat_lt
  simp only [List.mem_cons, List.not_mem_nil, or_false] at hc
  rcases hc with rfl | rfl
  · exact h _ (by omega)
  · exact h _ (by omega)

/-- The byte that a pair of characters stands for. -/
def hexPair? (high low : Char) : Option UInt8 :=
  if high == '+' then (hexValue? low).map UInt8.ofNat
  else do
    let h ← hexValue? high
    let l ← hexValue? low
    some (UInt8.ofNat (16 * h + l))

/-- The bytes that pairs of characters stand for. -/
def hexDecode? : List Char → Option (List UInt8)
  | [] => some []
  | [_] => none
  | high :: low :: rest => do
    let b ← hexPair? high low
    let bytes ← hexDecode? rest
    some (b :: bytes)

end QueryPlan.Text
