import QueryPlan.Proofs.Coerce.Keeping

/-!
# Texts in hexadecimal

A text is read as bytes if it spells them in hexadecimal, and else stands for its own bytes. To
spell bytes, a text should be made of digits only. The reader takes its characters two by two, each
pair as a number that may have a plus sign, so that `+f` is read like `0f`.

`hexDecode?_eq_some_iff` says what is read: exactly the texts that are hexadecimal once the plus
signs at the start of pairs are replaced by zeros. `hex_text_iff_unsigned` draws the conclusion:
digits are told from other texts as they should be, except for the texts with such a sign.
-/

namespace QueryPlan

variable {cs : List Char} {c : Char}

namespace Text

/-! ## 1. Hexadecimal texts -/

def isHexDigit (c : Char) : Bool :=
  ('0' ≤ c && c ≤ '9') || ('a' ≤ c && c ≤ 'f') || ('A' ≤ c && c ≤ 'F')

/-- Whether a text is made of digits, an even number of them. -/
def isHex (cs : List Char) : Bool :=
  cs.all isHexDigit && cs.length % 2 == 0

/-- Equal up to the case of ASCII letters. -/
def EqualIgnoringCase (cs ds : List Char) : Prop :=
  cs.map Char.toLower = ds.map Char.toLower

/-- A zero for the plus sign of a pair. -/
def zeroSign (c : Char) : Char :=
  if c = '+' then '0' else c

/-- The text with zeros for the plus signs that pairs of its characters start with. -/
def zeroSigns : List Char → List Char
  | high :: low :: rest => zeroSign high :: low :: zeroSigns rest
  | cs => cs

/-- Whether a text is not hexadecimal, but would be if the signs of its pairs were zeros. -/
def isSignedHex (cs : List Char) : Bool :=
  !isHex cs && isHex (zeroSigns cs)

/-! ## 2. Digits and pairs -/

theorem isSome_hexValue? (c : Char) : (hexValue? c).isSome = isHexDigit c := by
  unfold hexValue? isHexDigit
  split
  · next h => simp [h]
  · next h =>
    split
    · next h' => simp [h']
    · next h' =>
      split
      · next h'' => simp [h'']
      · next h'' => simp_all

theorem toNat_lt_of_isHexDigit (h : isHexDigit c = true) : c.toNat < 128 := by
  have hupper : ∀ d : Char, c ≤ d → d.toNat < 128 → c.toNat < 128 :=
    fun d hcd hd => Nat.lt_of_le_of_lt (UInt32.le_iff_toNat_le.1 hcd) hd
  simp only [isHexDigit, Bool.or_eq_true, Bool.and_eq_true, decide_eq_true_eq] at h
  rcases h with (h | h) | h
  · exact hupper '9' h.2 (by decide)
  · exact hupper 'f' h.2 (by decide)
  · exact hupper 'F' h.2 (by decide)

/-- Beyond ASCII there is no letter case. -/
theorem toNat_lt_of_toLower (h : c.toLower.toNat < 128) : c.toNat < 128 := by
  unfold Char.toLower at h
  split at h
  · next hletter => exact Nat.lt_of_le_of_lt (UInt32.le_iff_toNat_le.1 hletter.2) (by decide)
  · exact h

/-- A digit has the value of the digit that it is in lower case. -/
theorem hexValue?_eq_some_iff {n : Nat} :
    hexValue? c = some n ↔ n < 16 ∧ c.toLower = hexDigit n := by
  -- both sides speak of ASCII characters only, which can be gone through
  have hvalue : ∀ k : Fin 128, ∀ m ∈ hexValue? (Char.ofNat k),
      m < 16 ∧ (Char.ofNat k).toLower = hexDigit m := by decide +kernel
  have hdigit : ∀ k : Fin 128, ∀ m : Fin 16, (Char.ofNat k).toLower = hexDigit m →
      hexValue? (Char.ofNat k) = some m.val := by decide +kernel
  have hsmall : ∀ m : Fin 16, (hexDigit m).toNat < 128 := by decide
  constructor
  · intro h
    have hc : c.toNat < 128 := toNat_lt_of_isHexDigit (by rw [← isSome_hexValue?, h]; rfl)
    have hall := hvalue ⟨c.toNat, hc⟩ n
    rw [Char.ofNat_toNat] at hall
    exact hall h
  · rintro ⟨hn, h⟩
    have hc : c.toNat < 128 := toNat_lt_of_toLower (h ▸ hsmall ⟨n, hn⟩)
    have hall := hdigit ⟨c.toNat, hc⟩ ⟨n, hn⟩
    rw [Char.ofNat_toNat] at hall
    exact hall h

/-- A pair is read like the pair with a zero for its sign. -/
theorem hexPair?_eq_bind (high low : Char) :
    hexPair? high low = (hexValue? (zeroSign high)).bind fun h =>
      (hexValue? low).map fun l => UInt8.ofNat (16 * h + l) := by
  unfold hexPair? zeroSign
  by_cases hsign : high = '+'
  · subst hsign
    have hzero : hexValue? '0' = some 0 := rfl
    simp [hzero]
  · simp only [beq_iff_eq, if_neg hsign]
    cases hexValue? high <;> cases hexValue? low <;> rfl

theorem isSome_hexPair? (high low : Char) :
    (hexPair? high low).isSome = (isHexDigit (zeroSign high) && isHexDigit low) := by
  rw [hexPair?_eq_bind, ← isSome_hexValue?, ← isSome_hexValue?]
  cases hexValue? (zeroSign high) <;> cases hexValue? low <;> rfl

/-- A pair stands for the byte of its two digits. -/
theorem hexPair?_eq_some_iff {high low : Char} {b : UInt8} :
    hexPair? high low = some b ↔
      (zeroSign high).toLower = hexDigit (b.toNat / 16) ∧
        low.toLower = hexDigit (b.toNat % 16) := by
  have hb : b.toNat < 256 := b.toNat_lt
  rw [hexPair?_eq_bind]
  simp only [Option.bind_eq_some_iff, Option.map_eq_some_iff, hexValue?_eq_some_iff]
  constructor
  · rintro ⟨h, ⟨hh, hhigh⟩, l, ⟨hl, hlow⟩, rfl⟩
    have hvalue : (UInt8.ofNat (16 * h + l)).toNat = 16 * h + l :=
      UInt8.toNat_ofNat_of_lt' (by unfold UInt8.size; omega)
    rw [hvalue, hhigh, hlow, show (16 * h + l) / 16 = h by omega,
      show (16 * h + l) % 16 = l by omega]
    exact ⟨rfl, rfl⟩
  · rintro ⟨hhigh, hlow⟩
    refine ⟨_, ⟨by omega, hhigh⟩, _, ⟨by omega, hlow⟩, ?_⟩
    rw [show 16 * (b.toNat / 16) + b.toNat % 16 = b.toNat by omega, UInt8.ofNat_toNat]

/-! ## 3. Whole texts -/

theorem isHex_cons_cons (high low : Char) (rest : List Char) :
    isHex (high :: low :: rest) = (isHexDigit high && isHexDigit low && isHex rest) := by
  have hlength : (high :: low :: rest).length % 2 = rest.length % 2 := Nat.add_mod_right _ 2
  rw [isHex, isHex, hlength, List.all_cons, List.all_cons]
  simp only [Bool.and_assoc]

theorem hexDecode?_cons_cons (high low : Char) (rest : List Char) :
    hexDecode? (high :: low :: rest) =
      (hexPair? high low).bind fun b => (hexDecode? rest).map (b :: ·) := by
  rw [hexDecode?]
  cases hexPair? high low <;> cases hexDecode? rest <;> rfl

/-- What is read is hexadecimal up to the signs of its pairs. -/
theorem isSome_hexDecode? (cs : List Char) : (hexDecode? cs).isSome = isHex (zeroSigns cs) := by
  induction cs using hexDecode?.induct with
  | case1 => rfl
  | case2 c =>
    have hodd : isHex [c] = false := Bool.and_false _
    rw [zeroSigns, hodd]
    · rfl
    · intro high low rest h
      cases h
  | case3 high low rest ih =>
    rw [hexDecode?_cons_cons, zeroSigns, isHex_cons_cons, ← isSome_hexPair?, ← ih]
    cases hexPair? high low <;> cases hexDecode? rest <;> rfl

/-- **What is read from a text in hexadecimal**: the bytes that its digits are written for, in
    either case, with zeros for the signs of its pairs. -/
theorem hexDecode?_eq_some_iff {bytes : List UInt8} :
    hexDecode? cs = some bytes ↔ (zeroSigns cs).map Char.toLower = hexEncode bytes := by
  induction cs using hexDecode?.induct generalizing bytes with
  | case1 | case2 c => cases bytes <;> simp [hexDecode?, zeroSigns, hexEncode]
  | case3 high low rest ih =>
    rw [hexDecode?_cons_cons, zeroSigns, List.map_cons, List.map_cons]
    cases bytes with
    | nil => cases hexPair? high low <;> simp [hexEncode]
    | cons b bytes =>
      have hencode : hexEncode (b :: bytes) =
          hexDigit (b.toNat / 16) :: hexDigit (b.toNat % 16) :: hexEncode bytes := rfl
      rw [hencode, List.cons.injEq, List.cons.injEq, ← ih, ← and_assoc, ← hexPair?_eq_some_iff]
      cases hexPair? high low <;> cases hexDecode? rest <;> simp

/-- Digits are written in lower case. -/
theorem map_toLower_hexEncode (bytes : List UInt8) :
    (hexEncode bytes).map Char.toLower = hexEncode bytes := by
  refine (List.map_congr_left ?_).trans (List.map_id _)
  exact forall_mem_hexEncode (by decide) bytes

theorem length_zeroSigns (cs : List Char) : (zeroSigns cs).length = cs.length := by
  induction cs using zeroSigns.induct with
  | case1 high low rest ih => rw [zeroSigns, List.length_cons, List.length_cons, ih]; rfl
  | case2 cs h => rw [zeroSigns.eq_2 cs h]

/-- Digits are no signs. -/
theorem zeroSigns_of_isHex (h : isHex cs = true) : zeroSigns cs = cs := by
  induction cs using zeroSigns.induct with
  | case1 high low rest ih =>
    rw [isHex_cons_cons, Bool.and_eq_true, Bool.and_eq_true] at h
    have hsign : high ≠ '+' := by
      rintro rfl
      cases h.1.1
    rw [zeroSigns, zeroSign, if_neg hsign, ih h.2]
  | case2 cs hcs => rw [zeroSigns.eq_2 cs hcs]

theorem length_of_hexDecode? {bytes : List UInt8} (h : hexDecode? cs = some bytes) :
    cs.length = 2 * bytes.length := by
  have hlength := congrArg List.length (hexDecode?_eq_some_iff.1 h)
  rw [List.length_map, length_zeroSigns] at hlength
  rw [hlength, Value.length_hexEncode]

/-- A text that equals the digits of some bytes up to case is hexadecimal. -/
theorem isHex_of_equalIgnoringCase {bytes : List UInt8} (hdigits : ∀ c ∈ cs, isHexDigit c = true)
    (h : EqualIgnoringCase cs (hexEncode bytes)) : isHex cs = true := by
  have hlength : cs.length = (hexEncode bytes).length := by
    simpa using congrArg List.length h
  rw [isHex, List.all_eq_true.2 hdigits, hlength, Value.length_hexEncode, Nat.mul_mod_right]
  rfl

/-- **Where digits are told from other texts**: where no pair has a sign. -/
theorem hexDecode?_iff_digits_iff (cs : List Char) :
    (∀ bytes, hexDecode? cs = some bytes ↔
      (∀ c ∈ cs, isHexDigit c = true) ∧ EqualIgnoringCase cs (hexEncode bytes)) ↔
      isSignedHex cs = false := by
  constructor
  · intro h
    rw [← Bool.not_eq_true, isSignedHex, Bool.and_eq_true, ← isSome_hexDecode?]
    rintro ⟨hdigits, hread⟩
    obtain ⟨bytes, hbytes⟩ := Option.isSome_iff_exists.1 hread
    obtain ⟨hall, hequal⟩ := (h bytes).1 hbytes
    rw [isHex_of_equalIgnoringCase hall hequal] at hdigits
    cases hdigits
  · intro hsigned bytes
    cases hhex : isHex cs with
    | true =>
      have hall : ∀ c ∈ cs, isHexDigit c = true :=
        List.all_eq_true.1 (Bool.and_eq_true_iff.1 hhex).1
      rw [hexDecode?_eq_some_iff, zeroSigns_of_isHex hhex, EqualIgnoringCase,
        map_toLower_hexEncode]
      exact ⟨fun h => ⟨hall, h⟩, fun h => h.2⟩
    | false =>
      rw [isSignedHex, hhex, Bool.not_false, Bool.true_and, ← isSome_hexDecode?] at hsigned
      rw [Option.isSome_eq_false_iff, Option.isNone_iff_eq_none] at hsigned
      constructor
      · intro h
        rw [hsigned] at h
        cases h
      · rintro ⟨hall, hequal⟩
        rw [isHex_of_equalIgnoringCase hall hequal] at hhex
        cases hhex

/-! ## 4. Texts as bytes -/

theorem length_le_utf8ByteSize (cs : List Char) : cs.length ≤ (String.ofList cs).utf8ByteSize := by
  induction cs with
  | nil => exact Nat.zero_le _
  | cons c cs ih =>
    have hc : 0 < c.utf8Size := c.utf8Size_pos
    have hsize : (String.ofList (c :: cs)).utf8ByteSize =
        c.utf8Size + (String.ofList cs).utf8ByteSize := by
      rw [String.ofList_cons, String.utf8ByteSize_append]
      simp
    rw [hsize, List.length_cons]
    omega

theorem length_le_length_utf8 (s : String) : s.toList.length ≤ (utf8 s).length := by
  have hbytes : (utf8 s).length = s.utf8ByteSize := by simp [utf8]
  have htext := length_le_utf8ByteSize s.toList
  rwa [String.ofList_toList, ← hbytes] at htext

end Text

namespace Value

open Text

theorem coerce_bytes_text {s : String} {b : List UInt8} (h : bytesOfText? s = some b) :
    (text s).coerce .bytes = .ok (bytes b) := by
  have hread : (text s).toBytes? = some b := h
  rw [coerce_eq_ok_iff_convert? Value.noConfusion fun _ => DataType.noConfusion, convert?, hread]
  rfl

/-- A text without the mark for hexadecimal is what it spells, else itself. -/
theorem bytesOfText?_of_unmarked {s : String} (h : ¬['\\', 'x'] <+: s.toList) :
    bytesOfText? s = some ((hexDecode? s.toList).getD (utf8 s)) := by
  unfold bytesOfText?
  split
  · next hex heq => exact absurd ⟨hex, heq.symm⟩ h
  · rfl

end Value

open Text in
/-- **Texts in hexadecimal are those of digits, signs apart.** Bytes are read from a text exactly if
    it equals their digits up to case, once the signs of its pairs are zeros. So digits are told
    from all other texts if and only if no pair has a sign, and a text that is neither marked nor
    made of pairs of digits stands for its own bytes with the same exception: pairs with signs are
    read as bytes, half as many as the text has characters. -/
theorem hex_text_iff_unsigned (s : String) :
    (∀ bytes, hexDecode? s.toList = some bytes ↔
      (∀ c ∈ zeroSigns s.toList, isHexDigit c = true) ∧
        EqualIgnoringCase (zeroSigns s.toList) (hexEncode bytes)) ∧
    ((∀ bytes, hexDecode? s.toList = some bytes ↔
      (∀ c ∈ s.toList, isHexDigit c = true) ∧ EqualIgnoringCase s.toList (hexEncode bytes)) ↔
        isSignedHex s.toList = false) ∧
    (¬['\\', 'x'] <+: s.toList → isHex s.toList = false →
      ((Value.text s).coerce .bytes = .ok (.bytes (utf8 s)) ↔ isSignedHex s.toList = false) ∧
      (isSignedHex s.toList = true → ∃ bytes, (Value.text s).coerce .bytes = .ok (.bytes bytes) ∧
        hexDecode? s.toList = some bytes ∧ s.toList.length = 2 * bytes.length)) := by
  refine ⟨fun bytes => ?_, hexDecode?_iff_digits_iff s.toList, fun hunmarked hhex => ?_⟩
  · rw [hexDecode?_eq_some_iff, EqualIgnoringCase, map_toLower_hexEncode]
    refine ⟨fun h => ⟨?_, h⟩, fun h => h.2⟩
    have hread : isHex (zeroSigns s.toList) = true := by
      rw [← isSome_hexDecode?, hexDecode?_eq_some_iff.2 h]
      rfl
    exact List.all_eq_true.1 (Bool.and_eq_true_iff.1 hread).1
  · have hsigned : isSignedHex s.toList = (hexDecode? s.toList).isSome := by
      rw [isSignedHex, hhex, isSome_hexDecode?]
      rfl
    have hbytes := Value.coerce_bytes_text (Value.bytesOfText?_of_unmarked hunmarked)
    rw [hsigned, hbytes]
    cases hread : hexDecode? s.toList with
    | none => simp
    | some bytes =>
      have hlength := length_of_hexDecode? hread
      refine ⟨?_, fun _ => ⟨bytes, rfl, rfl, hlength⟩⟩
      -- the bytes that are read are too few to be those of the text
      have hne : bytes ≠ utf8 s := by
        rintro rfl
        have hle := length_le_length_utf8 s
        have hnil : s.toList = [] := List.eq_nil_of_length_eq_zero (by omega)
        rw [hnil] at hhex
        cases hhex
      simpa using hne

open Text in
/-- The text `+F0a` is read as two bytes, though it is not made of digits; `é` and `-f` stand for
    themselves. -/
theorem hex_text_iff_unsigned_here :
    ((Value.text "+F0a").coerce .bytes = .ok (.bytes [0x0f, 0x0a]) ∧
      (Value.text "+F0a").coerce .bytes ≠ .ok (.bytes (utf8 "+F0a"))) ∧
    (Value.text "é").coerce .bytes = .ok (.bytes [0xc3, 0xa9]) ∧
    (Value.text "-f").coerce .bytes = .ok (.bytes [0x2d, 0x66]) := by
  have hsigned := (hex_text_iff_unsigned "+F0a").2.2 (by decide) (by decide)
  have hletter := (hex_text_iff_unsigned "é").2.2 (by decide) (by decide)
  have hminus := (hex_text_iff_unsigned "-f").2.2 (by decide) (by decide)
  refine ⟨⟨?_, fun h => ?_⟩, hletter.1.2 (by decide), hminus.1.2 (by decide)⟩
  · obtain ⟨bytes, hcoerce, hread, -⟩ := hsigned.2 (by decide)
    have hvalue : hexDecode? "+F0a".toList = some [0x0f, 0x0a] := by decide
    rw [hcoerce, Option.some.inj (hread.symm.trans hvalue)]
  · have hfalse := hsigned.1.1 h
    cases (show isSignedHex "+F0a".toList = true by decide).symm.trans hfalse

end QueryPlan
