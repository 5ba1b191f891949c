import QueryPlan.Proofs.Json.Numbers

/-!
# JSON text that is read back

The compact form of a value is read as that value (`Json.read_render`), if its values are nested no
deeper than the reader goes and its doubles are read back. Repeated names make no difference here:
the reader keeps them, and it is `Json.settle` that removes them.

The reader counts its steps. Every value has a character of its own, and at most three steps are
taken for each.
-/

namespace QueryPlan

namespace Json

open Numeral

variable {rest : List Char}

variable {fields : List (String × Json)} {items : List Json} {steps : Nat} {c : Char}

/-! ## 1. Strings -/

theorem hexValue?_hexDigit {n : Nat} (h : n < 16) : Text.hexValue? (Text.hexDigit n) = some n := by
  have hall : ∀ m : Fin 16, Text.hexValue? (Text.hexDigit m) = some m.val := by decide
  exact hall ⟨n, h⟩

theorem readEscape_hexEscape (h : c.toNat < 0x20) (tail : List Char) :
    readEscape ('u' :: '0' :: '0' :: Text.hexDigit (c.toNat / 16) :: Text.hexDigit (c.toNat % 16) ::
      tail) = .ok (c, tail) := by
  have hhex : readHex ('0' :: '0' :: Text.hexDigit (c.toNat / 16) :: Text.hexDigit (c.toNat % 16) ::
      tail) = .ok (c.toNat, tail) := by
    have hzero : Text.hexValue? '0' = some 0 := rfl
    rw [readHex, hzero, hexValue?_hexDigit (by omega), hexValue?_hexDigit (by omega)]
    dsimp only
    rw [show ((0 * 16 + 0) * 16 + c.toNat / 16) * 16 + c.toNat % 16 = c.toNat by omega]
  have hlow : ¬(0xDC00 ≤ c.toNat && c.toNat ≤ 0xDFFF) = true := by simp; omega
  have hhigh : ¬(0xD800 ≤ c.toNat && c.toNat ≤ 0xDBFF) = true := by simp; omega
  show (readHex _ >>= _) = _
  rw [hhex]
  refine (if_neg hlow).trans ((if_neg hhigh).trans ?_)
  rw [Char.ofNat_toNat]
  rfl

/-- A character that stands for itself. -/
theorem readString_plain {read tail : List Char} (hquote : c ≠ '"') (hslash : c ≠ '\\')
    (hcontrol : ¬c.toNat < 0x20) :
    readString (steps + 1) read (c :: tail) = readString steps (c :: read) tail := by
  rw [readString.eq_def]
  dsimp only
  split
  · rename_i heq
    cases heq
  · rename_i heq
    cases heq
    exact absurd rfl hquote
  · rename_i heq
    cases heq
    exact absurd rfl hslash
  · rename_i heq
    cases heq
    exact if_neg hcontrol

/-- A character behind a backslash. -/
theorem readString_escaped {read behind tail : List Char} (h : readEscape behind = .ok (c, tail)) :
    readString (steps + 1) read ('\\' :: behind) = readString steps (c :: read) tail := by
  show (readEscape behind >>= fun p => readString steps (p.1 :: read) p.2) = _
  rw [h]
  rfl

/-- A character of a string is read in one step. -/
theorem readString_escape {read : List Char} (c : Char) (tail : List Char) :
    readString (steps + 1) read (escape c ++ tail) = readString steps (c :: read) tail := by
  unfold escape
  simp only [beq_iff_eq]
  split
  · subst c
    exact readString_escaped rfl
  rename_i hquote
  split
  · subst c
    exact readString_escaped rfl
  rename_i hslash
  iterate 5
    split
    · subst c
      exact readString_escaped rfl
  split
  · exact readString_escaped (readEscape_hexEscape ‹_› tail)
  · exact readString_plain hquote hslash ‹_›

theorem readString_flatMap {read cs : List Char} (h : cs.length < steps) :
    readString steps read (cs.flatMap escape ++ '"' :: rest) =
      .ok (String.ofList (read.reverse ++ cs), rest) := by
  induction cs generalizing steps read with
  | nil =>
    obtain ⟨steps, rfl⟩ : ∃ n, steps = n + 1 := ⟨steps - 1, by omega⟩
    rw [List.append_nil]
    rfl
  | cons c cs ih =>
    obtain ⟨steps, rfl⟩ : ∃ n, steps = n + 1 := ⟨steps - 1, by omega⟩
    rw [List.flatMap_cons, List.append_assoc, readString_escape, ih (by simpa using h),
      List.reverse_cons, List.append_assoc, List.singleton_append]

theorem length_le_flatMap_escape (cs : List Char) : cs.length ≤ (cs.flatMap escape).length := by
  have hescape : ∀ c, 1 ≤ (escape c).length := by
    intro c
    unfold escape hexEscape
    repeat' split
    all_goals simp
  induction cs with
  | nil => exact Nat.le_refl 0
  | cons c cs ih =>
    have := hescape c
    rw [List.flatMap_cons, List.length_append, List.length_cons]
    omega

/-- **Strings are read back.** -/
theorem readText_escaped (s : String) :
    readText (s.toList.flatMap escape ++ '"' :: rest) = .ok (s, rest) := by
  have hsteps : s.toList.length < (s.toList.flatMap escape ++ '"' :: rest).length + 1 := by
    have := length_le_flatMap_escape s.toList
    rw [List.length_append]
    omega
  rw [readText, readString_flatMap hsteps, List.reverse_nil, List.nil_append, String.ofList_toList]

/-! ## 2. Depth and doubles -/

mutual

/-- The greatest number of arrays and objects that stand inside each other. -/
def nesting : Json → Nat
  | array items => nestingItems items + 1
  | object fields => nestingFields fields + 1
  | null => 0
  | bool _ => 0
  | number _ => 0
  | text _ => 0

def nestingItems : List Json → Nat
  | [] => 0
  | item :: rest => max item.nesting (nestingItems rest)

def nestingFields : List (String × Json) → Nat
  | [] => 0
  | (_, value) :: rest => max value.nesting (nestingFields rest)

end

mutual

/-- The doubles of a value. -/
def doubles : Json → List Double
  | array items => doublesItems items
  | object fields => doublesFields fields
  | null => []
  | bool _ => []
  | number (.integer _ _) => []
  | number (.double x _) => [x]
  | text _ => []

def doublesItems : List Json → List Double
  | [] => []
  | item :: rest => item.doubles ++ doublesItems rest

def doublesFields : List (String × Json) → List Double
  | [] => []
  | (_, value) :: rest => value.doubles ++ doublesFields rest

end

/-! ## 3. How texts go on -/

/-- A character with which a value can start. -/
def opensValue (c : Char) : Bool :=
  !isSpace c && c != ']' && c != '\x7d'

theorem opensValue_of_isDigit (h : isDigit c = true) : opensValue c = true := by
  have hlist : c ≠ ']' := by
    rintro rfl
    exact absurd h (by decide)
  have hobject : c ≠ '\x7d' := by
    rintro rfl
    exact absurd h (by decide)
  rw [opensValue, isSpace_of_isDigit h, bne_iff_ne.2 hlist, bne_iff_ne.2 hobject]
  rfl

theorem SignedText.opens {cs body : List Char} {negative : Bool} (h : SignedText cs negative body) :
    ∃ c behind, cs = c :: behind ∧ opensValue c = true := by
  obtain ⟨c, behind, rfl, hc⟩ := h.head
  cases negative with
  | true => exact ⟨'-', c :: behind, h.eq, rfl⟩
  | false => exact ⟨c, behind, h.eq, opensValue_of_isDigit hc⟩

/-- The text of a value starts with a character that no blank, and no end of a list, is. -/
theorem opens_chars (j : Json) : ∃ c behind, j.chars = c :: behind ∧ opensValue c = true := by
  cases j with
  | bool b => cases b <;> exact ⟨_, _, rfl, rfl⟩
  | number n =>
    cases n with
    | integer n h => exact (signedText_integerDigits n).opens
    | double x h =>
      obtain ⟨body, htext⟩ := signedText_spell h
      exact htext.opens
  | null | text s | array items | object fields => exact ⟨_, _, rfl, rfl⟩

/-- What follows an item in its list. -/
def itemsBehind : List Json → List Char
  | [] => []
  | item :: rest => ',' :: charsItems (item :: rest)

theorem charsItems_cons (item : Json) (rest : List Json) :
    charsItems (item :: rest) = item.chars ++ itemsBehind rest := by
  cases rest with
  | nil => rw [itemsBehind, List.append_nil, charsItems]
  | cons next rest => rfl

/-- What follows a field in its object. -/
def fieldsBehind : List (String × Json) → List Char
  | [] => []
  | field :: rest => ',' :: charsFields (field :: rest)

theorem charsFields_cons (name : String) (value : Json) (rest : List (String × Json)) :
    charsFields ((name, value) :: rest) =
      '"' :: (name.toList.flatMap escape ++ '"' :: ':' :: (value.chars ++ fieldsBehind rest)) := by
  cases rest <;> simp [charsFields, fieldsBehind, quoted]

theorem length_itemsBehind (h : items ≠ []) :
    (itemsBehind items).length = (charsItems items).length + 1 := by
  cases items with
  | nil => exact absurd rfl h
  | cons item items => rfl

theorem length_fieldsBehind (h : fields ≠ []) :
    (fieldsBehind fields).length = (charsFields fields).length + 1 := by
  cases fields with
  | nil => exact absurd rfl h
  | cons field fields => rfl

theorem endsNumber_itemsBehind (items : List Json) :
    EndsNumber (itemsBehind items ++ ']' :: rest) := by
  cases items <;> exact ⟨.cons rfl, rfl⟩

theorem endsNumber_fieldsBehind (fields : List (String × Json)) :
    EndsNumber (fieldsBehind fields ++ '\x7d' :: rest) := by
  cases fields <;> exact ⟨.cons rfl, rfl⟩

/-! ## 4. Values -/

section Steps

variable {steps depth : Nat} {c : Char} {cs : List Char}

theorem skipSpace_cons (hc : opensValue c = true) : skipSpace (c :: cs) = c :: cs := by
  refine List.dropWhile_cons_of_neg fun hspace => ?_
  rw [opensValue, hspace] at hc
  cases hc

theorem readItems_end (first : Bool) :
    readItems (steps + 1) depth first (']' :: cs) = .ok ([], cs) := by
  rw [readItems.eq_def]
  rfl

theorem readItems_first (hc : opensValue c = true) :
    readItems (steps + 1) depth true (c :: cs) = readItem steps depth (c :: cs) := by
  rw [readItems.eq_def]
  dsimp only
  rw [skipSpace_cons hc]
  split
  · rename_i heq
    cases heq
  · rename_i heq
    cases heq
    cases hc
  · rename_i heq
    cases heq
    rfl

theorem readItems_comma (hc : opensValue c = true) :
    readItems (steps + 1) depth false (',' :: c :: cs) = readItem steps depth (c :: cs) := by
  have hskip : skipSpace (',' :: c :: cs) = ',' :: c :: cs := rfl
  rw [readItems.eq_def]
  dsimp only
  rw [hskip]
  split
  · rename_i heq
    cases heq
  · rename_i heq
    cases heq
  · rename_i heq
    cases heq
    rw [if_neg Bool.false_ne_true, if_pos (beq_self_eq_true ','), skipSpace_cons hc]
    split
    · rename_i heq
      cases heq
    · rename_i heq
      cases heq
      cases hc
    · rfl

theorem readFields_end (first : Bool) :
    readFields (steps + 1) depth first ('\x7d' :: cs) = .ok ([], cs) := by
  rw [readFields.eq_def]
  rfl

theorem readFields_first :
    readFields (steps + 1) depth true ('"' :: cs) = readField steps depth cs := by
  rw [readFields.eq_def]
  rfl

theorem readFields_comma :
    readFields (steps + 1) depth false (',' :: '"' :: cs) = readField steps depth cs := by
  rw [readFields.eq_def]
  rfl

theorem readItem_of_value {item : Json} {left : List Char}
    (hvalue : readValue steps depth cs = .ok (item, left))
    (hitems : readItems steps depth false left = .ok (items, rest)) :
    readItem (steps + 1) depth cs = .ok (item :: items, rest) := by
  rw [readItem.eq_def]
  dsimp only
  rw [hvalue]
  show (readItems steps depth false left >>= _) = _
  rw [hitems]
  rfl

theorem readField_of_value {name : String} {value : Json} {behind left : List Char}
    (hname : readText cs = .ok (name, ':' :: behind))
    (hvalue : readValue steps depth behind = .ok (value, left))
    (hfields : readFields steps depth false left = .ok (fields, rest)) :
    readField (steps + 1) depth cs = .ok ((name, value) :: fields, rest) := by
  rw [readField.eq_def]
  dsimp only
  rw [hname]
  show (readValue steps depth behind >>= _) = _
  rw [hvalue]
  show (readFields steps depth false left >>= _) = _
  rw [hfields]
  rfl

theorem readValue_array (h : readItems steps depth true cs = .ok (items, rest)) :
    readValue (steps + 1) (depth + 1) ('[' :: cs) = .ok (.array items, rest) := by
  rw [readValue.eq_def]
  show (readItems steps depth true cs >>= _) = _
  rw [h]
  rfl

theorem readValue_object (h : readFields steps depth true cs = .ok (fields, rest)) :
    readValue (steps + 1) (depth + 1) ('\x7b' :: cs) = .ok (.object fields, rest) := by
  rw [readValue.eq_def]
  show (readFields steps depth true cs >>= _) = _
  rw [h]
  rfl

theorem readValue_text (s : String) :
    readValue (steps + 1) depth (quoted s ++ rest) = .ok (.text s, rest) := by
  have hquoted : quoted s ++ rest = '"' :: (s.toList.flatMap escape ++ '"' :: rest) := by
    simp [quoted]
  rw [hquoted, readValue.eq_def]
  show (readText _ >>= _) = _
  rw [readText_escaped]
  rfl

end Steps

theorem length_chars_pos (j : Json) : 0 < j.chars.length := by
  obtain ⟨c, behind, hj, -⟩ := opens_chars j
  rw [hj]
  exact Nat.succ_pos _

/-- The items of a list, behind its start and behind another item. -/
theorem readItems_of_readItem {depth : Nat} (hne : items ≠ [])
    (h : readItem steps depth (charsItems items ++ ']' :: rest) = .ok (items, rest)) :
    readItems (steps + 1) depth true (charsItems items ++ ']' :: rest) = .ok (items, rest) ∧
      readItems (steps + 1) depth false (itemsBehind items ++ ']' :: rest) = .ok (items, rest) := by
  cases items with
  | nil => exact absurd rfl hne
  | cons item items =>
    obtain ⟨c, behind, hchars, hc⟩ := opens_chars item
    rw [itemsBehind]
    rw [charsItems_cons, hchars] at h ⊢
    exact ⟨(readItems_first hc).trans h, (readItems_comma hc).trans h⟩

theorem readFields_of_readField {depth : Nat} (hne : fields ≠ [])
    (h : readField steps depth ((charsFields fields).tail ++ '\x7d' :: rest) = .ok (fields, rest)) :
    readFields (steps + 1) depth true (charsFields fields ++ '\x7d' :: rest) = .ok (fields, rest) ∧
      readFields (steps + 1) depth false (fieldsBehind fields ++ '\x7d' :: rest) =
        .ok (fields, rest) := by
  cases fields with
  | nil => exact absurd rfl hne
  | cons field fields =>
    obtain ⟨name, value⟩ := field
    rw [fieldsBehind]
    rw [charsFields_cons] at h ⊢
    exact ⟨readFields_first.trans h, readFields_comma.trans h⟩

mutual

/-- **Values are read back**, whatever follows, with three steps for each character. -/
theorem readValue_chars : (j : Json) → ∀ {steps depth : Nat} {rest : List Char},
    3 * j.chars.length ≤ steps + 1 → j.nesting ≤ depth → (∀ x ∈ j.doubles, x.ReadsBack) →
    EndsNumber rest → readValue steps depth (j.chars ++ rest) = .ok (j, rest)
  | j, 0, depth, rest, hsteps, _, _, _ => by
    have := j.length_chars_pos
    omega
  | .null, steps + 1, depth, rest, _, _, _, _ => by
    rw [readValue.eq_def]
    rfl
  | .bool true, steps + 1, depth, rest, _, _, _, _ => by
    rw [readValue.eq_def]
    rfl
  | .bool false, steps + 1, depth, rest, _, _, _, _ => by
    rw [readValue.eq_def]
    rfl
  | .number (.integer n h), steps + 1, depth, rest, _, _, _, hends => readValue_integer h hends
  | .number (.double x h), steps + 1, depth, rest, _, _, hback, hends =>
    readValue_double h (hback x List.mem_cons_self) hends
  | .text s, steps + 1, depth, rest, _, _, _, _ => readValue_text s
  | .array items, steps + 1, depth, rest, hsteps, hdepth, hback, _ => by
    rw [chars, List.length_append, List.length_cons] at hsteps
    rw [nesting] at hdepth
    obtain ⟨depth, rfl⟩ : ∃ n, depth = n + 1 := ⟨depth - 1, by omega⟩
    obtain ⟨steps, rfl⟩ : ∃ n, steps = n + 1 := ⟨steps - 1, by omega⟩
    rw [chars, List.append_assoc]
    refine readValue_array ?_
    by_cases hne : items = []
    · subst hne
      exact readItems_end true
    · exact (readItems_of_readItem hne
        (readItem_chars items hne (by omega) (by omega) hback)).1
  | .object fields, steps + 1, depth, rest, hsteps, hdepth, hback, _ => by
    rw [chars, List.length_append, List.length_cons] at hsteps
    rw [nesting] at hdepth
    obtain ⟨depth, rfl⟩ : ∃ n, depth = n + 1 := ⟨depth - 1, by omega⟩
    obtain ⟨steps, rfl⟩ : ∃ n, steps = n + 1 := ⟨steps - 1, by omega⟩
    rw [chars, List.append_assoc]
    refine readValue_object ?_
    by_cases hne : fields = []
    · subst hne
      exact readFields_end true
    · exact (readFields_of_readField hne
        (readField_chars fields hne (by omega) (by omega) hback)).1

theorem readItem_chars : (items : List Json) → items ≠ [] → ∀ {steps depth : Nat}
    {rest : List Char}, 3 * (charsItems items).length ≤ steps → nestingItems items ≤ depth →
    (∀ x ∈ doublesItems items, x.ReadsBack) →
    readItem steps depth (charsItems items ++ ']' :: rest) = .ok (items, rest)
  | [], hne, _, _, _, _, _, _ => absurd rfl hne
  | item :: items, _, steps, depth, rest, hsteps, hdepth, hback => by
    have hpos := item.length_chars_pos
    rw [charsItems_cons, List.length_append] at hsteps
    rw [nestingItems] at hdepth
    rw [doublesItems, List.forall_mem_append] at hback
    obtain ⟨steps, rfl⟩ : ∃ n, steps = n + 2 := ⟨steps - 2, by omega⟩
    rw [charsItems_cons, List.append_assoc]
    refine readItem_of_value (readValue_chars item (by omega) (by omega) hback.1
      (endsNumber_itemsBehind items)) ?_
    by_cases hne : items = []
    · subst hne
      exact readItems_end false
    · have hlength := length_itemsBehind hne
      exact (readItems_of_readItem hne
        (readItem_chars items hne (by omega) (by omega) hback.2)).2

theorem readField_chars : (fields : List (String × Json)) → fields ≠ [] → ∀ {steps depth : Nat}
    {rest : List Char}, 3 * (charsFields fields).length ≤ steps → nestingFields fields ≤ depth →
    (∀ x ∈ doublesFields fields, x.ReadsBack) →
    readField steps depth ((charsFields fields).tail ++ '\x7d' :: rest) = .ok (fields, rest)
  | [], hne, _, _, _, _, _, _ => absurd rfl hne
  | (name, value) :: fields, _, steps, depth, rest, hsteps, hdepth, hback => by
    have hpos := value.length_chars_pos
    rw [charsFields_cons] at hsteps ⊢
    simp only [List.length_cons, List.length_append] at hsteps
    rw [nestingFields] at hdepth
    rw [doublesFields, List.forall_mem_append] at hback
    obtain ⟨steps, rfl⟩ : ∃ n, steps = n + 2 := ⟨steps - 2, by omega⟩
    rw [List.tail_cons, List.append_assoc, List.cons_append, List.cons_append, List.append_assoc]
    refine readField_of_value (readText_escaped name) (readValue_chars value (by omega) (by omega)
      hback.1 (endsNumber_fieldsBehind fields)) ?_
    by_cases hne : fields = []
    · subst hne
      exact readFields_end false
    · have hlength := length_fieldsBehind hne
      exact (readFields_of_readField hne
        (readField_chars fields hne (by omega) (by omega) hback.2)).2

end

/-! ## 5. Texts -/

/-- **JSON text is read back.** -/
theorem read_render {j : Json} (hdepth : j.nesting ≤ maxDepth)
    (hback : ∀ x ∈ j.doubles, x.ReadsBack) : read j.render = .ok j := by
  have hvalue := readValue_chars j (by omega : 3 * j.chars.length ≤ 3 * j.chars.length + 3 + 1)
    hdepth hback .nil
  rw [List.append_nil] at hvalue
  have hall : readAll j.chars = .ok j := by
    rw [readAll, hvalue]
    rfl
  rw [read, render, String.toList_ofList, hall]

end Json

end QueryPlan
