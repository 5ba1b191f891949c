import QueryPlan.Decode.Nested

/-!
# The extent of JSON texts

A value is no larger than the text that it is read from (`Json.size_le_of_parse`): every value has a
character of its own, and a character of a string takes one character of the text at least. So no
text is the JSON form of a string that holds the text itself.

A reading is followed by the number of characters that it uses up; `Spends` has one rule for each
way in which readings are put together.
-/

namespace QueryPlan

namespace Json

/-! ## 1. Characters that are used up -/

section Rules

variable {α β : Type} {n m : Nat} {cost : α → Nat} {r : Except Fault (α × List Char)}

/-- A reading of `n` characters that uses up as many as its value costs, if it succeeds. -/
def Spends (n : Nat) (cost : α → Nat) (r : Except Fault (α × List Char)) : Prop :=
  ∀ a rest, r = .ok (a, rest) → cost a + rest.length ≤ n

namespace Spends

theorem error (fault : Fault) : Spends n cost (.error fault) :=
  fun _ _ h => nomatch h

theorem ok {a : α} {rest : List Char} (h : cost a + rest.length ≤ n) :
    Spends n cost (.ok (a, rest)) := by
  intro b left heq
  cases heq
  exact h

theorem bind {cost' : β → Nat} {f : α × List Char → Except Fault (β × List Char)}
    (hr : Spends m cost r)
    (hf : ∀ a rest, cost a + rest.length ≤ m → Spends n cost' (f (a, rest))) :
    Spends n cost' (r >>= f) := by
  cases r with
  | error fault => exact .error fault
  | ok p => exact hf p.1 p.2 (hr p.1 p.2 rfl)

theorem mono (hr : Spends m cost r) (h : m ≤ n) : Spends n cost r :=
  fun a rest heq => Nat.le_trans (hr a rest heq) h

end Spends

end Rules

theorem length_skipSpace_le (cs : List Char) : (skipSpace cs).length ≤ cs.length :=
  (List.dropWhile_suffix isSpace).length_le

theorem length_of_skipSpace {cs rest : List Char} {c : Char} (h : skipSpace cs = c :: rest) :
    rest.length + 1 ≤ cs.length := by
  have hle := length_skipSpace_le cs
  rw [h] at hle
  exact hle

theorem spends_readWord (word cs : List Char) :
    Spends cs.length (fun _ => 0) (readWord word cs) := by
  induction word generalizing cs with
  | nil => exact .ok (by simp)
  | cons w word ih =>
    cases cs with
    | nil => exact .error _
    | cons c cs =>
      rw [readWord]
      split
      · exact (ih cs).mono (Nat.le_succ _)
      · exact .error _

/-! ## 2. Strings -/

theorem spends_readHex (cs : List Char) : Spends cs.length (fun _ => 4) (readHex cs) := by
  unfold readHex
  split
  · split
    · exact .ok (by simp only [List.length_cons]; omega)
    · exact .error _
  · split
    · exact .error _
    · exact .error _

theorem spends_readLowSurrogate (high : Nat) (cs : List Char) :
    Spends cs.length (fun _ => 1) (readLowSurrogate high cs) := by
  unfold readLowSurrogate
  split
  · exact .error _
  · exact .error _
  · refine (spends_readHex _).bind fun low rest hrest => ?_
    dsimp only
    split
    · exact .ok (by simp only [List.length_cons]; omega)
    · exact .error _
  · exact .error _
  · exact .error _

theorem spends_readEscape (cs : List Char) : Spends cs.length (fun _ => 1) (readEscape cs) := by
  unfold readEscape
  split
  · exact .error _
  · refine (spends_readHex _).bind fun unit rest hrest => ?_
    dsimp only
    split
    · exact .error _
    · split
      · exact (spends_readLowSurrogate unit rest).mono (by simp only [List.length_cons]; omega)
      · exact .ok (by simp only [List.length_cons]; omega)
  · split
    case h_9 => exact .error _
    all_goals exact .ok (by simp only [List.length_cons]; omega)

/-- A character of a string takes a character of the text. -/
theorem spends_readString (steps : Nat) (read cs : List Char) :
    Spends (read.length + cs.length) (fun s => s.length + 1) (readString steps read cs) := by
  -- What has been read already moves from the text to the value, so the two count together.
  induction steps generalizing read cs with
  | zero => exact .error _
  | succ steps ih =>
    rw [readString.eq_def]
    dsimp only
    split
    · exact .error _
    · refine .ok ?_
      rw [String.length_ofList, List.length_reverse, List.length_cons]
      omega
    · refine (spends_readEscape _).bind fun c rest hrest => ?_
      exact (ih (c :: read) rest).mono (by simp only [List.length_cons]; omega)
    · split
      · exact .error _
      · exact (ih _ _).mono (by simp only [List.length_cons]; omega)

theorem spends_readText (cs : List Char) :
    Spends cs.length (fun s => s.length + 1) (readText cs) :=
  (spends_readString _ [] cs).mono (by simp)

/-! ## 3. Numbers -/

theorem size_ofDouble (x : Double) : (ofDouble x).size = 1 := by
  unfold ofDouble
  split <;> rfl

theorem size_ofInt (n : Int) : (ofInt n).size = 1 := by
  unfold ofInt
  split <;> rfl

theorem length_spanDigits (cs : List Char) :
    (Numeral.spanDigits cs).2.length ≤ cs.length :=
  (List.dropWhile_suffix Numeral.isDigit).length_le

theorem spends_ofScaled (negative : Bool) (s : Significand) (rest : List Char) :
    Spends (rest.length + 1) size (ofScaled negative s rest) := by
  unfold ofScaled
  split
  · exact .ok (by rw [size_ofDouble]; omega)
  · exact .error _

/-- What is left behind the digits of an exponent, or behind those that are too many. -/
theorem length_exponentDigits (value : Nat) (cs : List Char) :
    (∀ v rest, exponentDigits value cs = .ok (v, rest) → rest.length ≤ cs.length) ∧
      ∀ rest, exponentDigits value cs = .error rest → rest.length ≤ cs.length := by
  induction cs generalizing value with
  | nil =>
    constructor
    · rintro v rest ⟨⟩
      exact Nat.le_refl _
    · rintro rest ⟨⟩
  | cons c cs ih =>
    rw [exponentDigits]
    dsimp only
    split
    · split
      · constructor
        · rintro v rest ⟨⟩
        · rintro rest ⟨⟩
          exact Nat.le_succ _
      · constructor
        · exact fun v rest h => Nat.le_succ_of_le ((ih _).1 v rest h)
        · exact fun rest h => Nat.le_succ_of_le ((ih _).2 rest h)
    · constructor
      · rintro v rest ⟨⟩
        exact Nat.le_refl _
      · rintro rest ⟨⟩

theorem length_splitSign (cs : List Char) : (Numeral.splitSign cs).2.length ≤ cs.length := by
  unfold Numeral.splitSign
  split
  · exact Nat.le_succ _
  · exact Nat.le_succ _
  · exact Nat.le_refl _

theorem spends_readExponent (negative : Bool) (s : Significand) (cs : List Char) :
    Spends (cs.length + 1) size (readExponent negative s cs) := by
  have hsign := length_splitSign cs
  unfold readExponent
  dsimp only
  split
  · exact .error _
  · split
    · split
      · next value rest hvalue =>
        have hrest := (length_exponentDigits 0 _).1 value rest hvalue
        exact (spends_ofScaled negative _ rest).mono (by omega)
      · next rest hvalue =>
        have hrest := (length_exponentDigits 0 _).2 rest hvalue
        have hdrop := (List.dropWhile_suffix Numeral.isDigit (l := rest)).length_le
        split
        · exact .error _
        · exact .ok (by rw [size_ofDouble]; omega)
    · exact .error _

theorem spends_readScaled (negative : Bool) (s : Significand) (cs : List Char) :
    Spends (cs.length + 1) size (readScaled negative s cs) := by
  unfold readScaled
  split
  · next behind =>
    have hspan := length_spanDigits behind
    dsimp only
    split
    · split
      · exact .error _
      · exact .error _
    · split
      · next c after hrest =>
        rw [hrest] at hspan
        simp only [List.length_cons] at hspan ⊢
        split
        · exact (spends_readExponent negative _ after).mono (by omega)
        · exact (spends_ofScaled negative _ _).mono (by rw [hrest, List.length_cons]; omega)
      · exact (spends_ofScaled negative _ _).mono (by rw [List.length_cons]; omega)
  · next c after _ =>
    split
    · exact (spends_readExponent negative s after).mono (by simp)
    · exact spends_ofScaled negative s _
  · exact spends_ofScaled negative s _

theorem spends_finish (negative : Bool) (digits rest : List Char) :
    Spends (rest.length + 1) size (readNumber.finish negative digits rest) := by
  unfold readNumber.finish
  dsimp only
  split
  · exact spends_readScaled negative _ rest
  · split
    · split
      · exact spends_ofScaled true _ rest
      · exact .ok (by rw [size_ofInt]; omega)
    · exact .ok (by rw [ofNat, size_ofInt]; omega)

/-- A number has a digit. -/
theorem spends_readNumber (negative : Bool) (cs : List Char) :
    Spends cs.length size (readNumber negative cs) := by
  unfold readNumber
  split
  · exact .error _
  · next c behind =>
    split
    · exact .error _
    · next hdigit =>
      cases hzero : c == '0' with
      | true =>
        -- A leading zero is a number of its own: a digit behind it is a fault.
        rw [if_pos rfl]
        dsimp only
        split
        · split
          · exact .error _
          · exact spends_finish negative _ _
        · exact spends_finish negative _ _
      | false =>
        have hspan : (Numeral.spanDigits (c :: behind)).2.length ≤ behind.length := by
          rw [Numeral.spanDigits, List.dropWhile_cons_of_pos (by simpa using hdigit)]
          exact (List.dropWhile_suffix Numeral.isDigit).length_le
        exact (spends_finish negative _ _).mono (Nat.succ_le_succ hspan)

/-! ## 4. Values -/

/-- What the readers of values use up within a number of steps. A list and an object have an end of
    their own. -/
structure ValuesSpend (steps : Nat) : Prop where
  value : ∀ depth cs, Spends cs.length size (readValue steps depth cs)
  items : ∀ depth first cs,
    Spends cs.length (fun items => sizeItems items + 1) (readItems steps depth first cs)
  item : ∀ depth cs, Spends cs.length (fun items => sizeItems items + 1) (readItem steps depth cs)
  fields : ∀ depth first cs,
    Spends cs.length (fun fields => sizeFields fields + 1) (readFields steps depth first cs)
  field : ∀ depth cs,
    Spends cs.length (fun fields => sizeFields fields + 1) (readField steps depth cs)

namespace ValuesSpend

variable {steps : Nat}

theorem readValue_succ (h : ValuesSpend steps) (depth : Nat) (cs : List Char) :
    Spends cs.length size (readValue (steps + 1) depth cs) := by
  rw [readValue.eq_def]
  dsimp only
  split
  · exact .error _
  · next c rest hskip =>
    have hlength := length_of_skipSpace hskip
    split
    case h_1 | h_2 | h_3 =>
      refine (spends_readWord _ rest).bind fun _ behind hbehind => .ok ?_
      simp only [size]
      omega
    · refine (spends_readText rest).bind fun s behind hbehind => .ok ?_
      simp only [size]
      omega
    · split
      · exact .error _
      · refine (h.items _ true rest).bind fun items behind hbehind => .ok ?_
        simp only [size]
        omega
    · split
      · exact .error _
      · refine (h.fields _ true rest).bind fun fields behind hbehind => .ok ?_
        simp only [size]
        omega
    · exact (spends_readNumber true rest).mono (by omega)
    · split
      · exact (spends_readNumber false (c :: rest)).mono hlength
      · exact .error _

theorem readItems_succ (h : ValuesSpend steps) (depth : Nat) (first : Bool) (cs : List Char) :
    Spends cs.length (fun items => sizeItems items + 1) (readItems (steps + 1) depth first cs) := by
  rw [readItems.eq_def]
  dsimp only
  split
  · exact .error _
  · next rest hskip =>
    have hlength := length_of_skipSpace hskip
    exact .ok (by rw [sizeItems]; omega)
  · next c rest _ hskip =>
    have hlength := length_of_skipSpace hskip
    split
    · exact (h.item depth (c :: rest)).mono hlength
    · split
      · split
        · exact .error _
        · exact .error _
        · have hskip := length_skipSpace_le rest
          exact (h.item depth (skipSpace rest)).mono (by omega)
      · exact .error _

theorem readItem_succ (h : ValuesSpend steps) (depth : Nat) (cs : List Char) :
    Spends cs.length (fun items => sizeItems items + 1) (readItem (steps + 1) depth cs) := by
  rw [readItem.eq_def]
  refine (h.value depth cs).bind fun item left hleft => ?_
  refine (h.items depth false left).bind fun items rest hrest => .ok ?_
  simp only [sizeItems]
  omega

theorem readFields_succ (h : ValuesSpend steps) (depth : Nat) (first : Bool) (cs : List Char) :
    Spends cs.length (fun fields => sizeFields fields + 1)
      (readFields (steps + 1) depth first cs) := by
  rw [readFields.eq_def]
  dsimp only
  split
  · exact .error _
  · next rest hskip =>
    have hlength := length_of_skipSpace hskip
    exact .ok (by rw [sizeFields]; omega)
  · next c rest _ hskip =>
    have hlength := length_of_skipSpace hskip
    split
    · split
      · exact (h.field depth rest).mono (by omega)
      · exact .error _
    · split
      · split
        · exact .error _
        · next behind hbehind =>
          have hfield := length_of_skipSpace hbehind
          exact (h.field depth behind).mono (by omega)
        · exact .error _
        · exact .error _
      · exact .error _

theorem readField_succ (h : ValuesSpend steps) (depth : Nat) (cs : List Char) :
    Spends cs.length (fun fields => sizeFields fields + 1) (readField (steps + 1) depth cs) := by
  rw [readField.eq_def]
  refine (spends_readText cs).bind fun name left hleft => ?_
  dsimp only
  split
  · exact .error _
  · next behind hbehind =>
    have hcolon := length_of_skipSpace hbehind
    refine (h.value depth behind).bind fun value rest hrest => ?_
    refine (h.fields depth false rest).bind fun fields rest hfields => .ok ?_
    simp only [sizeFields]
    omega
  · exact .error _

end ValuesSpend

/-- Every reader of values uses up as many characters as its value is large. -/
theorem valuesSpend (steps : Nat) : ValuesSpend steps := by
  -- The readers call one another, each with one step less: the induction is for all of them.
  induction steps with
  | zero =>
    refine ⟨fun depth cs => ?_, fun depth first cs => ?_, fun depth cs => ?_,
      fun depth first cs => ?_, fun depth cs => ?_⟩
    · rw [readValue]
      exact .error _
    · rw [readItems]
      exact .error _
    · rw [readItem]
      exact .error _
    · rw [readFields]
      exact .error _
    · rw [readField]
      exact .error _
  | succ steps ih =>
    exact ⟨ih.readValue_succ, ih.readItems_succ, ih.readItem_succ, ih.readFields_succ,
      ih.readField_succ⟩

/-! ## 5. Texts -/

theorem sizeFields_insert_le (fields : List (String × Json)) (name : String) (value : Json) :
    sizeFields (Fields.insert fields name value) ≤ sizeFields fields + value.size := by
  induction fields with
  | nil => simp [Fields.insert, sizeFields]
  | cons field rest ih =>
    obtain ⟨key, old⟩ := field
    rw [Fields.insert]
    split
    all_goals
      simp only [sizeFields]
      omega

theorem sizeFields_ofList_le (pairs : List (String × Json)) :
    sizeFields (Fields.ofList pairs) ≤ sizeFields pairs := by
  have hfold : ∀ fields : List (String × Json),
      sizeFields (pairs.foldl (fun fields pair => Fields.insert fields pair.1 pair.2) fields) ≤
        sizeFields fields + sizeFields pairs := by
    induction pairs with
    | nil => exact fun fields => Nat.le_refl _
    | cons pair rest ih =>
      intro fields
      have hinsert := sizeFields_insert_le fields pair.1 pair.2
      have hrest := ih (Fields.insert fields pair.1 pair.2)
      rw [List.foldl_cons, sizeFields]
      omega
  exact Nat.le_trans (hfold []) (by simp [sizeFields])

mutual

/-- Repeated names that are removed make a value smaller. -/
theorem size_settle_le : (j : Json) → j.settle.size ≤ j.size
  | .null => by simp [settle]
  | .bool _ => by simp [settle]
  | .number _ => by simp [settle]
  | .text _ => by simp [settle]
  | .array items => by
    simp only [settle, size]
    exact Nat.succ_le_succ (sizeItems_settle_le items)
  | .object fields => by
    simp only [settle, size]
    exact Nat.succ_le_succ
      (Nat.le_trans (sizeFields_ofList_le _) (sizeFields_settle_le fields))

theorem sizeItems_settle_le : (items : List Json) → sizeItems (settleItems items) ≤ sizeItems items
  | [] => Nat.le_refl _
  | item :: rest => by
    simp only [settleItems, sizeItems]
    exact Nat.add_le_add (size_settle_le item) (sizeItems_settle_le rest)

theorem sizeFields_settle_le : (fields : List (String × Json)) →
    sizeFields (settleFields fields) ≤ sizeFields fields
  | [] => Nat.le_refl _
  | (_, value) :: rest => by
    simp only [settleFields, sizeFields]
    exact Nat.add_le_add (size_settle_le value) (sizeFields_settle_le rest)

end

theorem size_le_of_readAll {cs : List Char} {j : Json} (h : readAll cs = .ok j) :
    j.size ≤ cs.length := by
  unfold readAll at h
  split at h
  · cases h
  · next k rest hvalue =>
    have hspent := (valuesSpend _).value _ _ k rest hvalue
    split at h
    · cases h
      omega
    · cases h

/-- **A value is no larger than its text.** -/
theorem size_le_of_parse {s : String} {j : Json} (h : parse s = .ok j) : j.size ≤ s.length := by
  unfold parse read at h
  cases hread : readAll s.toList with
  | error fault =>
    rw [hread] at h
    cases h
  | ok k =>
    rw [hread] at h
    cases h
    rw [← String.length_toList]
    exact Nat.le_trans (size_settle_le k) (size_le_of_readAll hread)

theorem length_decodeUtf8From_le (taken : Nat) (bytes : List UInt8) :
    (Text.decodeUtf8From taken bytes).length ≤ bytes.length := by
  fun_induction Text.decodeUtf8From taken bytes with
  | case1 => exact Nat.le_refl _
  | case2 taken b rest ih => exact Nat.le_succ_of_le ih
  | case3 b rest c width hlead ih | case4 b rest hlead ih => exact Nat.succ_le_succ ih

/-- A value is no larger than the bytes that it is read from. -/
theorem size_le_of_parseBytes {bytes : List UInt8} {j : Json} (h : parseBytes bytes = .ok j) :
    j.size ≤ bytes.length := by
  unfold parseBytes at h
  dsimp only at h
  split at h
  · next k _ hread =>
    cases h
    refine Nat.le_trans (size_settle_le k) (Nat.le_trans (size_le_of_readAll hread) ?_)
    rw [List.length_map]
    exact length_decodeUtf8From_le 0 bytes
  · cases h
  · cases h
  · split at h <;> cases h

end Json

end QueryPlan
