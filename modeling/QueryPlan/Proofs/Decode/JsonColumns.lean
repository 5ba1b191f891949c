import QueryPlan.Proofs.Decode.Folding
import QueryPlan.Proofs.Json.Extent
import QueryPlan.Proofs.Json.ReadBack

/-!
# Columns of JSON in sub-queries

A column of type JSON is folded into the JSON of its row or list as it is. To be decoded it becomes
a plain value, and this is turned into JSON again. The two steps together change nothing
(`Value.toJson_ofJson`), but a string is then a text, and coercion takes a text for the text of a
JSON value and reads it. So in a row a column keeps all values but the strings
(`DecodePlan.decodeNested_json_iff`).

The items of a list come as they are, or as objects with one field. The decoder tells the two apart
by the form of the item alone, so an item that is itself an object with one field is lost where
items come as they are (`DecodePlan.decodeNested_json_items`).
-/

namespace QueryPlan

variable {j k : Json} {s : String}

/-! ## 1. JSON through plain values -/

namespace Value

theorem toJson_ofJson_integer {n : Int} (h : minInt64 ≤ n ∧ n ≤ maxUInt64) :
    (ofJson (.number (.integer n h))).toJson = .number (.integer n h) := by
  have hlow : -9223372036854775808 ≤ n := h.1
  have hhigh : n ≤ 18446744073709551615 := h.2
  rw [ofJson]
  split
  · next hsigned =>
    have hsigned : n ≤ 9223372036854775807 := hsigned
    have hint : (Int64.ofInt n).toInt = n := Int64.toInt_ofInt_of_le hlow (by omega)
    simp only [toJson, Json.ofInt64, hint]
  · next hunsigned =>
    have hunsigned : ¬n ≤ 9223372036854775807 := hunsigned
    have hnat : ((UInt64.ofNat n.toNat).toNat : Int) = n := by
      rw [UInt64.toNat_ofNat_of_lt' (by unfold UInt64.size; omega)]
      omega
    simp only [toJson, Json.ofUInt64, hnat]

mutual

/-- JSON that becomes a plain value is the JSON of that value. -/
theorem toJson_ofJson : (j : Json) → (ofJson j).toJson = j
  | .null => rfl
  | .bool _ => rfl
  | .number (.integer _ h) => toJson_ofJson_integer h
  | .number (.double x h) => by rw [ofJson, toJson, Json.ofDouble, dif_pos h]
  | .text _ => rfl
  | .array items => by rw [ofJson, toJson, toJsonItems_ofJson items]
  | .object fields => by rw [ofJson, toJson, toJsonFields_ofJson fields]

theorem toJsonItems_ofJson : (items : List Json) → toJsonItems (ofJsonItems items) = items
  | [] => rfl
  | item :: rest => by rw [ofJsonItems, toJsonItems, toJson_ofJson item, toJsonItems_ofJson rest]

theorem toJsonFields_ofJson : (fields : List (String × Json)) →
    toJsonFields (ofJsonFields fields) = fields
  | [] => rfl
  | (_, value) :: rest => by
    rw [ofJsonFields, toJsonFields, toJson_ofJson value, toJsonFields_ofJson rest]

end

/-! ## 2. Coercion back to JSON -/

theorem coerce_json_of_toJson? {v : Value} (hnull : v ≠ null) (h : v.toJson? = some j) :
    v.coerce .json = .ok (json j) := by
  have hconvert : v.convert? .json = some (json j) := by rw [convert?, h]; rfl
  rw [coerce.eq_def]
  split
  · exact absurd rfl hnull
  · next heq _ => cases heq
  · rw [hconvert]

theorem ofJson_ne_null (h : j ≠ .null) : ofJson j ≠ null := by
  intro heq
  have hback := toJson_ofJson j
  rw [heq] at hback
  exact h hback.symm

theorem toJson?_ofJson (htext : ∀ s, j ≠ .text s) : (ofJson j).toJson? = some j := by
  have hplain : (ofJson j).toJson? = some (ofJson j).toJson := by
    cases j with
    | text s => exact absurd rfl (htext s)
    | number n =>
      cases n with
      | integer n h =>
        rw [ofJson]
        split <;> rfl
      | double x h => rfl
    | _ => rfl
  rw [hplain, toJson_ofJson]

/-- A value that is no null and no string comes back. -/
theorem coerce_ofJson (hnull : j ≠ .null) (htext : ∀ s, j ≠ .text s) :
    (ofJson j).coerce .json = .ok (json j) :=
  coerce_json_of_toJson? (ofJson_ne_null hnull) (toJson?_ofJson htext)

/-- A string comes back as the JSON that it spells. -/
theorem coerce_text_of_parse (h : Json.parse s = .ok k) : (text s).coerce .json = .ok (.json k) :=
  coerce_json_of_toJson? Value.noConfusion (by rw [toJson?, h]; rfl)

theorem coerce_text_of_not_parse {e : Json.SyntaxError} (h : Json.parse s = .error e) :
    (text s).coerce .json = .error (mismatch "a value of type json" (text s).describe) := by
  have hconvert : (text s).convert? .json = none := by rw [convert?, toJson?, h]; rfl
  rw [coerce.eq_def]
  split
  · next heq => cases heq
  · next heq _ => cases heq
  · rw [hconvert]
    rfl

/-- What comes back from a string is smaller than the string. -/
theorem size_lt_of_coerce_text (h : (text s).coerce .json = .ok (json k)) :
    k.size < (Json.text s).size := by
  cases hparse : Json.parse s with
  | error e =>
    rw [coerce_text_of_not_parse hparse] at h
    cases h
  | ok j =>
    rw [coerce_text_of_parse hparse] at h
    cases h
    rw [Json.size]
    exact Nat.lt_succ_of_le (Json.size_le_of_parse hparse)

/-- What comes back is not larger than what it comes from. -/
theorem size_le_of_coerce_ofJson (h : (ofJson j).coerce .json = .ok (json k)) :
    k.size ≤ j.size := by
  by_cases hnull : j = .null
  · subst hnull
    rw [ofJson, coerce] at h
    cases h
  · by_cases htext : ∃ s, j = .text s
    · obtain ⟨s, rfl⟩ := htext
      exact Nat.le_of_lt (size_lt_of_coerce_text h)
    · rw [coerce_ofJson hnull fun s hs => htext ⟨s, hs⟩] at h
      cases h
      exact Nat.le_refl _

end Value

theorem DecodeRule.decode_typed_eq_ok_iff {o : DetectOptions} {type : DataType} {label : String}
    {v w : Value} : (DecodeRule.typed type).decode o label v = .ok w ↔ v.coerce type = .ok w := by
  rw [DecodeRule.decode]
  cases v.coerce type with
  | error e => exact ⟨fun h => (nomatch h), fun h => (nomatch h)⟩
  | ok u => rfl

/-! ## 3. Rows -/

namespace DecodePlan

variable {o : DetectOptions} {plan : DecodePlan} {c : String}

/-- A row with one column is decoded as the value of this column. -/
theorem decodeNested_one_column (hshape : plan.shape = .first) {rule : DecodeRule}
    (hcolumns : plan.columns = [⟨c, rule⟩]) (label : String) (j : Json) :
    plan.decodeNested o label (.json (.object [(c, j)])) =
      (rule.decode o c (.ofJson j)).map fun w => .object [(c, w)] := by
  obtain ⟨statement, shape, columns, affectedOnly, isMutation⟩ := plan
  cases hshape
  cases hcolumns
  have hrow : Decode.unfoldSingle label (Value.json (.object [(c, j)])).size _ = .ok _ :=
    unfoldSingle_row rfl (.inl rfl)
  have hfound : (Fields.get? (Value.ofJsonFields [(c, j)]) c).getD .null = .ofJson j := by
    rw [Value.ofJsonFields, Fields.get?_cons, if_pos rfl, Option.getD_some]
  rw [decodeNested, hrow]
  show (decodeFields o [⟨c, rule⟩] (Value.ofJsonFields [(c, j)]) []).map Value.object = _
  rw [decodeFields, hfound]
  cases rule.decode o c (.ofJson j) with
  | error e | ok w => rfl

/-- **A column of JSON keeps all values but strings in a row.** A value that is no null is decoded
    as itself, as it is outside of a sub-query, if and only if it is no string. A string is taken
    for the text of a JSON value: if it is one, the result is that value, which is never the string
    itself, else decoding fails. -/
theorem decodeNested_json_iff (o : DetectOptions) {plan : DecodePlan} {c : String}
    (hshape : plan.shape = .first) (hcolumns : plan.columns = [⟨c, .typed .json⟩]) (label : String)
    {j : Json} (hj : j ≠ .null) :
    (Value.json j).coerce .json = .ok (.json j) ∧
    (plan.decodeNested o label (.json (.object [(c, j)])) = .ok (.object [(c, .json j)]) ↔
      ∀ s, j ≠ .text s) ∧
    ∀ s, j = .text s →
      (∀ k, Json.parse s = .ok k →
        plan.decodeNested o label (.json (.object [(c, j)])) = .ok (.object [(c, .json k)])) ∧
      ∀ e, Json.parse s = .error e →
        plan.decodeNested o label (.json (.object [(c, j)])) =
          .error (.ofCause (.expected (some (Decode.columnName c)) "a value of type json"
            (Value.text s).describe)) := by
  have hdecoded := decodeNested_one_column (o := o) hshape hcolumns label j
  refine ⟨Value.coerce_json_of_toJson? Value.noConfusion rfl, ⟨?_, ?_⟩, ?_⟩
  · rintro h s rfl
    rw [hdecoded] at h
    obtain ⟨w, hw, hrow⟩ := Except.map_eq_ok_iff.1 h
    cases hrow
    -- The string would be its own text, but what a text spells is smaller than the string.
    exact Nat.lt_irrefl _ (Value.size_lt_of_coerce_text (DecodeRule.decode_typed_eq_ok_iff.1 hw))
  · intro htext
    rw [hdecoded, DecodeRule.decode_typed_eq_ok_iff.2 (Value.coerce_ofJson hj htext)]
    rfl
  · rintro s rfl
    constructor
    · intro k hk
      rw [hdecoded, Value.ofJson,
        DecodeRule.decode_typed_eq_ok_iff.2 (Value.coerce_text_of_parse hk)]
      rfl
    · intro e he
      rw [hdecoded, DecodeRule.decode, Value.ofJson, Value.coerce_text_of_not_parse he]
      rfl

/-- Strings inside of a value are kept; a string alone is read. -/
theorem decodeNested_json_iff_here :
    let plan : DecodePlan := ⟨"select", .first, [⟨"c", .typed .json⟩], false, false⟩
    let j : Json := .object [("x", .array [.text "1", .null])]
    j ≠ .null ∧
      plan.decodeNested {} "n" (.json (.object [("c", j)])) = .ok (.object [("c", .json j)]) ∧
      Json.text "true" ≠ .null ∧
      plan.decodeNested {} "n" (.json (.object [("c", .text "true")])) =
        .ok (.object [("c", .json (.bool true))]) := by
  intro plan j
  have hj : j ≠ .null := Json.noConfusion
  have htext : Json.text "true" ≠ .null := Json.noConfusion
  have hread : Json.read "true" = .ok (.bool true) :=
    Json.read_render (j := .bool true) (Nat.zero_le _) fun _ hx => absurd hx List.not_mem_nil
  have hparse : Json.parse "true" = .ok (.bool true) := by
    rw [Json.parse, hread]
    rfl
  refine ⟨hj, ?_, htext, ?_⟩
  · exact (decodeNested_json_iff {} rfl rfl "n" hj).2.1.2 fun s => Json.noConfusion
  · exact ((decodeNested_json_iff {} rfl rfl "n" htext).2.2 "true" rfl).1 (.bool true) hparse

end DecodePlan

/-! ## 4. Lists -/

/-- The value of an object with one field, and every other value itself. -/
def Json.unwrapped : Json → Json
  | .object [(_, w)] => w
  | j => j

theorem Json.size_unwrapped_lt {key : String} {w : Json} (h : j = .object [(key, w)]) :
    j.unwrapped.size < j.size := by
  subst h
  simp [unwrapped, size, sizeFields]

theorem Json.unwrapped_eq_self (h : ∀ key w, j ≠ .object [(key, w)]) : j.unwrapped = j := by
  unfold unwrapped
  split
  · next key w => exact absurd rfl (h key w)
  · rfl

/-- The item of a list that a JSON value stands for. -/
theorem Decode.listItem_ofJson (j : Json) : Decode.listItem (.ofJson j) = .ofJson j.unwrapped := by
  cases j with
  | object fields => rcases fields with _ | ⟨field, _ | ⟨next, rest⟩⟩ <;> rfl
  | number n =>
    rw [Json.unwrapped_eq_self fun _ _ => Json.noConfusion]
    cases n with
    | integer n h =>
      rw [Value.ofJson]
      split <;> rfl
    | double x h => rfl
  | _ => rfl

namespace DecodePlan

variable {o : DetectOptions} {plan : DecodePlan} {c label : String}

/-- A list is decoded item by item, each as a value of the first column. -/
theorem decodeNested_items_eq_ok_iff (hshape : plan.shape = .list) {type : DataType}
    (hfirst : plan.columns.head? = some ⟨c, .typed type⟩) {items : List Json} {ws : List Value} :
    plan.decodeNested o label (.json (.array items)) = .ok (.array ws) ↔
      List.Forall₂ (fun j w => (Value.ofJson j.unwrapped).coerce type = .ok w) items ws := by
  obtain ⟨statement, shape, columns, affectedOnly, isMutation⟩ := plan
  cases hshape
  obtain ⟨columns, rfl⟩ := List.head?_eq_some_iff.1 hfirst
  have hitems : (Value.ofJsonItems items).mapM (fun item =>
        decodeItem o (⟨c, .typed type⟩ :: columns) (Decode.listItem item)) = .ok ws ↔
      List.Forall₂ (fun j w => (Value.ofJson j.unwrapped).coerce type = .ok w) items ws := by
    rw [mapM_eq_ok_iff, Value.ofJsonItems_eq, List.forall₂_map_left_iff]
    simp only [Decode.listItem_ofJson, decodeItem, DecodeRule.decode_typed_eq_ok_iff]
  rw [← hitems, decodeNested]
  constructor
  · intro h
    obtain ⟨_, hunfold, h⟩ := Except.bind_eq_ok_iff.1 h
    cases hunfold
    obtain ⟨ws', hws, h⟩ := Except.bind_eq_ok_iff.1 h
    cases h
    exact hws
  · intro h
    exact Except.bind_eq_ok_iff.2 ⟨_, rfl, Except.bind_eq_ok_iff.2 ⟨ws, h, rfl⟩⟩

/-- **A list of JSON values comes back, but for objects with one field.** Let no item be null or a
    string. If each item is folded as a row of its own, the list is decoded as it was. If the items
    are folded as they are, this is so if and only if no item is an object with one field: such an
    item is decoded as the value of its field. -/
theorem decodeNested_json_items (o : DetectOptions) {plan : DecodePlan} {c : String}
    (hshape : plan.shape = .list) (hfirst : plan.columns.head? = some ⟨c, .typed .json⟩)
    (label : String) {items : List Json}
    (hitems : ∀ j ∈ items, j ≠ .null ∧ ∀ s, j ≠ .text s) :
    plan.decodeNested o label (.json (.array (items.map fun j => .object [(c, j)]))) =
        .ok (.array (items.map .json)) ∧
    (plan.decodeNested o label (.json (.array items)) = .ok (.array (items.map .json)) ↔
      ∀ j ∈ items, ∀ key w, j ≠ .object [(key, w)]) ∧
    ((∀ j ∈ items, j.unwrapped ≠ .null ∧ ∀ s, j.unwrapped ≠ .text s) →
      plan.decodeNested o label (.json (.array items)) =
        .ok (.array (items.map fun j => .json j.unwrapped))) := by
  refine ⟨?_, ⟨?_, ?_⟩, ?_⟩
  · rw [decodeNested_items_eq_ok_iff hshape hfirst, List.forall₂_map_left_iff,
      List.forall₂_map_right_iff, List.forall₂_same]
    exact fun j hj => Value.coerce_ofJson (hitems j hj).1 (hitems j hj).2
  · intro h j hj key w heq
    rw [decodeNested_items_eq_ok_iff hshape hfirst, List.forall₂_map_right_iff,
      List.forall₂_same] at h
    -- The value of the field is smaller than the item, and does not grow when it is coerced.
    exact Nat.not_lt.2 (Value.size_le_of_coerce_ofJson (h j hj)) (Json.size_unwrapped_lt heq)
  · intro h
    rw [decodeNested_items_eq_ok_iff hshape hfirst, List.forall₂_map_right_iff, List.forall₂_same]
    intro j hj
    rw [Json.unwrapped_eq_self (h j hj)]
    exact Value.coerce_ofJson (hitems j hj).1 (hitems j hj).2
  · intro h
    rw [decodeNested_items_eq_ok_iff hshape hfirst, List.forall₂_map_right_iff, List.forall₂_same]
    exact fun j hj => Value.coerce_ofJson (h j hj).1 (h j hj).2

/-- An object with one field among the items: it is kept as a row of its own, but not as it is. -/
theorem decodeNested_json_items_here :
    let plan : DecodePlan := ⟨"select", .list, [⟨"c", .typed .json⟩], false, false⟩
    let items : List Json := [.object [], .object [("a", .bool true)], .array [.null]]
    (∀ j ∈ items, j ≠ .null ∧ ∀ s, j ≠ .text s) ∧
      plan.decodeNested {} "n" (.json (.array (items.map fun j => .object [("c", j)]))) =
        .ok (.array (items.map .json)) ∧
      plan.decodeNested {} "n" (.json (.array items)) ≠ .ok (.array (items.map .json)) ∧
      plan.decodeNested {} "n" (.json (.array items)) =
        .ok (.array [.json (.object []), .json (.bool true), .json (.array [.null])]) := by
  intro plan items
  have hitems : ∀ j ∈ items, j ≠ .null ∧ ∀ s, j ≠ .text s := by
    simp [items]
  have hfirst : plan.columns.head? = some ⟨"c", .typed .json⟩ := rfl
  obtain ⟨hrows, hbare, hunwrapped⟩ := decodeNested_json_items {} rfl hfirst "n" hitems
  refine ⟨hitems, hrows, ?_, ?_⟩
  · exact fun h => hbare.1 h (.object [("a", .bool true)]) (by simp [items]) "a" (.bool true) rfl
  · exact hunwrapped (by simp [items, Json.unwrapped])

end DecodePlan

end QueryPlan
