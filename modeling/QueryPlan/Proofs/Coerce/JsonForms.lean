import QueryPlan.Proofs.Coerce.Integers

/-!
# The two forms of JSON in values

A driver hands JSON over as it is (`Value.json`), and JSON that a sub-query has folded becomes plain
values, item by item (`Value.ofJson`). The plain values hold all that the JSON says: each is of the
kind that its JSON value calls for (`Json.Held`), and what is written of it is the JSON again
(`ofJson_held_and_back`).

Coercion takes most types from both forms alike, but not all. It reads plain numbers and truth
values as text, and points and arrays out of plain text, and refuses the same as JSON
(`Json.OnlyPlain`). It reads intervals out of objects, and refuses objects of plain values
(`Json.OnlyWrapped`). Elsewhere the forms agree (`json_forms_agree_iff`).
-/

namespace QueryPlan

/-! ## 1. What plain values hold -/

mutual

/-- A plain value that holds a JSON value. Nothing in it is left as JSON, integers are signed as far
    as they go, and fields keep their order. -/
inductive Json.Held : Json → Value → Prop
  | null : Held .null .null
  | bool (b : Bool) : Held (.bool b) (.bool b)
  | signed {n : Int} (h : minInt64 ≤ n ∧ n ≤ maxUInt64) {i : Int64} (hi : i.toInt = n) :
    Held (.number (.integer n h)) (.int i)
  | unsigned {n : Int} (h : minInt64 ≤ n ∧ n ≤ maxUInt64) {i : UInt64} (hi : i.toNat = n)
    (hlarge : maxInt64 < n) : Held (.number (.integer n h)) (.uint i)
  | double {x : Double} (h : x.isFinite = true) : Held (.number (.double x h)) (.float x)
  | text (s : String) : Held (.text s) (.text s)
  | array {items : List Json} {values : List Value} (h : HeldItems items values) :
    Held (.array items) (.array values)
  | object {fields : List (String × Json)} {values : List (String × Value)}
    (h : HeldFields fields values) : Held (.object fields) (.object values)

inductive Json.HeldItems : List Json → List Value → Prop
  | nil : HeldItems [] []
  | cons {j : Json} {v : Value} {items : List Json} {values : List Value} (head : Held j v)
    (tail : HeldItems items values) : HeldItems (j :: items) (v :: values)

inductive Json.HeldFields : List (String × Json) → List (String × Value) → Prop
  | nil : HeldFields [] []
  | cons (name : String) {j : Json} {v : Value} {fields : List (String × Json)}
    {values : List (String × Value)} (head : Held j v) (tail : HeldFields fields values) :
    HeldFields ((name, j) :: fields) ((name, v) :: values)

end

namespace Value

theorem held_integer {n : Int} (h : minInt64 ≤ n ∧ n ≤ maxUInt64) :
    Json.Held (.number (.integer n h)) (ofJson (.number (.integer n h))) := by
  have hback := toJson_ofJson_integer h
  rw [ofJson] at hback ⊢
  by_cases hsigned : n ≤ maxInt64
  · rw [if_pos hsigned] at hback ⊢
    simp only [toJson, Json.ofInt64, Json.number.injEq, JsonNumber.integer.injEq] at hback
    exact .signed h hback
  · rw [if_neg hsigned] at hback ⊢
    simp only [toJson, Json.ofUInt64, Json.number.injEq, JsonNumber.integer.injEq] at hback
    exact .unsigned h hback (Int.not_le.1 hsigned)

mutual

theorem held_ofJson : (j : Json) → j.Held (ofJson j)
  | .null => .null
  | .bool b => .bool b
  | .number (.integer _ h) => held_integer h
  | .number (.double _ h) => .double h
  | .text s => .text s
  | .array items => .array (heldItems_ofJson items)
  | .object fields => .object (heldFields_ofJson fields)

theorem heldItems_ofJson : (items : List Json) → Json.HeldItems items (ofJsonItems items)
  | [] => .nil
  | item :: rest => .cons (held_ofJson item) (heldItems_ofJson rest)

theorem heldFields_ofJson : (fields : List (String × Json)) →
    Json.HeldFields fields (ofJsonFields fields)
  | [] => .nil
  | (name, value) :: rest => .cons name (held_ofJson value) (heldFields_ofJson rest)

end

/-- **JSON through values**: a JSON value of any depth becomes a plain value that holds it, with its
    kinds of numbers and the order of its fields, and what is written of that value is the JSON
    value. -/
theorem ofJson_held_and_back (j : Json) : j.Held (ofJson j) ∧ (ofJson j).toJson = j :=
  ⟨held_ofJson j, toJson_ofJson j⟩

end Value

/-! ## 2. Where the forms come apart -/

/-- JSON that is refused as it is, and read as a plain value. -/
def Json.OnlyPlain (t : DataType) : Json → Prop
  | .bool _ | .number _ => t.kindOfValues? = some .text
  | .text s =>
    (t = .point ∧ ∃ p, Point.ofText? (Text.trim s.toList) = some p) ∨
      ∃ element items, t = .array element ∧ Value.itemsOfText element s = .ok items ∧
        ∀ item ∈ items, ∃ w, Value.coerce element item = .ok w
  | _ => False

/-- JSON that is read as it is, and refused as a plain value. -/
def Json.OnlyWrapped (t : DataType) : Json → Prop
  | .object _ => t = .interval
  | _ => False

namespace Value

section Outcomes

variable {v : Value} {t : DataType}

theorem toOption_coerce (hv : v ≠ null) (ht : ∀ element, t ≠ .array element) :
    (v.coerce t).toOption = v.convert? t := by
  cases hconvert : v.convert? t with
  | none =>
    rw [coerce_of_convert?_eq_none hv ht hconvert]
    rfl
  | some w =>
    rw [(coerce_eq_ok_iff_convert? hv ht).2 hconvert]
    rfl

/-- An array is read if there are items and all of them are read. -/
theorem exists_coerce_array_iff (hv : v ≠ null) {element : DataType} :
    (∃ w, v.coerce (.array element) = .ok w) ↔
      ∃ items, v.toItems element = .ok items ∧ ∀ item ∈ items, ∃ w, item.coerce element = .ok w := by
  rw [coerce_array hv]
  constructor
  · rintro ⟨w, h⟩
    obtain ⟨items, hitems, h⟩ := Except.bind_eq_ok_iff.1 h
    obtain ⟨ws, hws, -⟩ := Except.bind_eq_ok_iff.1 h
    exact ⟨items, hitems, exists_mapM_iff.1 ⟨ws, hws⟩⟩
  · rintro ⟨items, hitems, hall⟩
    obtain ⟨ws, hws⟩ := exists_mapM_iff.2 hall
    exact ⟨array ws, Except.bind_eq_ok_iff.2 ⟨items, hitems, Except.bind_eq_ok_iff.2 ⟨ws, hws, rfl⟩⟩⟩

/-- A value that has no items is refused by every array type. -/
theorem coerce_array_of_toItems_eq_error (hv : v ≠ null) {element : DataType} {e : Error}
    (h : v.toItems element = .error e) : v.coerce (.array element) = .error e := by
  rw [coerce_array hv, h]
  rfl

end Outcomes

/-! ## 3. Types that are no arrays -/

section Scalars

variable {j : Json} {t : DataType}

/-- A plain number is an integer, an unsigned integer or a double. -/
theorem ofJson_number_elim {P : Value → Prop} (n : JsonNumber) (hint : ∀ k, P (int k))
    (huint : ∀ k, P (uint k)) (hfloat : ∀ x, P (float x)) : P (ofJson (.number n)) := by
  obtain ⟨k, h⟩ | ⟨k, h⟩ | ⟨x, h⟩ := ofJson_number n
  · exact h ▸ hint k
  · exact h ▸ huint k
  · exact h ▸ hfloat x

theorem unwrapScalar_ofJson (j : Json) : (ofJson j).unwrapScalar = ofJson j := by
  cases j with
  | number n =>
    exact ofJson_number_elim (P := fun v => v.unwrapScalar = v) n (fun _ => rfl) (fun _ => rfl)
      fun _ => rfl
  | _ => rfl

theorem toBytes?_json (j : Json) : (json j).toBytes? = (ofJson j).toBytes? := by
  cases j with
  | number n =>
    obtain ⟨k, h⟩ | ⟨k, h⟩ | ⟨x, h⟩ := ofJson_number n
    · rw [toBytes?, h]; rfl
    · rw [toBytes?, h]; rfl
    · rw [toBytes?, h]; rfl
  | _ => rfl

theorem toPoint?_json (htext : ∀ s, j ≠ .text s) : (json j).toPoint? = (ofJson j).toPoint? := by
  cases j with
  | text s => exact absurd rfl (htext s)
  | number n =>
    exact ofJson_number_elim (P := fun v => none = v.toPoint?) n (fun _ => rfl) (fun _ => rfl)
      fun _ => rfl
  | object fields =>
    show Point.ofJson? (.object fields) = Point.ofJson? (ofJson (.object fields)).toJson
    rw [toJson_ofJson]
  | _ => rfl

theorem convert?_text (ht : t.kindOfValues? = some .text) (v : Value) :
    v.convert? t = v.toText?.map text := by
  cases t with
  | text | varchar | uuid => rfl
  | _ => cases ht

theorem toText?_json (hbool : ∀ b, j ≠ .bool b) (hnumber : ∀ n, j ≠ .number n) :
    (json j).toText? = (ofJson j).toText? := by
  cases j with
  | bool b => exact absurd rfl (hbool b)
  | number n => exact absurd rfl (hnumber n)
  | _ => rfl

/-- The two forms of JSON are converted alike where neither is refused alone. -/
theorem convert?_json (hnull : j ≠ .null) (hjson : t ≠ .json) (hcustom : ∀ name, t ≠ .custom name)
    (harray : ∀ element, t ≠ .array element) (hplain : ¬j.OnlyPlain t)
    (hwrapped : ¬j.OnlyWrapped t) : (json j).convert? t = (ofJson j).convert? t := by
  by_cases htext : t.kindOfValues? = some .text
  · rw [convert?_text htext, convert?_text htext, toText?_json]
    · rintro b rfl
      exact hplain htext
    · rintro n rfl
      exact hplain htext
  by_cases hpoint : t = .point
  · subst hpoint
    cases j with
    | text s =>
      have hnone : Point.ofText? (Text.trim s.toList) = none :=
        Option.eq_none_iff_forall_ne_some.2 fun p hp => hplain (.inl ⟨rfl, p, hp⟩)
      show none = (Point.ofText? (Text.trim s.toList)).map point
      rw [hnone]
      rfl
    | _ => rw [convert?, convert?, toPoint?_json fun s => Json.noConfusion]
  have hform : (json j).unwrapScalar = ofJson j ∨ (∃ items, j = .array items) ∨
      ∃ fields, j = .object fields := by
    cases j with
    | null => exact absurd rfl hnull
    | array items => exact .inr (.inl ⟨items, rfl⟩)
    | object fields => exact .inr (.inr ⟨fields, rfl⟩)
    | _ => exact .inl rfl
  cases t with
  | text | varchar | uuid => exact absurd rfl htext
  | point => exact absurd rfl hpoint
  | json => exact absurd rfl hjson
  | custom name => exact absurd rfl (hcustom name)
  | array element => rfl
  | bytes => rw [convert?, convert?, toBytes?_json]
  | interval =>
    obtain hscalar | ⟨items, rfl⟩ | ⟨fields, rfl⟩ := hform
    · simp only [convert?, toInterval?, hscalar, unwrapScalar_ofJson]
    · rfl
    · exact absurd rfl hwrapped
  | _ =>
    obtain hscalar | ⟨items, rfl⟩ | ⟨fields, rfl⟩ := hform
    · simp only [convert?, toBool?, toInt?, toUInt?, toFloat?, toDecimal?, toDate?, toTime?,
        toTimestamp?, toTimestampTz?, hscalar, unwrapScalar_ofJson]
    · rfl
    · rfl

end Scalars

/-! ## 4. Both forms -/

section Forms

variable {j : Json} {t : DataType}

theorem coerce_text_apart (ht : t.kindOfValues? = some .text) (hnull : j ≠ .null)
    (hwrapped : (json j).toText? = none) {s : String} (hplain : (ofJson j).toText? = some s) :
    (∃ e, (json j).coerce t = .error e) ∧ ∃ w, (ofJson j).coerce t = .ok w := by
  have harray : ∀ element, t ≠ .array element := by
    rintro element rfl
    cases ht
  refine ⟨⟨_, coerce_of_convert?_eq_none Value.noConfusion harray ?_⟩,
    text s, (coerce_eq_ok_iff_convert? (ofJson_ne_null hnull) harray).2 ?_⟩
  · rw [convert?_text ht, hwrapped]
    rfl
  · rw [convert?_text ht, hplain]
    rfl

theorem coerce_of_onlyPlain (h : j.OnlyPlain t) :
    (∃ e, (json j).coerce t = .error e) ∧ ∃ w, (ofJson j).coerce t = .ok w := by
  cases j with
  | bool b => exact coerce_text_apart h Json.noConfusion rfl rfl
  | number n =>
    obtain ⟨s, hs⟩ : ∃ s, (ofJson (.number n)).toText? = some s :=
      ofJson_number_elim (P := fun v => ∃ s, v.toText? = some s) n (fun _ => ⟨_, rfl⟩)
        (fun _ => ⟨_, rfl⟩) fun _ => ⟨_, rfl⟩
    exact coerce_text_apart h Json.noConfusion rfl hs
  | text s =>
    obtain ⟨rfl, p, hp⟩ | ⟨element, items, rfl, hitems⟩ := h
    · refine ⟨⟨_, coerce_of_convert?_eq_none Value.noConfusion (by simp) rfl⟩, point p, ?_⟩
      refine (coerce_eq_ok_iff_convert? Value.noConfusion (by simp)).2 ?_
      show (Point.ofText? (Text.trim s.toList)).map point = _
      rw [hp]
      rfl
    · refine ⟨⟨_, coerce_array_of_toItems_eq_error Value.noConfusion rfl⟩, ?_⟩
      exact (exists_coerce_array_iff Value.noConfusion).2 ⟨items, hitems⟩
  | _ => exact h.elim

theorem coerce_of_onlyWrapped (h : j.OnlyWrapped t) :
    (∃ w, (json j).coerce t = .ok w) ∧ ∃ e, (ofJson j).coerce t = .error e := by
  cases j with
  | object fields =>
    obtain rfl : t = .interval := h
    refine ⟨⟨interval (intervalOfParts fields), ?_⟩, ?_⟩
    · exact (coerce_eq_ok_iff_convert? Value.noConfusion (by simp)).2 rfl
    · exact ⟨_, coerce_of_convert?_eq_none Value.noConfusion (by simp) rfl⟩
  | _ => exact h.elim

theorem toOption_coerce_array_json {element : DataType} (hnull : j ≠ .null)
    (hplain : ¬j.OnlyPlain (.array element)) :
    ((json j).coerce (.array element)).toOption =
      ((ofJson j).coerce (.array element)).toOption := by
  have hv : ofJson j ≠ null := ofJson_ne_null hnull
  cases j with
  | null => exact absurd rfl hnull
  | array items =>
    rw [coerce_array Value.noConfusion, coerce_array hv]
    rfl
  | text s =>
    rw [coerce_array_of_toItems_eq_error Value.noConfusion rfl]
    cases hcoerce : (ofJson (.text s)).coerce (.array element) with
    | error e => rfl
    | ok w =>
      obtain ⟨items, hitems⟩ := (exists_coerce_array_iff hv).1 ⟨w, hcoerce⟩
      exact absurd (.inr ⟨element, items, rfl, hitems⟩) hplain
  | number n =>
    obtain ⟨e, he⟩ : ∃ e, (ofJson (.number n)).toItems element = .error e :=
      ofJson_number_elim (P := fun v => ∃ e, v.toItems element = .error e) n (fun _ => ⟨_, rfl⟩)
        (fun _ => ⟨_, rfl⟩) fun _ => ⟨_, rfl⟩
    rw [coerce_array_of_toItems_eq_error Value.noConfusion rfl,
      coerce_array_of_toItems_eq_error hv he]
    rfl
  | _ =>
    rw [coerce_array_of_toItems_eq_error Value.noConfusion rfl,
      coerce_array_of_toItems_eq_error hv rfl]
    rfl

theorem toOption_coerce_json (hnull : j ≠ .null) (hjson : t ≠ .json)
    (hcustom : ∀ name, t ≠ .custom name) (hplain : ¬j.OnlyPlain t) (hwrapped : ¬j.OnlyWrapped t) :
    ((json j).coerce t).toOption = ((ofJson j).coerce t).toOption := by
  by_cases harray : ∃ element, t = .array element
  · obtain ⟨element, rfl⟩ := harray
    exact toOption_coerce_array_json hnull hplain
  · have ht : ∀ element, t ≠ .array element := fun element h => harray ⟨element, h⟩
    rw [toOption_coerce Value.noConfusion ht, toOption_coerce (ofJson_ne_null hnull) ht,
      convert?_json hnull hjson hcustom ht hplain hwrapped]

end Forms

/-- **The two forms of JSON**: toward every type that is known, other than JSON itself, the two forms
    of a JSON value that is no null both give the same value or both give none, except where one of
    them alone is read. Numbers and truth values are read as text only if they are plain, and so are
    points and arrays out of text. Objects are read as intervals only if they are JSON. -/
theorem json_forms_agree_iff (j : Json) (t : DataType) (hnull : j ≠ .null) (hjson : t ≠ .json)
    (hcustom : ∀ name, t ≠ .custom name) :
    (((json j).coerce t).toOption = ((ofJson j).coerce t).toOption ↔
      ¬j.OnlyPlain t ∧ ¬j.OnlyWrapped t) ∧
    (j.OnlyPlain t → (∃ e, (json j).coerce t = .error e) ∧ ∃ w, (ofJson j).coerce t = .ok w) ∧
    (j.OnlyWrapped t →
      (∃ w, (json j).coerce t = .ok w) ∧ ∃ e, (ofJson j).coerce t = .error e) := by
  refine ⟨⟨fun hsame => ⟨fun hplain => ?_, fun hwrapped => ?_⟩, fun h => ?_⟩,
    coerce_of_onlyPlain, coerce_of_onlyWrapped⟩
  · obtain ⟨⟨e, he⟩, w, hw⟩ := coerce_of_onlyPlain hplain
    rw [he, hw] at hsame
    cases hsame
  · obtain ⟨⟨w, hw⟩, e, he⟩ := coerce_of_onlyWrapped hwrapped
    rw [he, hw] at hsame
    cases hsame
  · exact toOption_coerce_json hnull hjson hcustom h.1 h.2

/-- An array of truth values is read as integers from both forms, and a truth value as text only if
    it is plain. -/
theorem json_forms_agree_iff_here :
    ((json (.array [.bool true])).coerce (.array .bigInt)).toOption =
      ((ofJson (.array [.bool true])).coerce (.array .bigInt)).toOption ∧
    ¬((json (.bool true)).coerce .text).toOption =
      ((ofJson (.bool true)).coerce .text).toOption :=
  ⟨(json_forms_agree_iff (.array [.bool true]) (.array .bigInt) Json.noConfusion
      DataType.noConfusion fun _ => DataType.noConfusion).1.2 ⟨id, id⟩,
    fun h => ((json_forms_agree_iff (.bool true) .text Json.noConfusion DataType.noConfusion
      fun _ => DataType.noConfusion).1.1 h).1 rfl⟩

end Value

end QueryPlan
