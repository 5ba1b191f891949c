import QueryPlan.Proofs.Decode.Columns

/-!
# Types of coerced values

Each type that is known has one kind of values (`DataType.kindOfValues?`), and the values of an
array type are arrays of nulls and of values of the element type (`Value.hasType`). What coercion
makes of a value is a value of the type (`hasType_of_coerce`), and a value of the type is left as it
is (`coerce_of_hasType`), so that coercion is a retraction onto the values of the type
(`coerce_sound`).
-/

namespace QueryPlan

variable {t : DataType} {v w : Value}

/-! ## 1. Kinds of values -/

/-- The kinds of values. -/
inductive ValueKind where
  | null
  | bool
  | int
  | uint
  | float
  | decimal
  | text
  | bytes
  | date
  | time
  | timestamp
  | timestampTz
  | interval
  | point
  | json
  | array
  | object
  deriving DecidableEq

def Value.kind : Value → ValueKind
  | null => .null
  | bool _ => .bool
  | int _ => .int
  | uint _ => .uint
  | float _ => .float
  | decimal _ => .decimal
  | text _ => .text
  | bytes _ => .bytes
  | date _ => .date
  | time _ => .time
  | timestamp _ => .timestamp
  | timestampTz _ => .timestampTz
  | interval _ => .interval
  | point _ => .point
  | json _ => .json
  | array _ => .array
  | object _ => .object

/-- The kind of the values of a type, unless the type is not known. -/
def DataType.kindOfValues? : DataType → Option ValueKind
  | boolean => some .bool
  | smallInt => some .int
  | integer => some .int
  | bigInt => some .int
  | unsignedInteger => some .uint
  | unsignedBigInt => some .uint
  | real => some .float
  | double => some .float
  | decimal _ _ => some .decimal
  | text => some .text
  | varchar _ => some .text
  | uuid => some .text
  | bytes => some .bytes
  | date => some .date
  | time => some .time
  | timestamp => some .timestamp
  | timestampTz => some .timestampTz
  | interval => some .interval
  | json => some .json
  | point => some .point
  | array _ => some .array
  | custom _ => none

namespace Value

/-- Whether a value that is no null is one of a type. Arrays may hold nulls, to any depth; every
    value is one of a type that is not known. -/
def hasType (t : DataType) (v : Value) : Bool :=
  match t with
  | .array element =>
    match v with
    | array items => items.all fun item => item.isNull || item.hasType element
    | _ => false
  | t => t.kindOfValues?.all (· = v.kind)

theorem array_hasType {items : List Value} {element : DataType} :
    (array items).hasType (.array element) = true ↔
      ∀ item ∈ items, item = null ∨ item.hasType element = true := by
  have hnull : ∀ item : Value, item.isNull = true ↔ item = null := by
    intro item
    cases item <;> simp [isNull]
  simp [hasType, hnull]

/-! ## 2. What coercion gives -/

theorem coerce_null (t : DataType) : null.coerce t = .ok null := by
  rw [coerce]

/-- How a value that is no null comes to an array type: item by item. -/
theorem coerce_array (hv : v ≠ null) (element : DataType) :
    v.coerce (.array element) = (do
      let items ← v.toItems element
      return array (← items.mapM (coerce element))) := by
  rw [coerce]
  exact hv

/-- How a value that is no null comes to any other type: it is converted. -/
theorem coerce_eq_ok_iff_convert? (hv : v ≠ null) (ht : ∀ element, t ≠ .array element) :
    v.coerce t = .ok w ↔ v.convert? t = some w := by
  rw [coerce.eq_def]
  split
  · exact absurd rfl hv
  · exact absurd rfl (ht _)
  · cases v.convert? t with
    | none =>
      constructor
      · intro h
        cases h
      · intro h
        cases h
    | some w' =>
      constructor
      · intro h
        exact congrArg some (Except.ok.inj h)
      · intro h
        exact congrArg Except.ok (Option.some.inj h)

/-- What is converted to a known type has its kind. -/
theorem kind_of_convert? (h : v.convert? t = some w) : t.kindOfValues?.all (· = w.kind) = true := by
  cases t with
  | array element => cases h
  | custom name => rfl
  | _ =>
    obtain ⟨x, -, rfl⟩ := Option.map_eq_some_iff.1 h
    rfl

/-- A value that has the kind of a type is converted to itself. -/
theorem convert?_of_kind (ht : ∀ element, t ≠ .array element)
    (h : t.kindOfValues?.all (· = v.kind) = true) : v.convert? t = some v := by
  cases t with
  | array element => exact absurd rfl (ht element)
  | custom name => rfl
  | _ =>
    have hkind : v.kind = _ := (of_decide_eq_true h).symm
    cases v <;> first | (exact ValueKind.noConfusion hkind) | rfl

/-- What a value is coerced to is one of the type. -/
theorem hasType_of_coerce (hv : v ≠ null) (h : v.coerce t = .ok w) :
    w ≠ null ∧ w.hasType t = true := by
  induction t generalizing v w with
  | array element ih =>
    rw [coerce_array hv] at h
    obtain ⟨items, -, h⟩ := Except.bind_eq_ok_iff.1 h
    obtain ⟨ws, hws, h⟩ := Except.bind_eq_ok_iff.1 h
    cases h
    refine ⟨by simp, array_hasType.2 fun w hw => ?_⟩
    obtain ⟨item, -, hitem⟩ := exists_of_mem_mapM hws hw
    by_cases hnull : item = null
    · rw [hnull, coerce_null] at hitem
      exact .inl (Except.ok.inj hitem).symm
    · exact .inr (ih hnull hitem).2
  | custom name =>
    cases (coerce_eq_ok_iff_convert? hv (by simp)).1 h
    exact ⟨hv, rfl⟩
  | _ =>
    have hw := (coerce_eq_ok_iff_convert? hv (by simp)).1 h
    refine ⟨?_, kind_of_convert? hw⟩
    obtain ⟨x, -, rfl⟩ := Option.map_eq_some_iff.1 hw
    simp

/-- A value of the type is left as it is. -/
theorem coerce_of_hasType (h : w.hasType t = true) : w.coerce t = .ok w := by
  by_cases hw : w = null
  · rw [hw, coerce_null]
  induction t generalizing w with
  | array element ih =>
    cases w with
    | array items =>
      have hitems : items.mapM (coerce element) = .ok items := by
        rw [mapM_eq_ok_iff, List.forall₂_same]
        intro item hitem
        by_cases hnull : item = null
        · rw [hnull, coerce_null]
        · exact ih ((array_hasType.1 h item hitem).resolve_left hnull) hnull
      rw [coerce_array hw]
      exact Except.bind_eq_ok_iff.2 ⟨items, rfl, Except.bind_eq_ok_iff.2 ⟨items, hitems, rfl⟩⟩
    | _ => cases h
  | _ => exact (coerce_eq_ok_iff_convert? hw (by simp)).2 (convert?_of_kind (by simp) h)

/-- A value that has been coerced is left as it is. -/
theorem coerce_again (h : v.coerce t = .ok w) : w.coerce t = .ok w := by
  by_cases hv : v = null
  · rw [hv, coerce_null] at h
    rw [← Except.ok.inj h, coerce_null]
  · exact coerce_of_hasType (hasType_of_coerce hv h).2

/-- **Coercion is sound.** A null stays a null, and nothing else becomes one; all else becomes a
    value of the type, and is not changed at all by a type that is not known. What has been coerced
    is left as it is. -/
theorem coerce_sound (t : DataType) (v w : Value) (h : v.coerce t = .ok w) :
    (w = null ↔ v = null) ∧ (v ≠ null → w.hasType t = true) ∧
      (∀ name, t = .custom name → w = v) ∧ w.coerce t = .ok w := by
  refine ⟨⟨fun hw => ?_, fun hv => ?_⟩, fun hv => (hasType_of_coerce hv h).2, ?_, coerce_again h⟩
  · by_contra hv
    exact (hasType_of_coerce hv h).1 hw
  · rw [hv, coerce_null] at h
    exact (Except.ok.inj h).symm
  · rintro name rfl
    by_cases hv : v = null
    · rw [hv, coerce_null] at h
      rw [hv, Except.ok.inj h]
    · exact (Option.some.inj ((coerce_eq_ok_iff_convert? hv (by simp)).1 h)).symm

/-- An array of arrays in JSON, with a null at each depth. -/
theorem coerce_sound_here :
    (json (.array [.array [.text "f", .null], .null])).coerce (.array (.array .boolean)) =
      .ok (array [array [bool false, null], null]) ∧
    (array [array [bool false, null], null]).hasType (.array (.array .boolean)) = true ∧
    (array [array [bool false, null], null]).coerce (.array (.array .boolean)) =
      .ok (array [array [bool false, null], null]) := by
  have h : (json (.array [.array [.text "f", .null], .null])).coerce (.array (.array .boolean)) =
      .ok (array [array [bool false, null], null]) := rfl
  obtain ⟨-, htype, -, hagain⟩ := coerce_sound _ _ _ h
  exact ⟨h, htype (by simp), hagain⟩

end Value

end QueryPlan
