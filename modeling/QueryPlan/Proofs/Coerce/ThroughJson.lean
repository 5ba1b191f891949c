import QueryPlan.Proofs.Coerce.Keeping
import QueryPlan.Proofs.Interval.ReadBack

/-!
# Typed values through JSON

JSON has no dates, bytes, points or intervals, and no unsigned integers of its own. A value that
goes through JSON comes back as a text, an object or a signed integer, and coercion to its type
makes the value of it again (`coerce_through_json`). This holds for all types but those of JSON
itself and those that are not known, and for all their values that JSON has a form for
(`Value.survives`).
-/

namespace QueryPlan

/-- Whether a type is known and has no JSON in it. -/
def DataType.isPlain : DataType → Bool
  | json => false
  | custom _ => false
  | array element => element.isPlain
  | _ => true

namespace Value

mutual

/-- Whether the leaves of a value have a form in JSON that is read back: doubles are finite,
    decimals are numerals without blanks around them, and the clock of an interval has a magnitude
    of 64 bits. -/
def survives : Value → Bool
  | float x => x.isFinite
  | decimal s => trimBlank s = s ∧ (Double.ofText? s).isSome
  | interval i => i.micros ≠ Int64.minValue
  | point p => p.x.isFinite && p.y.isFinite
  | array items => surviveAll items
  | _ => true

def surviveAll : List Value → Bool
  | [] => true
  | item :: rest => survives item && surviveAll rest

end

theorem surviveAll_eq_true_iff {items : List Value} :
    surviveAll items = true ↔ ∀ item ∈ items, item.survives = true := by
  induction items with
  | nil => simp [surviveAll]
  | cons item rest ih => simp [surviveAll, ih]

/-! ## 1. Numbers -/

theorem ofJson_ofInt64 (n : Int64) : ofJson (.ofInt64 n) = int n := by
  have hmax : n.toInt ≤ maxInt64 := by
    have hlt := n.toInt_lt
    rw [maxInt64]
    omega
  rw [Json.ofInt64, ofJson, if_pos hmax, Int64.ofInt_toInt]

theorem ofJson_ofDouble {x : Double} (h : x.isFinite = true) : ofJson (.ofDouble x) = float x := by
  rw [Json.ofDouble, dif_pos h, ofJson]

/-- An unsigned integer comes back as a signed one where it fits, and is converted again. -/
theorem toUInt?_ofJson_ofUInt64 (n : UInt64) : (ofJson (.ofUInt64 n)).toUInt? = some n := by
  rw [Json.ofUInt64, ofJson]
  split
  · next hfits =>
    rw [maxInt64] at hfits
    have hint : (Int64.ofInt n.toNat).toInt = n.toNat :=
      Int64.toInt_ofInt_of_le (by omega) (by omega)
    have hnonneg : 0 ≤ (Int64.ofInt n.toNat).toInt := by omega
    change (if 0 ≤ (Int64.ofInt n.toNat).toInt then
      some (UInt64.ofNat (Int64.ofInt n.toNat).toInt.toNat) else none) = some n
    rw [if_pos hnonneg, hint, Int.toNat_natCast, UInt64.ofNat_toNat]
  · change some (UInt64.ofNat (n.toNat : Int).toNat) = some n
    rw [Int.toNat_natCast, UInt64.ofNat_toNat]

/-! ## 2. Texts and points -/

theorem toDecimal?_of_survives {s : String} (h : (decimal s).survives = true) :
    (text s).toDecimal? = some s := by
  have hnumeral : trimBlank s = s ∧ (Double.ofText? s).isSome = true := by
    simpa [survives] using h
  obtain ⟨x, hx⟩ := Option.isSome_iff_exists.1 hnumeral.2
  change (Double.ofText? (trimBlank s)).map (fun _ => trimBlank s) = some s
  rw [hnumeral.1, hx]
  rfl

theorem toBytes?_hexEncode (b : List UInt8) :
    (text (String.ofList (Text.hexEncode b))).toBytes? = some b :=
  bytesOfText?_hexEncode b

theorem toInterval?_render {i : Interval} (h : (interval i).survives = true) :
    (text i.render).toInterval? = some i :=
  Interval.parse_render (by simpa [survives] using h)

theorem toPoint?_ofJson_pointJson {p : Point} (h : (point p).survives = true) :
    (ofJson (pointJson p)).toPoint? = some p := by
  have hfinite : p.x.isFinite = true ∧ p.y.isFinite = true := by simpa [survives] using h
  have hread : (ofJson (pointJson p)).toPoint? =
      Point.ofJson? (ofJson (pointJson p)).toJson := rfl
  rw [hread, toJson_ofJson]
  exact ofJson?_pointJson.2 ⟨hfinite, rfl⟩

/-! ## 3. Types -/

theorem convert?_null {t : DataType} (ht : t.isPlain = true) : null.convert? t = none := by
  cases t with
  | json | custom => cases ht
  | _ => rfl

/-- What comes back from JSON is converted to the value again, if its type is no array. -/
theorem convert?_ofJson_toJson {t : DataType} (ht : t.isPlain = true)
    (harray : ∀ element, t ≠ .array element) {v : Value} (htype : v.hasType t = true)
    (hv : v.survives = true) : (ofJson v.toJson).convert? t = some v := by
  -- Of the kinds of values, one at a time is left by the type.
  cases t with
  | json | custom => cases ht
  | array element => exact absurd rfl (harray element)
  | boolean =>
    cases v with
    | bool b => rfl
    | _ => exact absurd htype Bool.false_ne_true
  | smallInt | integer | bigInt =>
    cases v with
    | int n => rw [toJson, ofJson_ofInt64]; rfl
    | _ => exact absurd htype Bool.false_ne_true
  | unsignedInteger | unsignedBigInt =>
    cases v with
    | uint n => rw [toJson, convert?, toUInt?_ofJson_ofUInt64, Option.map_some]
    | _ => exact absurd htype Bool.false_ne_true
  | real | double =>
    cases v with
    | float x => rw [toJson, ofJson_ofDouble hv]; rfl
    | _ => exact absurd htype Bool.false_ne_true
  | decimal =>
    cases v with
    | decimal s => rw [toJson, ofJson, convert?, toDecimal?_of_survives hv, Option.map_some]
    | _ => exact absurd htype Bool.false_ne_true
  | text | varchar | uuid =>
    cases v with
    | text s => rfl
    | _ => exact absurd htype Bool.false_ne_true
  | bytes =>
    cases v with
    | bytes b => rw [toJson, ofJson, convert?, toBytes?_hexEncode, Option.map_some]
    | _ => exact absurd htype Bool.false_ne_true
  | date =>
    cases v with
    | date d => rw [toJson, ofJson, convert?, toDate?_render, Option.map_some]
    | _ => exact absurd htype Bool.false_ne_true
  | time =>
    cases v with
    | time c => rw [toJson, ofJson, convert?, toTime?_render, Option.map_some]
    | _ => exact absurd htype Bool.false_ne_true
  | timestamp =>
    cases v with
    | timestamp t => rw [toJson, ofJson, convert?, toTimestamp?_render, Option.map_some]
    | _ => exact absurd htype Bool.false_ne_true
  | timestampTz =>
    cases v with
    | timestampTz t => rw [toJson, ofJson, convert?, toTimestampTz?_render, Option.map_some]
    | _ => exact absurd htype Bool.false_ne_true
  | interval =>
    cases v with
    | interval i => rw [toJson, ofJson, convert?, toInterval?_render hv, Option.map_some]
    | _ => exact absurd htype Bool.false_ne_true
  | point =>
    cases v with
    | point p => rw [toJson, convert?, toPoint?_ofJson_pointJson hv, Option.map_some]
    | _ => exact absurd htype Bool.false_ne_true

theorem ofJsonItems_toJsonItems (items : List Value) :
    ofJsonItems (toJsonItems items) = items.map fun item => ofJson item.toJson := by
  induction items with
  | nil => rfl
  | cons item rest ih => rw [toJsonItems, ofJsonItems, ih, List.map_cons]

/-- **A typed value survives JSON.** Made into JSON, read as a plain value and coerced to its type
    it is the value again, item by item for arrays of any depth. -/
theorem coerce_through_json (t : DataType) (v : Value) (ht : t.isPlain = true)
    (htype : v.hasType t = true) (hv : v.survives = true) :
    (ofJson v.toJson).coerce t = .ok v := by
  induction t generalizing v with
  | array element ih =>
    cases v with
    | array items =>
      have hall := surviveAll_eq_true_iff.1 hv
      have hitems : (ofJsonItems (toJsonItems items)).mapM (coerce element) = .ok items := by
        rw [ofJsonItems_toJsonItems, mapM_eq_ok_iff, List.forall₂_map_left_iff, List.forall₂_same]
        intro item hitem
        rcases array_hasType.1 htype item hitem with rfl | hitemType
        · exact coerce_null element
        · exact ih item ht hitemType (hall item hitem)
      rw [toJson, ofJson, coerce_array (by simp)]
      exact Except.bind_eq_ok_iff.2 ⟨_, rfl, Except.bind_eq_ok_iff.2 ⟨items, hitems, rfl⟩⟩
    | _ => exact absurd htype Bool.false_ne_true
  | _ =>
    have hconvert := convert?_ofJson_toJson ht (by simp) htype hv
    refine (coerce_eq_ok_iff_convert? ?_ (by simp)).2 hconvert
    intro hnull
    rw [hnull, convert?_null ht] at hconvert
    cases hconvert

/-- Intervals with signs of both kinds, two arrays deep and with a null at each depth. -/
theorem coerce_through_json_intervals :
    (DataType.array (.array .interval)).isPlain = true ∧
    (array [array [interval ⟨-13, 2, -1⟩, null], null]).hasType (.array (.array .interval)) =
      true ∧
    (array [array [interval ⟨-13, 2, -1⟩, null], null]).survives = true ∧
    (ofJson (array [array [interval ⟨-13, 2, -1⟩, null], null]).toJson).coerce
      (.array (.array .interval)) = .ok (array [array [interval ⟨-13, 2, -1⟩, null], null]) :=
  ⟨rfl, rfl, rfl, coerce_through_json _ _ rfl rfl rfl⟩

end Value

end QueryPlan
