import QueryPlan.Proofs.Calendar.TextColumns
import QueryPlan.Proofs.Coerce.Typing
import QueryPlan.Proofs.Decode.JsonColumns
import QueryPlan.Proofs.Json.ReadBack

/-!
# Values that a type keeps

Coercion may change a value or refuse it. Here it is said for each type which values come out as the
same JSON: those that `suits` it. For a type that is no array this is a matter of the kind of the
value, and of a text that it is written just as a value of the type is. Texts that are read in
another form do not count, such as `2024-01-02 03:04:05` for a timestamp, which is written with `T`.
`coerce_keeps_iff` is the statement for all types.
-/

namespace QueryPlan

namespace Value

/-! ## 1. Forms -/

/-! What a type leaves as it is, of the values that are no null and not wrapped. A text is left if it
    is just what is written for a value of the type. -/

def hasBooleanForm : Value → Prop
  | bool _ => True
  | _ => False

def hasSignedForm : Value → Prop
  | int _ => True
  | uint n => (n.toNat : Int) ≤ maxInt64
  | _ => False

def hasUnsignedForm : Value → Prop
  | uint _ => True
  | int n => 0 ≤ n.toInt
  | _ => False

def hasDoubleForm : Value → Prop
  | float _ => True
  | _ => False

def hasDecimalForm : Value → Prop
  | decimal _ => True
  | text s => trimBlank s = s ∧ (Double.ofText? s).isSome = true
  | _ => False

def hasTextForm : Value → Prop
  | text _ => True
  | decimal _ => True
  | _ => False

def hasBytesForm : Value → Prop
  | bytes _ => True
  | text s => ∃ b, s = String.ofList (Text.hexEncode b)
  | _ => False

def hasDateForm : Value → Prop
  | date _ => True
  | text s => ∃ d : Date, s = d.render
  | _ => False

def hasTimeForm : Value → Prop
  | time _ => True
  | text s => ∃ c : Clock, s = c.render
  | _ => False

def hasTimestampForm : Value → Prop
  | timestamp _ => True
  | text s => ∃ t : Timestamp, s = t.render "T"
  | _ => False

def hasTimestampTzForm : Value → Prop
  | timestampTz _ => True
  | text s => ∃ t : OffsetTimestamp, s = t.render "T"
  | _ => False

def hasIntervalForm : Value → Prop
  | interval _ => True
  | text s => ∃ i, Interval.parse s = some i ∧ s = i.render
  | _ => False

def hasJsonForm : Value → Prop
  | text _ => False
  | bytes _ => False
  | _ => True

def hasPointForm : Value → Prop
  | point _ => True
  | json j => ∃ p : Point, (p.x.isFinite = true ∧ p.y.isFinite = true) ∧ j = pointJson p
  | object fields =>
    ∃ p : Point, (p.x.isFinite = true ∧ p.y.isFinite = true) ∧
      (object fields).toJson = pointJson p
  | _ => False

/-- Whether a type that is no array leaves a value as it is that is no null. Most types look through
    the wrapping as JSON. -/
def keptAs (t : DataType) (v : Value) : Prop :=
  match t with
  | .boolean => v.unwrapScalar.hasBooleanForm
  | .smallInt | .integer | .bigInt => v.unwrapScalar.hasSignedForm
  | .unsignedInteger | .unsignedBigInt => v.unwrapScalar.hasUnsignedForm
  | .real | .double => v.unwrapScalar.hasDoubleForm
  | .decimal _ _ => v.unwrapScalar.hasDecimalForm
  | .text | .varchar _ | .uuid => v.unwrapScalar.hasTextForm
  | .bytes => v.unwrapScalar.hasBytesForm
  | .date => v.unwrapScalar.hasDateForm
  | .time => v.unwrapScalar.hasTimeForm
  | .timestamp => v.unwrapScalar.hasTimestampForm
  | .timestampTz => v.unwrapScalar.hasTimestampTzForm
  | .interval => v.unwrapScalar.hasIntervalForm
  | .json => v.hasJsonForm
  | .point => v.hasPointForm
  | .custom _ => True
  | .array _ => False

theorem toJson_unwrapScalar (v : Value) : v.unwrapScalar.toJson = v.toJson := by
  unfold unwrapScalar
  split
  · rfl
  · rfl
  · exact toJson_ofJson _
  · rfl

/-- A number in JSON is a number without the wrapping. -/
theorem ofJson_number (n : JsonNumber) :
    (∃ k, ofJson (.number n) = int k) ∨ (∃ k, ofJson (.number n) = uint k) ∨
      ∃ x, ofJson (.number n) = float x := by
  cases n with
  | double x h => exact .inr (.inr ⟨x, rfl⟩)
  | integer n h =>
    rw [ofJson]
    split
    · exact .inl ⟨_, rfl⟩
    · exact .inr (.inl ⟨_, rfl⟩)

/-- A type that makes other JSON of a value, or nothing, does not keep it. -/
theorem keeps_nothing {α : Type} {x? : Option α} {json : α → Json} {j : Json}
    (h : ∀ a, x? = some a → json a ≠ j) : (∃ a, x? = some a ∧ json a = j) ↔ False := by
  refine ⟨?_, False.elim⟩
  rintro ⟨a, ha, hjson⟩
  exact h a ha hjson

/-! ## 2. Numbers -/

theorem ofInt64_ofNat {n : UInt64} (h : (n.toNat : Int) ≤ maxInt64) :
    Json.ofInt64 (Int64.ofNat n.toNat) = Json.ofUInt64 n := by
  have hint : (Int64.ofNat n.toNat).toInt = n.toNat :=
    Int64.toInt_ofNat_of_lt (by unfold maxInt64 at h; omega)
  simp only [Json.ofInt64, Json.ofUInt64, hint]

theorem ofUInt64_ofNat {n : Int64} (h : 0 ≤ n.toInt) :
    Json.ofUInt64 (UInt64.ofNat n.toInt.toNat) = Json.ofInt64 n := by
  have hlt := n.toInt_lt
  have hnat : ((UInt64.ofNat n.toInt.toNat).toNat : Int) = n.toInt := by
    rw [UInt64.toNat_ofNat_of_lt' (by unfold UInt64.size; omega)]
    omega
  simp only [Json.ofInt64, Json.ofUInt64, hnat]

theorem ofDouble_cases (x : Double) :
    (∃ h, Json.ofDouble x = .number (.double x h)) ∨ Json.ofDouble x = .null := by
  unfold Json.ofDouble
  split
  · next h => exact .inl ⟨h, rfl⟩
  · exact .inr rfl

theorem ofDouble_ne_integer (x : Double) (n : Int) (h : minInt64 ≤ n ∧ n ≤ maxUInt64) :
    Json.ofDouble x ≠ .number (.integer n h) := by
  rcases ofDouble_cases x with ⟨_, hx⟩ | hx <;> simp [hx]

theorem ofDouble_ne_text (x : Double) (s : String) : Json.ofDouble x ≠ .text s := by
  rcases ofDouble_cases x with ⟨_, hx⟩ | hx <;> simp [hx]

variable (v : Value)

theorem keeps_boolean :
    (∃ b, v.toBool? = some b ∧ (bool b).toJson = v.toJson) ↔ v.unwrapScalar.hasBooleanForm := by
  unfold toBool?
  rw [← toJson_unwrapScalar]
  generalize v.unwrapScalar = u
  cases u <;> simp [hasBooleanForm, toJson, Json.ofInt64, Json.ofUInt64]

theorem keeps_integer :
    (∃ n, v.toInt? = some n ∧ (int n).toJson = v.toJson) ↔ v.unwrapScalar.hasSignedForm := by
  unfold toInt?
  rw [← toJson_unwrapScalar]
  generalize v.unwrapScalar = u
  cases u with
  | uint n =>
    constructor
    · rintro ⟨m, hm, -⟩
      dsimp only at hm
      split at hm
      · assumption
      · cases hm
    · exact fun h => ⟨_, if_pos h, ofInt64_ofNat h⟩
  | float x => exact keeps_nothing fun _ _ h => ofDouble_ne_integer _ _ _ h.symm
  | _ => simp [hasSignedForm, toJson, Json.ofInt64]

theorem keeps_unsigned :
    (∃ n, v.toUInt? = some n ∧ (uint n).toJson = v.toJson) ↔
      v.unwrapScalar.hasUnsignedForm := by
  unfold toUInt?
  rw [← toJson_unwrapScalar]
  generalize v.unwrapScalar = u
  cases u with
  | int n =>
    constructor
    · rintro ⟨m, hm, -⟩
      dsimp only at hm
      split at hm
      · assumption
      · cases hm
    · exact fun h => ⟨_, if_pos h, ofUInt64_ofNat h⟩
  | _ => simp [hasUnsignedForm, toJson, Json.ofUInt64]

theorem keeps_double :
    (∃ x, v.toFloat? = some x ∧ (float x).toJson = v.toJson) ↔ v.unwrapScalar.hasDoubleForm := by
  unfold toFloat?
  rw [← toJson_unwrapScalar]
  generalize v.unwrapScalar = u
  cases u with
  | int n | uint n => exact keeps_nothing fun _ _ => ofDouble_ne_integer _ _ _
  | text s | decimal s => exact keeps_nothing fun _ _ => ofDouble_ne_text _ _
  | _ => simp [hasDoubleForm]

theorem keeps_decimal :
    (∃ s, v.toDecimal? = some s ∧ (decimal s).toJson = v.toJson) ↔
      v.unwrapScalar.hasDecimalForm := by
  unfold toDecimal?
  rw [← toJson_unwrapScalar]
  generalize v.unwrapScalar = u
  cases u with
  | float x => exact keeps_nothing fun _ _ h => ofDouble_ne_text _ _ h.symm
  | text s =>
    constructor
    · rintro ⟨r, hr, hjson⟩
      obtain ⟨x, hx, rfl⟩ := Option.map_eq_some_iff.1 hr
      have htrim : trimBlank s = s := Json.text.inj hjson
      rw [htrim] at hx
      exact ⟨htrim, Option.isSome_of_eq_some hx⟩
    · rintro ⟨htrim, hsome⟩
      obtain ⟨x, hx⟩ := Option.isSome_iff_exists.1 hsome
      refine ⟨s, ?_, rfl⟩
      dsimp only
      rw [htrim, hx]
      rfl
  | _ => simp [hasDecimalForm, toJson, Json.ofInt64, Json.ofUInt64]

/-! ## 3. Texts and bytes -/

theorem keeps_text :
    (∃ s, v.toText? = some s ∧ (text s).toJson = v.toJson) ↔ v.unwrapScalar.hasTextForm := by
  cases v with
  | float x => exact keeps_nothing fun _ _ h => ofDouble_ne_text _ _ h.symm
  | json j =>
    cases j with
    | number n =>
      rcases ofJson_number n with ⟨k, hn⟩ | ⟨k, hn⟩ | ⟨x, hn⟩
      all_goals simp [hasTextForm, toText?, unwrapScalar, hn]
    | _ => simp [hasTextForm, toText?, unwrapScalar, toJson, ofJson]
  | _ => simp [hasTextForm, toText?, unwrapScalar, toJson, Json.ofInt64, Json.ofUInt64]

/-- A text is kept by a type whose values are read back if and only if it is written for one. -/
theorem keeps_spelled {α : Type} (read : String → Option α) (render : α → String)
    (hread : ∀ a, read (render a) = some a) (s : String) :
    (∃ a, read s = some a ∧ Json.text (render a) = .text s) ↔ ∃ a, s = render a := by
  constructor
  · rintro ⟨a, -, hjson⟩
    exact ⟨a, (Json.text.inj hjson).symm⟩
  · rintro ⟨a, rfl⟩
    exact ⟨a, hread a, rfl⟩

/-- What is made into a value that is written in another way is not kept. -/
theorem keeps_rewritten {α : Type} {a : α} {render : α → String} {s : String} (h : render a ≠ s) :
    (∃ b, some a = some b ∧ Json.text (render b) = .text s) ↔ False := by
  refine keeps_nothing fun b hb hjson => h ?_
  cases hb
  exact Json.text.inj hjson

theorem hexDigit_ne {n : Nat} (h : n < 16) {c : Char} (hc : Text.hexValue? c = none) :
    Text.hexDigit n ≠ c := by
  rintro rfl
  rw [Json.hexValue?_hexDigit h] at hc
  cases hc

theorem hexDecode?_hexEncode (b : List UInt8) : Text.hexDecode? (Text.hexEncode b) = some b := by
  induction b with
  | nil => rfl
  | cons x b ih =>
    have hx : x.toNat < 256 := x.toNat_lt
    have hpair : Text.hexPair? (Text.hexDigit (x.toNat / 16)) (Text.hexDigit (x.toNat % 16)) =
        some x := by
      rw [Text.hexPair?, if_neg (by simpa using hexDigit_ne (by omega) rfl),
        Json.hexValue?_hexDigit (by omega), Json.hexValue?_hexDigit (by omega)]
      refine congrArg some (UInt8.toNat_inj.1 ?_)
      rw [UInt8.toNat_ofNat_of_lt' (by unfold UInt8.size; omega)]
      omega
    show (Text.hexPair? _ _ >>= _) = _
    rw [hpair]
    show (Text.hexDecode? (Text.hexEncode b) >>= _) = _
    rw [ih]
    rfl

/-- Bytes in hexadecimal are read as what was written. -/
theorem bytesOfText?_hexEncode (b : List UInt8) :
    bytesOfText? (String.ofList (Text.hexEncode b)) = some b := by
  unfold bytesOfText?
  rw [String.toList_ofList]
  split
  · next hex heq =>
    cases b with
    | nil => cases heq
    | cons x b =>
      have hx : x.toNat < 256 := x.toNat_lt
      exact absurd (List.cons.inj heq).1 (hexDigit_ne (by omega) rfl)
  · rw [hexDecode?_hexEncode]
    rfl

theorem keeps_bytes :
    (∃ b, v.toBytes? = some b ∧ (bytes b).toJson = v.toJson) ↔ v.unwrapScalar.hasBytesForm := by
  have htext := keeps_spelled bytesOfText? _ bytesOfText?_hexEncode
  cases v with
  | text s => exact htext s
  | array items =>
    refine keeps_nothing fun _ _ h => ?_
    cases h
  | json j =>
    cases j with
    | text s => exact htext s
    | array items =>
      refine keeps_nothing fun _ _ h => ?_
      cases h
    | number n =>
      rcases ofJson_number n with ⟨k, hn⟩ | ⟨k, hn⟩ | ⟨x, hn⟩
      all_goals simp [hasBytesForm, toBytes?, unwrapScalar, hn]
    | _ => simp [hasBytesForm, toBytes?, unwrapScalar, ofJson]
  | _ => simp [hasBytesForm, toBytes?, unwrapScalar]

/-! ## 4. Dates and times -/

theorem ne_of_length_lt {s t : String} (h : t.toList.length < s.toList.length) : s ≠ t := by
  rintro rfl
  exact Nat.lt_irrefl _ h

/-- A timestamp is written with more than its date, and with more than its time. -/
theorem render_timestamp_ne (t : Timestamp) :
    t.render "T" ≠ t.date.render ∧ t.render "T" ≠ t.clock.render := by
  have hlength : (t.render "T").toList.length =
      t.date.render.toList.length + (t.clock.render.toList.length + 1) := by
    rw [Timestamp.toList_render, List.length_append, List.length_cons]
  exact ⟨ne_of_length_lt (by omega), ne_of_length_lt (by omega)⟩

theorem render_offsetTimestamp_ne (t : OffsetTimestamp) :
    t.render "T" ≠ t.localTime.date.render := by
  refine ne_of_length_lt ?_
  rw [OffsetTimestamp.toList_render_date, List.length_append, List.length_cons]
  omega

/-- What is written for a date, a time or a timestamp is converted to it. -/
theorem toDate?_render (d : Date) : (text d.render).toDate? = some d := by
  change (Date.ofText? (Text.trim d.render.toList) <|> _) = some d
  rw [Text.trim_of_noBlank (Calendar.noBlank_date d), Date.ofText?_render]
  rfl

theorem toTime?_render (c : Clock) : (text c.render).toTime? = some c := by
  change Clock.ofText? (Text.trim c.render.toList) = some c
  rw [Text.trim_of_noBlank (Calendar.noBlank_clock c), Clock.ofText?_render]

theorem toTimestamp?_render (t : Timestamp) : (text (t.render "T")).toTimestamp? = some t := by
  change timestampOfText? (Text.trim (t.render "T").toList) = some t
  rw [Text.trim_of_noBlank (Calendar.noBlank_timestamp t), timestampOfText?,
    Timestamp.ofText?_render]
  rfl

theorem toTimestampTz?_render (t : OffsetTimestamp) :
    (text (t.render "T")).toTimestampTz? = some t := by
  change (OffsetTimestamp.ofText? (Text.trim (t.render "T").toList) <|> _) = some t
  rw [Text.trim_of_noBlank (Calendar.noBlank_offsetTimestamp t), OffsetTimestamp.ofText?_render]
  rfl

theorem keeps_date :
    (∃ d, v.toDate? = some d ∧ (date d).toJson = v.toJson) ↔ v.unwrapScalar.hasDateForm := by
  unfold toDate?
  rw [← toJson_unwrapScalar]
  generalize v.unwrapScalar = u
  cases u with
  | text s =>
    exact keeps_spelled (fun s => (text s).toDate?) Date.render toDate?_render s
  | timestamp t => exact keeps_rewritten (render_timestamp_ne t).1.symm
  | timestampTz t => exact keeps_rewritten (render_offsetTimestamp_ne t).symm
  | _ => simp [hasDateForm]

theorem keeps_time :
    (∃ c, v.toTime? = some c ∧ (time c).toJson = v.toJson) ↔ v.unwrapScalar.hasTimeForm := by
  unfold toTime?
  rw [← toJson_unwrapScalar]
  generalize v.unwrapScalar = u
  cases u with
  | text s => exact keeps_spelled (fun s => (text s).toTime?) Clock.render toTime?_render s
  | timestamp t => exact keeps_rewritten (render_timestamp_ne t).2.symm
  | _ => simp [hasTimeForm]

theorem keeps_timestamp :
    (∃ t, v.toTimestamp? = some t ∧ (timestamp t).toJson = v.toJson) ↔
      v.unwrapScalar.hasTimestampForm := by
  unfold toTimestamp?
  rw [← toJson_unwrapScalar]
  generalize v.unwrapScalar = u
  cases u with
  | text s =>
    exact keeps_spelled (fun s => (text s).toTimestamp?) (Timestamp.render "T")
      toTimestamp?_render s
  | timestampTz t => exact keeps_rewritten (OffsetTimestamp.render_ne t.utc t)
  | date d => exact keeps_rewritten (render_timestamp_ne (.startOf d)).1
  | _ => simp [hasTimestampForm]

theorem keeps_timestampTz :
    (∃ t, v.toTimestampTz? = some t ∧ (timestampTz t).toJson = v.toJson) ↔
      v.unwrapScalar.hasTimestampTzForm := by
  unfold toTimestampTz?
  rw [← toJson_unwrapScalar]
  generalize v.unwrapScalar = u
  cases u with
  | text s =>
    exact keeps_spelled (fun s => (text s).toTimestampTz?) (OffsetTimestamp.render "T")
      toTimestampTz?_render s
  | timestamp t => exact keeps_rewritten (OffsetTimestamp.render_ne t (.ofUtc t)).symm
  | date d => exact keeps_rewritten (render_offsetTimestamp_ne (.ofUtc (.startOf d)))
  | _ => simp [hasTimestampTzForm]

theorem keeps_interval :
    (∃ i, v.toInterval? = some i ∧ (interval i).toJson = v.toJson) ↔
      v.unwrapScalar.hasIntervalForm := by
  unfold toInterval?
  rw [← toJson_unwrapScalar]
  generalize v.unwrapScalar = u
  cases u with
  | text s =>
    constructor
    · rintro ⟨i, hi, h⟩
      exact ⟨i, hi, (Json.text.inj h).symm⟩
    · rintro ⟨i, hi, h⟩
      exact ⟨i, hi, congrArg Json.text h.symm⟩
  | json j =>
    refine keeps_nothing fun i hi h => ?_
    cases j with
    | object fields => cases h
    | _ => cases hi
  | _ => simp [hasIntervalForm]

/-! ## 5. JSON and points -/

theorem length_hexEncode (b : List UInt8) : (Text.hexEncode b).length = 2 * b.length := by
  induction b with
  | nil => rfl
  | cons x b ih =>
    show (Text.hexEncode b).length + 2 = _
    rw [ih, List.length_cons]
    omega

/-- JSON keeps all but what it reads: no text is the JSON of its own text. -/
theorem keeps_json :
    (∃ j, v.toJson? = some j ∧ (json j).toJson = v.toJson) ↔ v.hasJsonForm := by
  have hparsed : ∀ {r : Except Json.SyntaxError Json} {j : Json},
      jsonOf? r = some j → r = .ok j := by
    intro r j h
    unfold jsonOf? at h
    split at h
    · cases h
      rfl
    · cases h
  cases v with
  | text s =>
    refine keeps_nothing fun j hj h => ?_
    have hsize := Json.size_le_of_parse (hparsed hj)
    cases h
    rw [Json.size] at hsize
    omega
  | bytes b =>
    refine keeps_nothing fun j hj h => ?_
    have hsize := Json.size_le_of_parseBytes (hparsed hj)
    cases h
    rw [Json.size, String.length_ofList, length_hexEncode] at hsize
    omega
  | _ => exact ⟨fun _ => trivial, fun _ => ⟨_, rfl, rfl⟩⟩

theorem double?_ofDouble_eq_some_iff {x y : Double} :
    (Json.ofDouble x).double? = some y ↔ x.isFinite = true ∧ y = x := by
  unfold Json.ofDouble
  split
  · next hfinite =>
    exact ⟨fun h => ⟨hfinite, (Option.some.inj h).symm⟩, fun h => congrArg some h.2.symm⟩
  · next hinfinite =>
    exact ⟨fun h => (Option.some_ne_none _ h.symm).elim, fun h => absurd h.1 hinfinite⟩

/-- The JSON of a point is read as the point if it has both coordinates. -/
theorem ofJson?_pointJson {p q : Point} :
    Point.ofJson? (pointJson p) = some q ↔
      (p.x.isFinite = true ∧ p.y.isFinite = true) ∧ q = p := by
  have hread : Point.ofJson? (pointJson p) = (Json.ofDouble p.x).double?.bind fun x =>
      (Json.ofDouble p.y).double?.bind fun y => some ⟨x, y⟩ := rfl
  rw [hread]
  simp only [Option.bind_eq_some_iff, double?_ofDouble_eq_some_iff]
  constructor
  · rintro ⟨x, ⟨hx, rfl⟩, y, ⟨hy, rfl⟩, hq⟩
    exact ⟨⟨hx, hy⟩, (Option.some.inj hq).symm⟩
  · rintro ⟨⟨hx, hy⟩, rfl⟩
    exact ⟨q.x, ⟨hx, rfl⟩, q.y, ⟨hy, rfl⟩, rfl⟩

theorem keeps_point :
    (∃ p, v.toPoint? = some p ∧ (point p).toJson = v.toJson) ↔ v.hasPointForm := by
  have hjson : ∀ j, (∃ p, Point.ofJson? j = some p ∧ pointJson p = j) ↔
      ∃ p : Point, (p.x.isFinite = true ∧ p.y.isFinite = true) ∧ j = pointJson p := by
    intro j
    constructor
    · rintro ⟨p, hp, rfl⟩
      exact ⟨p, (ofJson?_pointJson.1 hp).1, rfl⟩
    · rintro ⟨p, hfinite, rfl⟩
      exact ⟨p, ofJson?_pointJson.2 ⟨hfinite, rfl⟩, rfl⟩
  cases v with
  | json j => exact hjson j
  | object fields => exact hjson (object fields).toJson
  | text s | bytes b =>
    refine keeps_nothing fun _ _ h => ?_
    cases h
  | _ => simp [hasPointForm, toPoint?]

/-! ## 6. Types -/

/-- What a type that is no array makes of a value is the same JSON if and only if the type leaves
    the value as it is. -/
theorem convert?_keeps_iff {t : DataType} (ht : ∀ element, t ≠ .array element) :
    (∃ w, v.convert? t = some w ∧ w.toJson = v.toJson) ↔ v.keptAs t := by
  have hmap : ∀ {α : Type} (x? : Option α) (wrap : α → Value),
      (∃ w, x?.map wrap = some w ∧ w.toJson = v.toJson) ↔
        ∃ a, x? = some a ∧ (wrap a).toJson = v.toJson := by
    intro α x? wrap
    constructor
    · rintro ⟨w, hw, hjson⟩
      obtain ⟨a, ha, rfl⟩ := Option.map_eq_some_iff.1 hw
      exact ⟨a, ha, hjson⟩
    · rintro ⟨a, rfl, hjson⟩
      exact ⟨wrap a, rfl, hjson⟩
  cases t
  case custom name => exact ⟨fun _ => trivial, fun _ => ⟨v, rfl, rfl⟩⟩
  case array element => exact absurd rfl (ht element)
  all_goals refine (hmap _ _).trans ?_
  case boolean => exact keeps_boolean v
  case smallInt | integer | bigInt => exact keeps_integer v
  case unsignedInteger | unsignedBigInt => exact keeps_unsigned v
  case real | double => exact keeps_double v
  case decimal => exact keeps_decimal v
  case text | varchar | uuid => exact keeps_text v
  case bytes => exact keeps_bytes v
  case date => exact keeps_date v
  case time => exact keeps_time v
  case timestamp => exact keeps_timestamp v
  case timestampTz => exact keeps_timestampTz v
  case interval => exact keeps_interval v
  case json => exact keeps_json v
  case point => exact keeps_point v

/-- An array keeps its JSON if and only if each item does. -/
theorem mapM_keeps_iff (f : Value → Except Error Value) (items : List Value) :
    (∃ ws, items.mapM f = .ok ws ∧ toJsonItems ws = toJsonItems items) ↔
      ∀ item ∈ items, ∃ w, f item = .ok w ∧ w.toJson = item.toJson := by
  induction items with
  | nil => exact ⟨fun _ _ h => absurd h List.not_mem_nil, fun _ => ⟨[], rfl, rfl⟩⟩
  | cons item rest ih =>
    rw [List.forall_mem_cons, ← ih]
    constructor
    · rintro ⟨ws, hws, hjson⟩
      rw [List.mapM_cons] at hws
      obtain ⟨w, hw, hws⟩ := Except.bind_eq_ok_iff.1 hws
      obtain ⟨others, hothers, hws⟩ := Except.bind_eq_ok_iff.1 hws
      cases hws
      obtain ⟨hfirst, hrest⟩ := List.cons.inj hjson
      exact ⟨⟨w, hw, hfirst⟩, others, hothers, hrest⟩
    · rintro ⟨⟨w, hw, hfirst⟩, others, hothers, hrest⟩
      refine ⟨w :: others, ?_, congrArg₂ List.cons hfirst hrest⟩
      rw [List.mapM_cons]
      exact Except.bind_eq_ok_iff.2 ⟨w, hw, Except.bind_eq_ok_iff.2 ⟨others, hothers, rfl⟩⟩

/-- The items of an array, which may be wrapped as JSON. -/
def items? : Value → Option (List Value)
  | array items => some items
  | json (.array items) => some (ofJsonItems items)
  | _ => none

/-- Whether a type leaves a value as it is. -/
def suits : DataType → Value → Prop
  | _, null => True
  | .array element, v => ∃ items, v.items? = some items ∧ ∀ item ∈ items, item.suits element
  | t, v => v.keptAs t

theorem suits_null (t : DataType) : null.suits t := by
  cases t <;> trivial

theorem suits_array {v : Value} (hv : v ≠ null) (element : DataType) :
    v.suits (.array element) =
      ∃ items, v.items? = some items ∧ ∀ item ∈ items, item.suits element := by
  rw [suits]
  exact hv

theorem array_suits_iff {items : List Value} {element : DataType} :
    (array items).suits (.array element) ↔ ∀ item ∈ items, item.suits element := by
  rw [suits_array (by simp)]
  constructor
  · rintro ⟨items', hitems, hall⟩
    cases hitems
    exact hall
  · exact fun hall => ⟨items, rfl, hall⟩

theorem suits_eq_keptAs {v : Value} {t : DataType} (hv : v ≠ null)
    (ht : ∀ element, t ≠ .array element) : v.suits t = v.keptAs t := by
  rw [suits]
  · exact ht
  · exact hv

/-- The items that are taken from a value as an array, with the JSON of the value. -/
theorem toItems_cases {v : Value} {element : DataType} {items : List Value}
    (h : v.toItems element = .ok items) :
    (v.items? = some items ∧ v.toJson = .array (toJsonItems items)) ∨ ∃ s, v = text s := by
  cases v with
  | array xs =>
    cases h
    exact .inl ⟨rfl, rfl⟩
  | json j =>
    cases j with
    | array js =>
      cases h
      exact .inl ⟨rfl, congrArg Json.array (toJsonItems_ofJson js).symm⟩
    | _ => cases h
  | text s => exact .inr ⟨s, rfl⟩
  | _ => cases h

/-- The items are taken for every type of elements alike: only a text is read by it. -/
theorem toItems_of_items? {v : Value} {items : List Value} (h : v.items? = some items)
    (element : DataType) : v.toItems element = .ok items := by
  cases v with
  | array xs => exact congrArg Except.ok (Option.some.inj h)
  | json j =>
    cases j with
    | array js => exact congrArg Except.ok (Option.some.inj h)
    | _ => cases h
  | _ => cases h

theorem null_keeps_iff (t : DataType) :
    (∃ w, null.coerce t = .ok w ∧ w.toJson = null.toJson) ↔ null.suits t := by
  exact ⟨fun _ => suits_null t, fun _ => ⟨null, coerce_null t, rfl⟩⟩

theorem scalar_keeps_iff {t : DataType} (ht : ∀ element, t ≠ .array element) (v : Value) :
    (∃ w, v.coerce t = .ok w ∧ w.toJson = v.toJson) ↔ v.suits t := by
  by_cases hv : v = null
  · subst hv
    exact null_keeps_iff t
  · rw [suits_eq_keptAs hv ht, ← convert?_keeps_iff v ht]
    simp only [coerce_eq_ok_iff_convert? hv ht]

/-- **A value comes out of a coercion as the same JSON if and only if it suits the type.** -/
theorem coerce_keeps_iff (t : DataType) (v : Value) :
    (∃ w, v.coerce t = .ok w ∧ w.toJson = v.toJson) ↔ v.suits t := by
  induction t generalizing v with
  | array element ih =>
    by_cases hv : v = null
    · subst hv
      exact null_keeps_iff _
    rw [suits_array hv, coerce_array hv]
    constructor
    · rintro ⟨w, hw, hjson⟩
      obtain ⟨items, hitems, hw⟩ := Except.bind_eq_ok_iff.1 hw
      obtain ⟨ws, hws, hw⟩ := Except.bind_eq_ok_iff.1 hw
      cases hw
      rcases toItems_cases hitems with ⟨hsome, hv⟩ | ⟨s, rfl⟩
      · rw [hv] at hjson
        refine ⟨items, hsome, fun item hitem => (ih item).1 ?_⟩
        exact (mapM_keeps_iff _ items).1 ⟨ws, hws, Json.array.inj hjson⟩ item hitem
      · cases hjson
    · rintro ⟨items, hsome, hall⟩
      have hitems := toItems_of_items? hsome element
      obtain ⟨ws, hws, hjson⟩ := (mapM_keeps_iff (coerce element) items).2
        fun item hitem => (ih item).2 (hall item hitem)
      refine ⟨array ws, Except.bind_eq_ok_iff.2 ⟨items, hitems,
        Except.bind_eq_ok_iff.2 ⟨ws, hws, rfl⟩⟩, ?_⟩
      rcases toItems_cases hitems with ⟨-, hv⟩ | ⟨s, rfl⟩
      · rw [hv]
        exact congrArg Json.array hjson
      · cases hsome
  | _ => exact scalar_keeps_iff (by simp) v

/-! ## 7. The type that a value implies -/

/-- A value that is no array suits the type that it implies. -/
theorem suits_impliedType {v : Value} {t : DataType} (h : v.impliedType = some t)
    (hv : ∀ items, v ≠ array items) : v.suits t := by
  cases v with
  | array items => exact absurd rfl (hv items)
  | _ => cases h <;> trivial

end Value

end QueryPlan
