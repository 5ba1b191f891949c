import QueryPlan.Document.Value
import QueryPlan.Proofs.Calendar.ReadBack
import QueryPlan.Proofs.Document.Parts

/-!
# Reading back types and values

The document of a type is read as that type (`DataType.reads_toDocument`), and the document of a
value as that value (`Value.reads_toDocument`), if

* its doubles are finite: JSON has no other numbers;
* the names in each of its objects are distinct: of two fields with one name only one would be read.
-/

namespace QueryPlan

open Document

/-! ## 1. Types -/

namespace DataType

/-- A name alone is the type of that name. -/
theorem ofDocumentAt?_text (depth : Nat) (tag : String) :
    ofDocumentAt? (depth + 1) (.text tag) =
      (Named.ofName? tag : Option TypeKind).bind ofKind? := by
  rw [ofDocumentAt?]
  simp only [choice?, Option.bind_eq_bind, Option.bind_some]
  exact if_pos rfl

theorem reads_ofNamed {t : DataType} {depth : Nat} (h : ofKind? t.kind = some t) :
    Reads (ofDocumentAt? (depth + 1)) (ofNamed t.kind) t := by
  rw [Reads, ofNamed, Part.ofJson, ofDocumentAt?_text, Named.ofName?_name, Option.bind_some, h]

theorem reads_at (t : DataType) {depth : Nat} (h : t.toDocument.weight ≤ depth + 1) :
    Reads (ofDocumentAt? (depth + 1)) t.toDocument t := by
  induction t generalizing depth with
  | decimal precision scale =>
    have hprecision := optional_ofOption (fun n (_ : n ∈ precision) => reads_uint8 n) rfl
    have hscale := optional_ofOption (fun n (_ : n ∈ scale) => reads_uint8 n) rfl
    rw [Reads, toDocument, ofDocumentAt?, bind_choice?_tagged]
    simp [hprecision, hscale]
  | varchar length =>
    have hlength := optional_ofOption (fun n (_ : n ∈ length) => reads_uint32 n) rfl
    rw [Reads, toDocument, ofDocumentAt?, bind_choice?_tagged]
    simp [hlength]
  | array element ih =>
    rw [toDocument, weight_tagged] at h
    obtain ⟨depth, rfl⟩ : ∃ n, depth = n + 1 :=
      ⟨depth - 1, by have := element.toDocument.weight_pos; omega⟩
    have helement := ih (Nat.le_of_succ_le_succ h)
    rw [Reads, toDocument, ofDocumentAt?, bind_choice?_tagged]
    simp [helement]
  | custom name => rfl
  | _ => exact reads_ofNamed rfl

/-- **Types are read back.** -/
theorem reads_toDocument (t : DataType) : Reads ofDocument? t.toDocument t := by
  rw [Reads, ofDocument?, Part.weight_ofJson]
  exact t.reads_at (Nat.le_succ _)

end DataType

/-! ## 2. Intervals and points -/

theorem Interval.reads_toDocument (i : Interval) : Reads ofDocument? i.toDocument i := by
  rw [Reads, toDocument, ofDocument?]
  simp

theorem Point.reads_pointJson {p : Point} (hx : p.x.isFinite = true) (hy : p.y.isFinite = true) :
    Reads Point.ofDocument? (Value.pointJson p) p := by
  rw [Reads, Value.pointJson, ofDocument?]
  simp [reads_double hx, reads_double hy]

/-! ## 3. Names -/

namespace Json

mutual

/-- No object has two fields of one name, at any depth. -/
def NamesDistinct : Json → Prop
  | array items => NamesDistinctItems items
  | object fields => (fields.map Prod.fst).Nodup ∧ NamesDistinctFields fields
  | _ => True

def NamesDistinctItems : List Json → Prop
  | [] => True
  | item :: rest => NamesDistinct item ∧ NamesDistinctItems rest

def NamesDistinctFields : List (String × Json) → Prop
  | [] => True
  | (_, value) :: rest => NamesDistinct value ∧ NamesDistinctFields rest

end

mutual

/-- Where names are distinct there is none to remove. -/
theorem settle_of_namesDistinct : (j : Json) → j.NamesDistinct → j.settle = j
  | null, _ => rfl
  | bool _, _ => rfl
  | number _, _ => rfl
  | text _, _ => rfl
  | array items, h => by rw [settle, settleItems_of_namesDistinct items h]
  | object fields, h => by
    rw [settle, settleFields_of_namesDistinct fields h.2, Fields.ofList_of_nodup h.1]

theorem settleItems_of_namesDistinct : (items : List Json) → NamesDistinctItems items →
    settleItems items = items
  | [], _ => rfl
  | item :: rest, h => by
    rw [settleItems, settle_of_namesDistinct item h.1, settleItems_of_namesDistinct rest h.2]

theorem settleFields_of_namesDistinct : (fields : List (String × Json)) →
    NamesDistinctFields fields → settleFields fields = fields
  | [], _ => rfl
  | (_, value) :: rest, h => by
    rw [settleFields, settle_of_namesDistinct value h.1, settleFields_of_namesDistinct rest h.2]

end

end Json

namespace Value

mutual

/-- No object in a value has two fields of one name. -/
def NamesDistinct : Value → Prop
  | json j => j.NamesDistinct
  | array items => NamesDistinctItems items
  | object fields => (fields.map Prod.fst).Nodup ∧ NamesDistinctFields fields
  | _ => True

def NamesDistinctItems : List Value → Prop
  | [] => True
  | item :: rest => NamesDistinct item ∧ NamesDistinctItems rest

def NamesDistinctFields : List (String × Value) → Prop
  | [] => True
  | (_, value) :: rest => NamesDistinct value ∧ NamesDistinctFields rest

end

/-! ## 4. Values -/

mutual

/-- The floating-point numbers and the coordinates of points in a value. -/
def doubles : Value → List Double
  | float x => [x]
  | point p => [p.x, p.y]
  | array items => doublesItems items
  | object fields => doublesFields fields
  | _ => []

def doublesItems : List Value → List Double
  | [] => []
  | item :: rest => doubles item ++ doublesItems rest

def doublesFields : List (String × Value) → List Double
  | [] => []
  | (_, value) :: rest => doubles value ++ doublesFields rest

end

/-- The fields of an object, read one by one. -/
theorem fields?_object (read : Part → Option Value) (fields : List (String × Part)) :
    fields? read (.object fields) =
      (fields.mapM fun f => (read f.2).map fun value => (f.1, value)).bind fun pairs =>
        some (Fields.ofList pairs) := rfl

mutual

theorem reads_at : (v : Value) → ∀ {depth : Nat}, v.toDocument.weight ≤ depth →
    (∀ x ∈ v.doubles, x.isFinite = true) → v.NamesDistinct →
    Reads (ofDocumentAt? depth) v.toDocument v
  | v, 0, h, _, _ => absurd v.toDocument.weight_pos (by omega)
  | null, _ + 1, _, _, _ => rfl
  | bool _, _ + 1, _, _, _ => rfl
  | int n, _ + 1, _, _, _ => by
    rw [Reads, toDocument, ofDocumentAt?, bind_choice?_tagged]
    simp [Json.ofInt64_eq]
  | uint n, _ + 1, _, _, _ => by
    rw [Reads, toDocument, ofDocumentAt?, bind_choice?_tagged]
    simp
  | float x, _ + 1, _, hf, _ => by
    have hx := reads_double (hf x List.mem_cons_self)
    rw [Reads, toDocument, ofDocumentAt?, bind_choice?_tagged]
    simp [hx]
  | decimal _, _ + 1, _, _, _ => rfl
  | text _, _ + 1, _, _, _ => rfl
  | bytes b, _ + 1, _, _, _ => by
    have hb := reads_list fun n (_ : n ∈ b) => reads_uint8 n
    rw [Reads, toDocument, ofDocumentAt?, bind_choice?_tagged]
    simp [hb]
  | date d, _ + 1, _, _, _ => by
    rw [Reads, toDocument, ofDocumentAt?, bind_choice?_tagged]
    simp [d.ofPlan?_render]
  | time t, _ + 1, _, _, _ => by
    rw [Reads, toDocument, ofDocumentAt?, bind_choice?_tagged]
    simp [t.ofPlan?_render]
  | timestamp t, _ + 1, _, _, _ => by
    rw [Reads, toDocument, ofDocumentAt?, bind_choice?_tagged]
    simp [t.ofPlan?_render]
  | timestampTz t, _ + 1, _, _, _ => by
    rw [Reads, toDocument, ofDocumentAt?, bind_choice?_tagged]
    simp [t.ofPlan?_renderZulu]
  | interval i, _ + 1, _, _, _ => by
    rw [Reads, toDocument, ofDocumentAt?, bind_choice?_tagged]
    simp [i.reads_toDocument]
  | point p, _ + 1, _, hf, _ => by
    have hp := Point.reads_pointJson (hf p.x (by simp [doubles])) (hf p.y (by simp [doubles]))
    rw [Reads, toDocument, ofDocumentAt?, bind_choice?_tagged]
    simp [hp]
  | json j, _ + 1, _, _, hn => by
    have hj := j.settle_of_namesDistinct hn
    rw [Reads, toDocument, ofDocumentAt?, bind_choice?_tagged]
    simp [Part.toJson?_ofJson, hj]
  | array items, depth + 1, h, hf, hn => by
    rw [toDocument, weight_tagged, Json.weight] at h
    have hitems := reads_items items (Nat.le_of_succ_le (Nat.le_of_succ_le_succ h)) hf hn
    rw [Reads, toDocument, ofDocumentAt?, bind_choice?_tagged]
    simp [Part.ofJson, list?, hitems]
  | object fields, depth + 1, h, hf, hn => by
    rw [toDocument, weight_tagged, Json.weight] at h
    have hfields := reads_fields fields (Nat.le_of_succ_le (Nat.le_of_succ_le_succ h)) hf hn.2
    rw [Reads, toDocument, ofDocumentAt?, bind_choice?_tagged]
    simp [Part.ofJson, fields?_object, hfields, Fields.ofList_of_nodup hn.1]

theorem reads_items : (items : List Value) → ∀ {depth : Nat},
    Json.weightItems (toDocuments items) ≤ depth →
    (∀ x ∈ doublesItems items, x.isFinite = true) → NamesDistinctItems items →
    (Part.ofItems true (toDocuments items)).mapM (ofDocumentAt? depth) = some items
  | [], _, _, _, _ => rfl
  | item :: rest, depth, h, hf, hn => by
    rw [toDocuments, Json.weightItems] at h
    have hitem := reads_at item (Nat.le_of_add_right_le h)
      (fun x hx => hf x (List.mem_append_left _ hx)) hn.1
    have hrest := reads_items rest (Nat.le_of_add_left_le h)
      (fun x hx => hf x (List.mem_append_right _ hx)) hn.2
    rw [toDocuments, Part.ofItems, List.mapM_cons, hitem, hrest]
    rfl

theorem reads_fields : (fields : List (String × Value)) → ∀ {depth : Nat},
    Json.weightFields (toFields fields) ≤ depth →
    (∀ x ∈ doublesFields fields, x.isFinite = true) → NamesDistinctFields fields →
    ((Part.ofFields true (toFields fields)).mapM fun f =>
      (ofDocumentAt? depth f.2).map fun value => (f.1, value)) = some fields
  | [], _, _, _, _ => rfl
  | (name, value) :: rest, depth, h, hf, hn => by
    rw [toFields, Json.weightFields] at h
    have hvalue := reads_at value (Nat.le_of_add_right_le h)
      (fun x hx => hf x (List.mem_append_left _ hx)) hn.1
    have hrest := reads_fields rest (Nat.le_of_add_left_le h)
      (fun x hx => hf x (List.mem_append_right _ hx)) hn.2
    rw [toFields, Part.ofFields, List.mapM_cons, hvalue, hrest]
    rfl

end

/-- **Values are read back** if their doubles are finite and the names in their objects distinct. -/
theorem reads_toDocument {v : Value} (hfinite : ∀ x ∈ v.doubles, x.isFinite = true)
    (hnames : v.NamesDistinct) : Reads ofDocument? v.toDocument v := by
  rw [Reads, ofDocument?, Part.weight_ofJson]
  exact v.reads_at (Nat.le_succ _) hfinite hnames

end Value

end QueryPlan
