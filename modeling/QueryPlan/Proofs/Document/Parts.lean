import QueryPlan.Document.Basic
import QueryPlan.Proofs.Json.Numbers

/-!
# Reading back the pieces of a document

`Document.Reads read doc a` says that a reader makes `a` of the document `doc` as it stands in a
text. Each way to put documents together has its rule here, so that what a type writes is read back
if what it writes for its fields is:

* leaves: texts, truth values, numbers and names (`reads_text` and the rules beside it);
* lists, pairs and what may be missing (`reads_list`, `reads_pair`, `optional_ofOption`);
* the fields of a record or of an alternative, if their names are distinct
  (`recordFields?_object`, `contentFields?_object`).
-/

namespace QueryPlan

/-! ## 1. The parts of a value -/

namespace Part

variable {inText : Bool}

theorem ofItems_eq_map (items : List Json) : ofItems inText items = items.map (ofJson inText) := by
  induction items with
  | nil => rfl
  | cons item rest ih => rw [ofItems, ih, List.map_cons]

theorem ofFields_eq_map (fields : List (String × Json)) :
    ofFields inText fields = fields.map fun f => (f.1, ofJson inText f.2) := by
  induction fields with
  | nil => rfl
  | cons head rest ih => rw [ofFields, ih, List.map_cons]

mutual

/-- A part of a value gives that value back. -/
theorem toJson?_ofJson : (j : Json) → (ofJson inText j).toJson? = some j
  | .null => rfl
  | .bool _ => rfl
  | .number _ => rfl
  | .text _ => rfl
  | .array items => by rw [ofJson, toJson?, toItems?_ofItems items]; rfl
  | .object fields => by rw [ofJson, toJson?, toFields?_ofFields fields]; rfl

theorem toItems?_ofItems : (items : List Json) → toItems? (ofItems inText items) = some items
  | [] => rfl
  | item :: rest => by
    rw [ofItems, toItems?, toJson?_ofJson item, toItems?_ofItems rest]
    rfl

theorem toFields?_ofFields : (fields : List (String × Json)) →
    toFields? (ofFields inText fields) = some fields
  | [] => rfl
  | (_, value) :: rest => by
    rw [ofFields, toFields?, toJson?_ofJson value, toFields?_ofFields rest]
    rfl

end

mutual

theorem weight_ofJson : (j : Json) → (ofJson inText j).weight = j.weight
  | .null => rfl
  | .bool _ => rfl
  | .number _ => rfl
  | .text _ => rfl
  | .array items => by rw [ofJson, weight, Json.weight, weightItems_ofItems items]
  | .object fields => by rw [ofJson, weight, Json.weight, weightFields_ofFields fields]

theorem weightItems_ofItems : (items : List Json) →
    weightItems (ofItems inText items) = Json.weightItems items
  | [] => rfl
  | item :: rest => by
    rw [ofItems, weightItems, Json.weightItems, weight_ofJson item, weightItems_ofItems rest]

theorem weightFields_ofFields : (fields : List (String × Json)) →
    weightFields (ofFields inText fields) = Json.weightFields fields
  | [] => rfl
  | (_, value) :: rest => by
    rw [ofFields, weightFields, Json.weightFields, weight_ofJson value,
      weightFields_ofFields rest]

end

end Part

namespace Json

theorem weight_pos (j : Json) : 0 < j.weight := by
  cases j <;> simp [weight]

theorem weight_object (fields : List (String × Json)) :
    (object fields).weight = weightFields fields + 1 := rfl

theorem ofInt64_eq (n : Int64) : ofInt64 n = ofInt n.toInt :=
  (ofInt_of_range _).symm

theorem ofUInt64_eq (n : UInt64) : ofUInt64 n = ofInt n.toNat :=
  (ofInt_of_range _).symm

/-- Nothing in a list weighs more than the list. -/
theorem weight_le_weightItems {item : Json} {items : List Json} (h : item ∈ items) :
    item.weight ≤ weightItems items := by
  induction items with
  | nil => cases h
  | cons head rest ih =>
    rw [weightItems]
    rcases List.mem_cons.1 h with rfl | hrest
    · exact Nat.le_add_right _ _
    · exact Nat.le_trans (ih hrest) (Nat.le_add_left _ _)

end Json

namespace Document

variable {α β : Type}

/-- A reader makes a value of a document that stands in a text. -/
abbrev Reads (read : Part → Option α) (doc : Json) (a : α) : Prop :=
  read (.ofJson true doc) = some a

/-! ## 2. Leaves -/

@[simp] theorem reads_text (s : String) : Reads text? (.text s) s := rfl

@[simp] theorem reads_bool (b : Bool) : Reads bool? (.bool b) b := rfl

@[simp] theorem reads_named {κ : Type} [Named κ] (k : κ) : Reads named? (ofNamed k) k :=
  Named.ofName?_name k

theorem reads_double {x : Double} (h : x.isFinite = true) : Reads double? (.ofDouble x) x := by
  rw [Reads, Json.ofDouble_of_finite h]
  rfl

/-- An integer is read where its bounds are within those of all integers. -/
theorem reads_integerIn {least greatest n : Int} (h : least ≤ n ∧ n ≤ greatest)
    (hleast : minInt64 ≤ least) (hgreatest : greatest ≤ maxUInt64) :
    Reads (integerIn? least greatest) (.ofInt n) n := by
  rw [Reads, Json.ofInt_of_range ⟨Int.le_trans hleast h.1, Int.le_trans h.2 hgreatest⟩]
  exact if_pos h

@[simp] theorem reads_int64 (n : Int64) : Reads int64? (.ofInt n.toInt) n := by
  have hrange : minInt64 ≤ n.toInt ∧ n.toInt ≤ maxInt64 := by
    have hle := n.le_toInt
    have hlt := n.toInt_lt
    unfold minInt64 maxInt64
    omega
  have h := reads_integerIn hrange (by decide) (by decide)
  rw [Reads, int64?, h, Option.map_some, Int64.ofInt_toInt]

@[simp] theorem reads_int32 (n : Int32) : Reads int32? (.ofInt n.toInt) n := by
  have hrange : minInt32 ≤ n.toInt ∧ n.toInt ≤ maxInt32 := by
    have hle := n.le_toInt
    have hlt := n.toInt_lt
    unfold minInt32 maxInt32
    omega
  have h := reads_integerIn hrange (by decide) (by decide)
  rw [Reads, int32?, h, Option.map_some, Int32.ofInt_toInt]

@[simp] theorem reads_uint64 (n : UInt64) : Reads uint64? (.ofUInt64 n) n := by
  have hrange : (0 : Int) ≤ n.toNat ∧ (n.toNat : Int) ≤ maxUInt64 := by
    have hlt := n.toNat_lt
    unfold maxUInt64
    omega
  have h := reads_integerIn hrange (by decide) (by decide)
  rw [Reads, uint64?, Json.ofUInt64_eq, h, Option.map_some, Int.toNat_natCast, UInt64.ofNat_toNat]

@[simp] theorem reads_uint32 (n : UInt32) : Reads uint32? (.ofNat n.toNat) n := by
  have hrange : (0 : Int) ≤ n.toNat ∧ (n.toNat : Int) ≤ maxUInt32 := by
    have hlt := n.toNat_lt
    unfold maxUInt32
    omega
  have h := reads_integerIn hrange (by decide) (by decide)
  rw [Reads, uint32?, Json.ofNat, h, Option.map_some, Int.toNat_natCast, UInt32.ofNat_toNat]

@[simp] theorem reads_uint8 (n : UInt8) : Reads uint8? (.ofNat n.toNat) n := by
  have hrange : (0 : Int) ≤ n.toNat ∧ (n.toNat : Int) ≤ 255 := by
    have hlt := n.toNat_lt
    omega
  have h := reads_integerIn hrange (by decide) (by decide)
  rw [Reads, uint8?, Json.ofNat, h, Option.map_some, Int.toNat_natCast, UInt8.ofNat_toNat]

/-! ## 3. Lists, pairs and what may be missing -/

variable {read : Part → Option α} {doc : α → Json}

/-- Steps that succeed at each member of a list give the list of their results. -/
theorem mapM_map_eq_some {γ : Type} {f : γ → Option β} {g : α → γ} {result : α → β}
    {list : List α} (h : ∀ a ∈ list, f (g a) = some (result a)) :
    (list.map g).mapM f = some (list.map result) := by
  induction list with
  | nil => rfl
  | cons a rest ih =>
    rw [List.map_cons, List.mapM_cons, h a List.mem_cons_self,
      ih fun b hb => h b (List.mem_cons_of_mem a hb)]
    rfl

theorem reads_list {list : List α} (h : ∀ a ∈ list, Reads read (doc a) a) :
    Reads (list? read) (.array (list.map doc)) list := by
  have hlist := mapM_map_eq_some h
  rw [List.map_id'] at hlist
  rw [Reads, Part.ofJson, Part.ofItems_eq_map, List.map_map]
  exact hlist

theorem reads_pair {left : Part → Option α} {right : Part → Option β} {ja jb : Json} {a : α}
    {b : β} (ha : Reads left ja a) (hb : Reads right jb b) :
    Reads (pair? left right) (.array [ja, jb]) (a, b) := by
  have hpair : pair? left right (.ofJson true (.array [ja, jb])) =
      (left (.ofJson true ja)).bind fun a => (right (.ofJson true jb)).bind fun b =>
        some (a, b) := rfl
  rw [Reads, hpair, ha, hb]
  rfl

@[simp] theorem reads_texts (texts : List String) : Reads (list? text?) (.ofTexts texts) texts :=
  reads_list fun s _ => reads_text s

@[simp] theorem needed_some (p : Part) : needed read (some p) = read p := rfl

/-- What may be missing is read as it was written, if `null` is not a document. -/
theorem optional_ofOption {o : Option α} (h : ∀ a ∈ o, Reads read (doc a) a)
    (hnull : read .null = none) :
    optional read (some (.ofJson true (.ofOption doc o))) = some o := by
  cases o with
  | none => rfl
  | some a =>
    have ha : read (.ofJson true (doc a)) = some a := h a rfl
    rw [Json.ofOption]
    cases hpart : Part.ofJson true (doc a) <;> rw [hpart] at ha
    case null => rw [hnull] at ha; cases ha
    all_goals exact congrArg (Option.map some) ha

/-! ## 4. Records and alternatives -/

/-- If names are distinct, only one field has the name of a field. -/
theorem filter_of_mem {fields : List (String × Part)} (hnames : (fields.map Prod.fst).Nodup)
    {field : String × Part} (h : field ∈ fields) :
    (fields.filter fun f => f.1 == field.1) = [field] := by
  induction fields with
  | nil => cases h
  | cons head rest ih =>
    rw [List.map_cons, List.nodup_cons] at hnames
    rcases List.mem_cons.1 h with rfl | hrest
    · have hothers : (rest.filter fun f => f.1 == field.1) = [] := by
        rw [List.filter_eq_nil_iff]
        intro f hf he
        exact hnames.1 (List.mem_map.2 ⟨f, hf, beq_iff_eq.1 he⟩)
      rw [List.filter_cons, if_pos (beq_self_eq_true field.1), hothers]
    · have hne : head.1 ≠ field.1 := fun he => hnames.1 (List.mem_map.2 ⟨field, hrest, he.symm⟩)
      rw [List.filter_cons, if_neg (by simpa using hne)]
      exact ih hnames.2 hrest

theorem mapM_field? {names : List String} {fields : List (String × Json)}
    (hfields : fields.map Prod.fst = names) (hnames : names.Nodup) :
    names.mapM (field? (Part.ofFields true fields)) =
      some (fields.map fun f => some (.ofJson true f.2)) := by
  subst hfields
  refine mapM_map_eq_some fun field hfield => ?_
  have hparts : ((Part.ofFields true fields).map Prod.fst).Nodup := by
    rw [Part.ofFields_eq_map, List.map_map]
    exact hnames
  have hmem : (field.1, Part.ofJson true field.2) ∈ Part.ofFields true fields := by
    rw [Part.ofFields_eq_map]
    exact List.mem_map_of_mem hfield
  have hfilter := filter_of_mem hparts hmem
  simp only [field?, hfilter]

variable {names : List String} {fields : List (String × Json)}

/-- A record that is written with all its fields is read field by field. -/
@[simp] theorem recordFields?_object (hfields : fields.map Prod.fst = names)
    (hnames : names.Nodup) :
    recordFields? names (.ofJson true (.object fields)) =
      some (fields.map fun f => some (.ofJson true f.2)) :=
  mapM_field? hfields hnames

/-- So is the content of an alternative. -/
@[simp] theorem contentFields?_object (hfields : fields.map Prod.fst = names)
    (hnames : names.Nodup) :
    contentFields? names (.ofJson true (.object fields)) =
      some (fields.map fun f => some (.ofJson true f.2)) :=
  mapM_field? hfields hnames

/-- An alternative is found by its tag. -/
theorem bind_choice?_tagged (tag : String) (content : Json)
    (next : String × Option Part → Option α) :
    (choice? (.ofJson true (tagged tag content)) >>= next) =
      next (tag, some (.ofJson true content)) := rfl

theorem weight_tagged (tag : String) (content : Json) :
    (tagged tag content).weight = content.weight + 1 := rfl

end Document

end QueryPlan
