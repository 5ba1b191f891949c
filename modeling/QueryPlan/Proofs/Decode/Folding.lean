import QueryPlan.Proofs.Decode.Columns

/-!
# Folded sub-queries

A sub-query whose rows are folded into JSON comes back as one value. What the value may be is said
by `DecodePlan.Conforms`, and the JSON that it is folded into by `DecodePlan.fold`: objects by
label, arrays of them for rows, and an object with one field for each item of a list. On the way
the keys of an object may change their order, and a single row may be wrapped in an array; these
are the forms of `DecodePlan.Folded`. Decoding undoes them all (`DecodePlan.decodeNested_fold`).
-/

namespace QueryPlan

/-! ## 1. Values that fit a plan -/

/-- An object with distinct names whose fields fit. -/
def Value.IsRow (fits : List (String × Value) → Prop) (v : Value) : Prop :=
  ∃ fields, v = .object fields ∧ (fields.map Prod.fst).Nodup ∧ fits fields

mutual

/-- Whether a column may hold a value. A value with a type is one that its JSON leads back to. -/
def DecodeRule.Holds (o : DetectOptions) : DecodeRule → (label : String) → Value → Prop
  | .typed type, _, v => v = .null ∨ (Value.ofJson v.toJson).coerce type = .ok v
  | .nested plan, _, v => plan.Conforms o v
  | .untyped, label, v => o.apply label (.ofJson v.toJson) = v

/-- Whether a value has the form of the result of a sub-query. -/
def DecodePlan.Conforms (o : DetectOptions) : DecodePlan → Value → Prop
  | ⟨_, shape, columns, _, _⟩, v =>
    match shape with
    | .first | .value => v = .null ∨ v.IsRow (fieldsConform o columns)
    | .rows => ∃ rows, v = .array rows ∧ ∀ row ∈ rows, row.IsRow (fieldsConform o columns)
    | .list => ∃ items, v = .array items ∧ ∀ item ∈ items, itemConforms o columns item

/-- Fields for exactly these columns, in order. -/
def fieldsConform (o : DetectOptions) : List ColumnPlan → List (String × Value) → Prop
  | [], fields => fields = []
  | ⟨label, rule⟩ :: columns, fields =>
    ∃ v rest, fields = (label, v) :: rest ∧ rule.Holds o label v ∧ fieldsConform o columns rest

/-- A value for the first column. -/
def itemConforms (o : DetectOptions) : List ColumnPlan → Value → Prop
  | [], _ => False
  | ⟨label, rule⟩ :: _, v => rule.Holds o label v

end

/-! ## 2. Folding -/

/-- A row whose fields are folded. -/
def Value.foldRow (foldFields : List (String × Value) → List (String × Json)) : Value → Json
  | .object fields => .object (foldFields fields)
  | _ => .null

def Value.foldItems (foldItem : Value → Json) : Value → Json
  | .array items => .array (items.map foldItem)
  | _ => .null

mutual

def DecodeRule.fold : DecodeRule → Value → Json
  | .nested plan, v => plan.fold v
  | .typed _, v | .untyped, v => v.toJson

/-- The JSON that the result of a sub-query is folded into. -/
def DecodePlan.fold : DecodePlan → Value → Json
  | ⟨_, shape, columns, _, _⟩, v =>
    match shape with
    | .first | .value => v.foldRow (foldFields columns)
    | .rows => v.foldItems (Value.foldRow (foldFields columns))
    | .list => v.foldItems (foldItem columns)

def foldFields : List ColumnPlan → List (String × Value) → List (String × Json)
  | ⟨label, rule⟩ :: columns, (_, v) :: fields => (label, rule.fold v) :: foldFields columns fields
  | [], _ | _ :: _, [] => []

/-- An item of a list, as a row of its own. -/
def foldItem : List ColumnPlan → Value → Json
  | ⟨label, rule⟩ :: _, v => .object [(label, rule.fold v)]
  | [], v => v.toJson

end

/-- A row whose fields are folded, with its keys in any order. -/
def Value.FoldsTo (folded : List (String × Value) → List (String × Json) → Prop)
    (v : Value) (j : Json) : Prop :=
  ∃ fields ordered keyed, v = .object fields ∧ folded fields ordered ∧ ordered.Perm keyed ∧
    j = .object keyed

mutual

def DecodeRule.Folded : DecodeRule → Value → Json → Prop
  | .nested plan, v, j => plan.Folded v j
  | .typed _, v, j | .untyped, v, j => j = v.toJson

/-- The forms in which a folded result may arrive: the keys of objects in any order, and a single
    row perhaps in an array. -/
def DecodePlan.Folded : DecodePlan → Value → Json → Prop
  | ⟨_, shape, columns, _, _⟩, v, j =>
    match shape with
    | .first | .value =>
      v = .null ∧ j = .null ∨
        ∃ row, v.FoldsTo (fieldsFolded columns) row ∧ (j = row ∨ j = .array [row])
    | .rows =>
      ∃ rows js, v = .array rows ∧ j = .array js ∧
        List.Forall₂ (Value.FoldsTo (fieldsFolded columns)) rows js
    | .list =>
      ∃ items js, v = .array items ∧ j = .array js ∧ List.Forall₂ (itemFolded columns) items js

def fieldsFolded : List ColumnPlan → List (String × Value) → List (String × Json) → Prop
  | [], fields, folded => fields = [] ∧ folded = []
  | ⟨label, rule⟩ :: columns, fields, folded =>
    ∃ v rest j restFolded, fields = (label, v) :: rest ∧ folded = (label, j) :: restFolded ∧
      rule.Folded v j ∧ fieldsFolded columns rest restFolded

def itemFolded : List ColumnPlan → Value → Json → Prop
  | [], _, _ => False
  | ⟨label, rule⟩ :: _, v, j => ∃ k, j = .object [(label, k)] ∧ rule.Folded v k

end

/-! ## 3. Folded values have the form -/

section Forms

variable {o : DetectOptions}

mutual

theorem DecodeRule.folded_fold : (rule : DecodeRule) → ∀ {label : String} {v : Value},
    rule.Holds o label v → rule.Folded v (rule.fold v)
  | .typed _, _, _, _ => by rw [DecodeRule.Folded, DecodeRule.fold]
  | .untyped, _, _, _ => by rw [DecodeRule.Folded, DecodeRule.fold]
  | .nested plan, _, _, h => by
    rw [DecodeRule.Holds] at h
    rw [DecodeRule.Folded, DecodeRule.fold]
    exact plan.folded_fold h

theorem DecodePlan.folded_fold : (plan : DecodePlan) → ∀ {v : Value},
    plan.Conforms o v → plan.Folded v (plan.fold v)
  | ⟨_, shape, columns, _, _⟩, v, h => by
    cases shape with
    | rows =>
      rw [DecodePlan.Conforms] at h
      obtain ⟨rows, rfl, hrows⟩ := h
      rw [DecodePlan.Folded, DecodePlan.fold]
      refine ⟨rows, _, rfl, rfl, ?_⟩
      rw [List.forall₂_map_right_iff, List.forall₂_same]
      exact fun row hmem => rowFolded_fold columns (hrows row hmem)
    | list =>
      rw [DecodePlan.Conforms] at h
      obtain ⟨items, rfl, hitems⟩ := h
      rw [DecodePlan.Folded, DecodePlan.fold]
      refine ⟨items, _, rfl, rfl, ?_⟩
      rw [List.forall₂_map_right_iff, List.forall₂_same]
      exact fun item hmem => itemFolded_fold columns (hitems item hmem)
    | _ =>
      rw [DecodePlan.Conforms] at h
      rw [DecodePlan.Folded, DecodePlan.fold]
      rcases h with rfl | h
      · exact .inl ⟨rfl, rfl⟩
      · exact .inr ⟨_, rowFolded_fold columns h, .inl rfl⟩

theorem rowFolded_fold (columns : List ColumnPlan) {row : Value}
    (h : row.IsRow (fieldsConform o columns)) :
    row.FoldsTo (fieldsFolded columns) (row.foldRow (foldFields columns)) := by
  obtain ⟨fields, rfl, -, hfields⟩ := h
  exact ⟨fields, _, _, rfl, fieldsFolded_fold columns hfields, .refl _, rfl⟩

theorem fieldsFolded_fold : (columns : List ColumnPlan) → ∀ {fields : List (String × Value)},
    fieldsConform o columns fields → fieldsFolded columns fields (foldFields columns fields)
  | [], _, h => by
    rw [fieldsConform] at h
    rw [fieldsFolded, foldFields]
    exact ⟨h, rfl⟩
  | ⟨label, rule⟩ :: columns, _, h => by
    rw [fieldsConform] at h
    obtain ⟨v, rest, rfl, hv, hrest⟩ := h
    rw [fieldsFolded, foldFields]
    exact ⟨v, rest, _, _, rfl, rfl, rule.folded_fold hv, fieldsFolded_fold columns hrest⟩

theorem itemFolded_fold : (columns : List ColumnPlan) → ∀ {v : Value},
    itemConforms o columns v → itemFolded columns v (foldItem columns v)
  | [], _, h => by
    rw [itemConforms] at h
    exact h.elim
  | ⟨label, rule⟩ :: _, v, h => by
    rw [itemConforms] at h
    rw [itemFolded, foldItem]
    exact ⟨_, rfl, rule.folded_fold h⟩

end

/-- A single row that is folded may be wrapped. -/
theorem DecodePlan.folded_wrapped {plan : DecodePlan}
    (hshape : plan.shape = .first ∨ plan.shape = .value) {v : Value} (hnull : v ≠ .null)
    (hv : plan.Conforms o v) :
    plan.Folded v (.array [plan.fold v]) := by
  obtain ⟨statement, shape, columns, affectedOnly, isMutation⟩ := plan
  rcases hshape with rfl | rfl
  all_goals
    rw [DecodePlan.Conforms] at hv
    rw [DecodePlan.Folded, DecodePlan.fold]
    exact .inr ⟨_, rowFolded_fold columns (hv.resolve_left hnull), .inr rfl⟩

end Forms

/-! ## 4. Unfolding -/

theorem Value.ofJsonFields_eq (fields : List (String × Json)) :
    ofJsonFields fields = fields.map fun field => (field.1, ofJson field.2) := by
  induction fields with
  | nil => rfl
  | cons field rest ih => rw [ofJsonFields, ih, List.map_cons]

theorem Value.ofJsonItems_eq (items : List Json) : ofJsonItems items = items.map ofJson := by
  induction items with
  | nil => rfl
  | cons item rest ih => rw [ofJsonItems, ih, List.map_cons]

/-- A value has a part. -/
theorem Value.size_pos (v : Value) : 0 < v.size := by
  cases v <;> simp [Value.size]

/-- A field of a folded row is found under its key, whatever the order of the keys. -/
theorem fieldValue_of_perm {ordered keyed : List (String × Json)} (hperm : ordered.Perm keyed)
    (hnodup : (ordered.map Prod.fst).Nodup) {key : String} {j : Json} (h : (key, j) ∈ ordered) :
    fieldValue (Value.ofJsonFields keyed) key = .ofJson j := by
  have hnames : ((Value.ofJsonFields keyed).map Prod.fst).Nodup := by
    rw [Value.ofJsonFields_eq, List.map_map]
    exact (hperm.map Prod.fst).nodup_iff.1 hnodup
  have hmem : (key, Value.ofJson j) ∈ Value.ofJsonFields keyed := by
    rw [Value.ofJsonFields_eq]
    exact List.mem_map_of_mem (hperm.mem_iff.1 h)
  rw [fieldValue, Fields.get?_of_mem hnames hmem]
  rfl

section Unfolding

variable {o : DetectOptions} {label : String}

/-- The single row of a folded value, alone or in an array. -/
theorem unfoldSingle_row {u : Value} {fields : List (String × Json)} {j : Json}
    (hu : Decode.unfold label u = .ok (.ofJson j))
    (hj : j = .object fields ∨ j = .array [.object fields]) :
    Decode.unfoldSingle label u.size u = .ok (.object (Value.ofJsonFields fields)) := by
  obtain ⟨depth, hdepth⟩ := Nat.exists_eq_succ_of_ne_zero (Nat.ne_of_gt u.size_pos)
  rw [hdepth, Decode.unfoldSingle, hu]
  rcases hj with rfl | rfl
  · rfl
  · cases depth <;> rfl

theorem unfoldSingle_null {u : Value} (hu : Decode.unfold label u = .ok .null) :
    Decode.unfoldSingle label u.size u = .ok .null := by
  obtain ⟨depth, hdepth⟩ := Nat.exists_eq_succ_of_ne_zero (Nat.ne_of_gt u.size_pos)
  rw [hdepth, Decode.unfoldSingle, hu]
  rfl

/-- Folded fields have the labels of their columns. -/
theorem names_of_fieldsFolded {columns : List ColumnPlan} {fields : List (String × Value)}
    {ordered : List (String × Json)} (h : fieldsFolded columns fields ordered) :
    fields.map Prod.fst = columns.map ColumnPlan.label ∧
      ordered.map Prod.fst = columns.map ColumnPlan.label := by
  induction columns generalizing fields ordered with
  | nil =>
    obtain ⟨rfl, rfl⟩ := h
    exact ⟨rfl, rfl⟩
  | cons column columns ih =>
    obtain ⟨label, rule⟩ := column
    rw [fieldsFolded] at h
    obtain ⟨v, rest, j, restFolded, rfl, rfl, -, hrest⟩ := h
    exact ⟨congrArg _ (ih hrest).1, congrArg _ (ih hrest).2⟩

/-- How the columns of a folded row come back, if each is found under its label. -/
def Unfolds (o : DetectOptions) (columns : List ColumnPlan) : Prop :=
  ∀ {fields ordered} {raw : String → Value}, fieldsConform o columns fields →
    fieldsFolded columns fields ordered → (∀ c ∈ ordered, raw c.1 = .ofJson c.2) →
      ∀ position, decodeColumns o (fun _ label => .ok (raw label)) position columns = .ok fields

theorem row_of_folded {columns : List ColumnPlan} {v : Value} {j : Json}
    (hcolumns : Unfolds o columns) (hrow : v.IsRow (fieldsConform o columns))
    (hj : v.FoldsTo (fieldsFolded columns) j) :
    ∃ keyed, j = .object keyed ∧ Decode.row columns (Value.ofJsonFields keyed)
      (fun fields => decodeFields o columns fields []) = .ok v := by
  obtain ⟨fields, rfl, hnodup, hfields⟩ := hrow
  obtain ⟨fields', ordered, keyed, hsame, hfolded, hperm, rfl⟩ := hj
  cases hsame
  obtain ⟨hnames, hkeys⟩ := names_of_fieldsFolded hfolded
  refine ⟨keyed, rfl, ?_⟩
  rw [Decode.row]
  split
  · rename_i hempty
    rw [List.isEmpty_iff] at hempty
    subst hempty
    obtain ⟨rfl, rfl⟩ := hfolded
    rw [List.nil_perm.1 hperm]
    rfl
  · rw [decodeFields_start _ (hnames ▸ hnodup), hcolumns hfields hfolded fun c hc => ?_]
    · rfl
    · exact fieldValue_of_perm hperm (hkeys ▸ hnames ▸ hnodup) hc

/-- A folded result is no text, so it is parsed when it is found inside of another one. -/
theorem DecodePlan.unfold_of_folded {plan : DecodePlan} {v : Value} {j : Json}
    (h : plan.Folded v j) :
    Decode.unfold label (.ofJson j) = .ok (.ofJson j) := by
  obtain ⟨statement, shape, columns, affectedOnly, isMutation⟩ := plan
  cases shape with
  | rows | list =>
    obtain ⟨items, js, -, rfl, -⟩ := h
    rfl
  | first | value =>
    obtain ⟨-, rfl⟩ | ⟨_, ⟨fields, ordered, keyed, -, -, -, rfl⟩, rfl | rfl⟩ := h <;> rfl

mutual

theorem DecodeRule.decode_of_folded : (rule : DecodeRule) →
    ∀ {label : String} {v : Value} {j : Json}, rule.Holds o label v → rule.Folded v j →
      rule.decode o label (.ofJson j) = .ok v
  | .typed type, label, v, j, hv, hj => by
    rw [DecodeRule.Holds] at hv
    rw [DecodeRule.Folded] at hj
    subst hj
    rw [DecodeRule.decode]
    rcases hv with rfl | hv
    · rw [Value.toJson, Value.ofJson, Value.coerce]
      rfl
    · rw [hv]
      rfl
  | .untyped, label, v, j, hv, hj => by
    rw [DecodeRule.Holds] at hv
    rw [DecodeRule.Folded] at hj
    subst hj
    rw [DecodeRule.decode, hv]
  | .nested plan, label, v, j, hv, hj => by
    rw [DecodeRule.Holds] at hv
    rw [DecodeRule.Folded] at hj
    rw [DecodeRule.decode]
    exact plan.decodeNested_of_folded hv hj (DecodePlan.unfold_of_folded hj)

theorem DecodePlan.decodeNested_of_folded : (plan : DecodePlan) →
    ∀ {label : String} {u v : Value} {j : Json}, plan.Conforms o v → plan.Folded v j →
      Decode.unfold label u = .ok (.ofJson j) → plan.decodeNested o label u = .ok v
  | ⟨statement, shape, columns, affectedOnly, isMutation⟩, label, u, v, j, hv, hj, hu => by
    have hcolumns : Unfolds o columns := decodeColumns_of_folded columns
    cases shape with
    | rows =>
      rw [DecodePlan.Conforms] at hv
      rw [DecodePlan.Folded] at hj
      obtain ⟨rows, rfl, hrows⟩ := hv
      obtain ⟨rows', js, hsame, rfl, hjs⟩ := hj
      cases hsame
      rw [DecodePlan.decodeNested]
      refine Except.bind_eq_ok_iff.2 ⟨_, hu, Except.bind_eq_ok_iff.2 ⟨rows, ?_, rfl⟩⟩
      rw [mapM_eq_ok_iff, Value.ofJsonItems_eq, List.forall₂_map_left_iff]
      refine ((List.forall₂_and_left rows js).2 ⟨hrows, hjs⟩).flip.imp fun j row h => ?_
      obtain ⟨keyed, rfl, hrow⟩ := row_of_folded hcolumns h.1 h.2
      exact hrow
    | list =>
      rw [DecodePlan.Conforms] at hv
      rw [DecodePlan.Folded] at hj
      obtain ⟨items, rfl, hitems⟩ := hv
      obtain ⟨items', js, hsame, rfl, hjs⟩ := hj
      cases hsame
      rw [DecodePlan.decodeNested]
      refine Except.bind_eq_ok_iff.2 ⟨_, hu, Except.bind_eq_ok_iff.2 ⟨items, ?_, rfl⟩⟩
      rw [mapM_eq_ok_iff, Value.ofJsonItems_eq, List.forall₂_map_left_iff]
      refine ((List.forall₂_and_left items js).2 ⟨hitems, hjs⟩).flip.imp fun j item h => ?_
      exact decodeItem_of_folded columns h.1 h.2
    | first | value =>
      rw [DecodePlan.Conforms] at hv
      rw [DecodePlan.Folded] at hj
      rw [DecodePlan.decodeNested]
      rcases hj with ⟨rfl, rfl⟩ | ⟨row, hrow, hj⟩
      · exact Except.bind_eq_ok_iff.2 ⟨_, unfoldSingle_null hu, rfl⟩
      · have hv : v.IsRow (fieldsConform o columns) := by
          rcases hv with rfl | hv
          · obtain ⟨_, _, _, h, -⟩ := hrow
            cases h
          · exact hv
        obtain ⟨keyed, rfl, hdecoded⟩ := row_of_folded hcolumns hv hrow
        exact Except.bind_eq_ok_iff.2 ⟨_, unfoldSingle_row hu hj, hdecoded⟩

theorem decodeColumns_of_folded : (columns : List ColumnPlan) → Unfolds o columns
  | [], _, _, _, hfields, _, _, _ => by
    rw [fieldsConform] at hfields
    rw [hfields]
    rfl
  | ⟨label, rule⟩ :: columns, _, _, raw, hfields, hfolded, hraw, position => by
    rw [fieldsConform] at hfields
    rw [fieldsFolded] at hfolded
    obtain ⟨v, rest, rfl, hv, hrest⟩ := hfields
    obtain ⟨v', rest', j, restFolded, hsame, rfl, hj, hrestFolded⟩ := hfolded
    cases hsame
    refine decodeColumns_cons_eq_ok_iff.2 ⟨.ofJson j, v, rest, ?_, ?_, ?_, rfl⟩
    · exact congrArg Except.ok (hraw (label, j) List.mem_cons_self)
    · exact rule.decode_of_folded hv hj
    · exact decodeColumns_of_folded columns hrest hrestFolded
        (fun c hc => hraw c (List.mem_cons_of_mem _ hc)) (position + 1)

theorem decodeItem_of_folded : (columns : List ColumnPlan) → ∀ {v : Value} {j : Json},
    itemConforms o columns v → itemFolded columns v j →
      decodeItem o columns (Decode.listItem (.ofJson j)) = .ok v
  | [], v, j, hv, _ => by
    rw [itemConforms] at hv
    exact hv.elim
  | ⟨label, rule⟩ :: _, v, j, hv, hj => by
    rw [itemConforms] at hv
    rw [itemFolded] at hj
    obtain ⟨k, rfl, hk⟩ := hj
    exact rule.decode_of_folded hv hk

end

end Unfolding

/-- **Decoding a folded sub-query undoes the folding.** A value that fits a plan comes back from the
    JSON that it is folded into, from the same JSON in an array if it is a single row, and from
    every other form in which the JSON may arrive. -/
theorem DecodePlan.decodeNested_fold (o : DetectOptions) (plan : DecodePlan) {v : Value}
    (hv : plan.Conforms o v) (label : String) :
    plan.decodeNested o label (.json (plan.fold v)) = .ok v ∧
      ((plan.shape = .first ∨ plan.shape = .value) → v ≠ .null →
        plan.decodeNested o label (.json (.array [plan.fold v])) = .ok v) ∧
      ∀ j, plan.Folded v j → plan.decodeNested o label (.json j) = .ok v := by
  have hforms : ∀ j, plan.Folded v j → plan.decodeNested o label (.json j) = .ok v :=
    fun j hj => plan.decodeNested_of_folded hv hj rfl
  refine ⟨hforms _ (plan.folded_fold hv), fun hshape hnull => hforms _ ?_, hforms⟩
  exact DecodePlan.folded_wrapped hshape hnull hv

/-- An order with its tags, in an array and with its keys exchanged. -/
theorem DecodePlan.decodeNested_fold_here :
    let tags : DecodePlan := ⟨"select", .list, [⟨"name", .typed .text⟩], false, false⟩
    let plan : DecodePlan :=
      ⟨"select", .first, [⟨"placed", .typed .date⟩, ⟨"tags", .nested tags⟩], false, false⟩
    let v : Value := .object [("placed", .date ⟨2024, 2, 29, by decide, by decide, by decide⟩),
      ("tags", .array [.text "new", .null])]
    let j : Json := .array [.object [
      ("tags", .array [.object [("name", .text "new")], .object [("name", .null)]]),
      ("placed", .text "2024-02-29")]]
    plan.Conforms {} v ∧ plan.Folded v j ∧ plan.decodeNested {} "order" (.json j) = .ok v := by
  intro tags plan v j
  have htags : tags.Conforms {} (.array [.text "new", .null]) :=
    ⟨_, rfl, by rintro item (_ | ⟨_, _ | ⟨_, ⟨⟩⟩⟩) <;> exact .inr rfl⟩
  have hv : plan.Conforms {} v :=
    .inr ⟨_, rfl, by decide, _, _, rfl, .inr rfl, _, _, rfl, htags, rfl⟩
  have hfolded : plan.Folded v j := by
    refine .inr ⟨_, ⟨_, _, _, rfl, ?_, .swap _ _ _, rfl⟩, .inr rfl⟩
    refine ⟨_, _, _, _, rfl, rfl, rfl, _, _, _, _, rfl, rfl, ⟨_, _, rfl, rfl, ?_⟩, rfl, rfl⟩
    exact .cons ⟨_, rfl, rfl⟩ (.cons ⟨_, rfl, rfl⟩ .nil)
  exact ⟨hv, hfolded, (plan.decodeNested_fold {} hv "order").2.2 j hfolded⟩

end QueryPlan
