import Mathlib.Data.List.Induction
import Mathlib.Data.List.Nodup
import Mathlib.Data.List.Perm.Subperm
import QueryPlan.Proofs.Decode.RowForms

/-!
# Rows as arrays

In array mode a row is an array of the values of its columns. The columns are first collected by
their labels, and of columns with one label only the last value is kept, in the place of the first.
`array_mode_keeps_columns_iff` says what comes out for any labels, and that this is the array of all
columns if and only if no two of them have the same label.
-/

namespace QueryPlan

/-! ## 1. Fields that are set in turn -/

namespace Fields

variable {α : Type}

theorem ofList_concat (pairs : List (String × α)) (field : String × α) :
    ofList (pairs ++ [field]) = insert (ofList pairs) field.1 field.2 := by
  rw [ofList, ofList, List.foldl_append]
  rfl

/-- Setting a name that is there changes no names, and a new one is the last. -/
theorem names_insert (fields : List (String × α)) (name : String) (value : α) :
    (insert fields name value).map Prod.fst =
      if name ∈ fields.map Prod.fst then fields.map Prod.fst
      else fields.map Prod.fst ++ [name] := by
  induction fields with
  | nil => rfl
  | cons head rest ih =>
    obtain ⟨key, old⟩ := head
    rw [insert]
    by_cases hkey : key = name
    · rw [if_pos hkey, if_pos (by simp [hkey])]
      rfl
    · have hmem : name ∈ ((key, old) :: rest).map Prod.fst ↔ name ∈ rest.map Prod.fst := by
        simp [Ne.symm hkey]
      rw [if_neg hkey, List.map_cons, ih]
      simp only [hmem]
      split <;> rfl

/-- The names that were set, in the order in which they first came. -/
theorem names_ofList (pairs : List (String × α)) :
    (ofList pairs).map Prod.fst = (pairs.map Prod.fst).eraseDups := by
  induction pairs using List.reverseRecOn with
  | nil => rfl
  | append_singleton pairs field ih =>
    rw [ofList_concat, names_insert, ih, List.map_append, List.map_singleton,
      List.eraseDups_append]
    simp only [List.mem_eraseDups]
    split
    · next hmem => simp [List.removeAll, hmem]
    · next hmem => simp [List.removeAll, hmem, List.eraseDups_cons]

/-- A name has the value that was set last. -/
theorem get?_ofList (pairs : List (String × α)) (name : String) :
    get? (ofList pairs) name = get? pairs.reverse name := by
  induction pairs using List.reverseRecOn with
  | nil => rfl
  | append_singleton pairs field ih =>
    rw [ofList_concat, get?_insert, ih, List.reverse_append, List.reverse_singleton,
      List.singleton_append, get?_cons]

theorem nodup_names_ofList (pairs : List (String × α)) : ((ofList pairs).map Prod.fst).Nodup := by
  induction pairs using List.reverseRecOn with
  | nil => exact List.nodup_nil
  | append_singleton pairs field ih =>
    rw [ofList_concat, names_insert]
    split
    · exact ih
    · next hmem => exact List.concat_eq_append ▸ ih.concat hmem

/-- The values of fields with distinct names, each looked up by its name. -/
theorem values_eq_map_get? {fields : List (String × α)} (h : (fields.map Prod.fst).Nodup) :
    fields.map (some ∘ Prod.snd) = (fields.map Prod.fst).map (get? fields) := by
  rw [List.map_map]
  refine List.map_congr_left fun field hfield => ?_
  exact (get?_of_mem h hfield).symm

/-- No field is lost if and only if the names are distinct. -/
theorem length_ofList_eq_iff (pairs : List (String × α)) :
    (ofList pairs).length = pairs.length ↔ (pairs.map Prod.fst).Nodup := by
  constructor
  · intro h
    have hnodup := nodup_names_ofList pairs
    have hsub : ((ofList pairs).map Prod.fst).Subperm (pairs.map Prod.fst) := by
      refine List.subperm_of_subset hnodup fun name hname => ?_
      rwa [names_ofList, List.mem_eraseDups] at hname
    have hlength : (pairs.map Prod.fst).length = ((ofList pairs).map Prod.fst).length := by
      rw [List.length_map, List.length_map, h]
    exact (hsub.perm_of_length_le (Nat.le_of_eq hlength)).nodup_iff.1 hnodup
  · intro h
    rw [ofList_of_nodup h]

end Fields

/-! ## 2. Columns that are decoded in turn -/

/-- The columns of a list of values are decoded in order and then set in turn. -/
theorem columns_positional_eq_ok_iff {d : Decoder} {index : Nat} {values : List Value}
    (hne : d.plan.columns ≠ []) {fields : List (String × Value)} :
    d.columns index (.positional values) = .ok fields ↔
      values.length = d.plan.columns.length ∧
        ∃ pairs, decodeInOrder d.options.detect d.plan.columns values = .ok pairs ∧
          fields = Fields.ofList pairs := by
  have hempty : ¬d.plan.columns.isEmpty = true := by rwa [List.isEmpty_iff]
  rw [Decoder.columns, if_neg hempty]
  by_cases hlength : values.length = d.plan.columns.length
  · have hwidth : ¬(RawRow.positional values).length ≠ d.plan.columns.length := not_not.2 hlength
    rw [if_neg hwidth, columnsFrom_eq_foldl, decodeColumns_positional hlength,
      Except.map_eq_ok_iff]
    constructor
    · rintro ⟨pairs, hpairs, rfl⟩
      exact ⟨hlength, pairs, hpairs, rfl⟩
    · rintro ⟨-, pairs, hpairs, rfl⟩
      exact ⟨pairs, hpairs, rfl⟩
  · rw [if_pos (show (RawRow.positional values).length ≠ d.plan.columns.length from hlength)]
    constructor
    · intro h
      cases h
    · rintro ⟨h, -⟩
      exact absurd h hlength

/-! ## 3. Rows as arrays -/

/-- The value of the last column with a label. -/
def lastValue (labels : List String) (values : List Value) (label : String) : Value :=
  (Fields.get? (labels.zip values).reverse label).getD .null

theorem values_ofList_zip {labels : List String} {values : List Value}
    (h : labels.length = values.length) :
    (Fields.ofList (labels.zip values)).map Prod.snd =
      labels.eraseDups.map (lastValue labels values) := by
  have hnames : (Fields.ofList (labels.zip values)).map Prod.fst = labels.eraseDups := by
    rw [Fields.names_ofList, List.map_fst_zip (Nat.le_of_eq h)]
  have hvalues := Fields.values_eq_map_get? (Fields.nodup_names_ofList (labels.zip values))
  have hget : (fun name => (Fields.get? (Fields.ofList (labels.zip values)) name).getD .null) =
      lastValue labels values :=
    funext fun name => by rw [Fields.get?_ofList, lastValue]
  rw [← hnames, ← hget]
  have hmapped := congrArg (List.map (Option.getD · .null)) hvalues
  rwa [List.map_map, List.map_map] at hmapped

/-- **Array mode keeps all columns exactly if their labels differ.** A row of values that is decoded
    has a value for each column, decoded by the rule of the column. The result is an array with one
    item for each label, in the order in which the labels first come, which is the value of the last
    column with that label. So it is the array of all columns if and only if the labels are
    distinct. -/
theorem array_mode_keeps_columns_iff (d : Decoder) (index : Nat) (values : List Value)
    (result : Value) (hmode : d.options.arrayMode = true) (hne : d.plan.columns ≠ [])
    (h : d.decodeRow index (.positional values) = .ok result) :
    ∃ decoded : List Value,
      values.length = d.plan.columns.length ∧ decoded.length = d.plan.columns.length ∧
      (∀ (k : Nat) (column : ColumnPlan) (v : Value), d.plan.columns[k]? = some column →
        values[k]? = some v → ∃ w, decoded[k]? = some w ∧
          column.rule.decode d.options.detect column.label v = .ok w) ∧
      result = .array (d.plan.labels.eraseDups.map (lastValue d.plan.labels decoded)) ∧
      (result = .array decoded ↔ d.plan.labels.Nodup) := by
  rw [Decoder.decodeRow] at h
  obtain ⟨fields, hfields, h⟩ := Except.bind_eq_ok_iff.1 h
  rw [hmode, if_pos rfl] at h
  obtain rfl : .array (fields.map Prod.snd) = result := Except.ok.inj h
  obtain ⟨hlength, pairs, hpairs, rfl⟩ := (columns_positional_eq_ok_iff hne).1 hfields
  have hlabels : pairs.map Prod.fst = d.plan.labels := names_of_decodeInOrder hlength hpairs
  have hzip : d.plan.labels.zip (pairs.map Prod.snd) = pairs := by
    rw [← hlabels]
    exact (List.zip_of_prod rfl rfl).symm
  have hsteps := mapM_eq_ok_iff.1 hpairs
  have hcount : pairs.length = d.plan.columns.length := by
    rw [← hsteps.length_eq, List.length_zip, hlength, Nat.min_self]
  refine ⟨pairs.map Prod.snd, hlength, (List.length_map _).trans hcount, ?_, ?_, ?_⟩
  · intro k column v hcolumn hv
    have hpair? : (d.plan.columns.zip values)[k]? = some (column, v) :=
      List.getElem?_zip_eq_some.2 ⟨hcolumn, hv⟩
    obtain ⟨hk, hpair⟩ := List.getElem?_eq_some_iff.1 hpair?
    have hk' : k < pairs.length := hsteps.length_eq ▸ hk
    have hstep := hsteps.get hk hk'
    rw [List.get_eq_getElem, List.get_eq_getElem, hpair] at hstep
    obtain ⟨w, hw, hfield⟩ := Except.map_eq_ok_iff.1 hstep
    refine ⟨w, ?_, hw⟩
    rw [List.getElem?_map, List.getElem?_eq_getElem hk', ← hfield]
    rfl
  · have hwidth : d.plan.labels.length = (pairs.map Prod.snd).length := by
      rw [← hlabels, List.length_map, List.length_map]
    have hvalues := values_ofList_zip hwidth
    rw [hzip] at hvalues
    rw [hvalues]
  · rw [← hlabels, ← Fields.length_ofList_eq_iff]
    constructor
    · intro hall
      have hitems := congrArg List.length (Value.array.inj hall)
      rwa [List.length_map, List.length_map] at hitems
    · intro hall
      rw [Fields.ofList_of_nodup ((Fields.length_ofList_eq_iff pairs).1 hall)]

/-- Two columns with the label `id`, as a join has them. -/
def DecodePlan.ofTwoIds : DecodePlan :=
  ⟨"select", .rows, [⟨"id", .typed .bigInt⟩, ⟨"name", .typed .text⟩, ⟨"id", .typed .bigInt⟩], false,
    false⟩

/-- Of the two columns the second is left, in the place of the first, though both are decoded. -/
theorem array_mode_keeps_columns_here :
    let d : Decoder := ⟨.ofTwoIds, { arrayMode := true }⟩
    let values : List Value := [.text "1", .text "Ada", .text "2"]
    d.decodeRow 0 (.positional values) = .ok (.array [.int 2, .text "Ada"]) ∧
      ∃ decoded : List Value, decoded.length = 3 ∧ decoded[0]? = some (.int 1) ∧
        decoded[2]? = some (.int 2) ∧
        d.decodeRow 0 (.positional values) ≠ .ok (.array decoded) := by
  intro d values
  have hrow : d.decodeRow 0 (.positional values) = .ok (.array [.int 2, .text "Ada"]) := rfl
  obtain ⟨decoded, -, hcount, hcolumn, -, hiff⟩ :=
    array_mode_keeps_columns_iff d 0 values _ rfl (List.cons_ne_nil _ _) hrow
  obtain ⟨first, hfirst, hdecode⟩ := hcolumn 0 _ _ rfl rfl
  obtain ⟨last, hlast, hdecode'⟩ := hcolumn 2 _ _ rfl rfl
  obtain rfl : .int 1 = first := Except.ok.inj hdecode
  obtain rfl : .int 2 = last := Except.ok.inj hdecode'
  refine ⟨hrow, decoded, hcount, hfirst, hlast, fun hall => ?_⟩
  have hsame : Value.array [.int 2, .text "Ada"] = .array decoded :=
    Except.ok.inj (hrow.symm.trans hall)
  exact absurd (hiff.1 hsame) (by decide)

end QueryPlan
