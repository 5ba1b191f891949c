import QueryPlan.Proofs.Decode.Columns

/-!
# Forms of a row

A row comes as a list of values, as values by name, or as the object of a folded sub-query. Values
are then picked by position, by look-up, or by taking them out of the object. If the labels of the
columns are distinct, all three come to the same: the values in the order of the plan, each decoded
by the rule of its column, up to the first error (`decodeInOrder`).
-/

namespace QueryPlan

/-- Decodes values that stand in the order of their columns. -/
def decodeInOrder (o : DetectOptions) (columns : List ColumnPlan) (values : List Value) :
    Except Error (List (String × Value)) :=
  (columns.zip values).mapM fun pair =>
    (pair.1.rule.decode o pair.1.label pair.2).map (Prod.mk pair.1.label)

section Columns

variable {o : DetectOptions} {raw : Nat → String → Except Error Value}

/-- If the raw value of each column is the one that stands in its place, the columns are decoded in
    order. -/
theorem decodeColumns_eq_decodeInOrder {columns : List ColumnPlan} {values : List Value}
    (position : Nat) (hlength : values.length = columns.length)
    (h : ∀ i column v, columns[i]? = some column → values[i]? = some v →
      raw (position + i) column.label = .ok v) :
    decodeColumns o raw position columns = decodeInOrder o columns values := by
  induction columns generalizing position values with
  | nil => rfl
  | cons column columns ih =>
    cases values with
    | nil => cases hlength
    | cons v values =>
      have hfirst : raw position column.label = .ok v := h 0 column v rfl rfl
      have hrest := ih (position + 1) (Nat.succ.inj hlength) fun i column' v' hcolumn hv => by
        rw [Nat.add_assoc, Nat.add_comm 1 i]
        exact h (i + 1) column' v' hcolumn hv
      rw [decodeColumns, hfirst, hrest, decodeInOrder, decodeInOrder, List.zip_cons_cons,
        List.mapM_cons]
      cases hw : column.rule.decode o column.label v with
      | error e | ok w => simp [hw, bind, Except.bind, Except.map]

/-- Columns that are decoded in order have the labels of their plans. -/
theorem names_of_decodeInOrder {columns : List ColumnPlan} {values : List Value}
    {out : List (String × Value)} (hlength : values.length = columns.length)
    (h : decodeInOrder o columns values = .ok out) :
    out.map Prod.fst = columns.map ColumnPlan.label := by
  have hcolumns : decodeColumns o (fun i _ => .ok (values.getD i .null)) 0 columns =
      decodeInOrder o columns values := by
    refine decodeColumns_eq_decodeInOrder 0 hlength fun i column v _ hv => ?_
    rw [Nat.zero_add, List.getD_eq_getElem?_getD, hv]
    rfl
  rw [← hcolumns] at h
  exact names_of_decodeColumns h

end Columns

/-! ## 1. Values by name -/

section Names

variable {plan : DecodePlan} {values : List Value} {fields : List (String × Value)}

/-- A value is found under the label of the column in its place, whatever the order of the names. -/
theorem get?_of_perm (hlabels : plan.labels.Nodup) (hlength : values.length = plan.columns.length)
    (hfields : (plan.labels.zip values).Perm fields) {i : Nat} {column : ColumnPlan} {v : Value}
    (hcolumn : plan.columns[i]? = some column) (hv : values[i]? = some v) :
    Fields.get? fields column.label = some v := by
  have hcount : plan.labels.length = values.length := (List.length_map _).trans hlength.symm
  have hnames : (fields.map Prod.fst).Nodup := by
    refine (hfields.map Prod.fst).nodup_iff.1 ?_
    rwa [List.map_fst_zip (Nat.le_of_eq hcount)]
  have hlabel : plan.labels[i]? = some column.label := by
    rw [DecodePlan.labels, List.getElem?_map, hcolumn]
    rfl
  have hpair : (plan.labels.zip values)[i]? = some (column.label, v) :=
    List.getElem?_zip_eq_some.2 ⟨hlabel, hv⟩
  exact Fields.get?_of_mem hnames (hfields.mem_iff.1 (List.mem_of_getElem? hpair))

theorem length_of_perm (hlength : values.length = plan.columns.length)
    (hfields : (plan.labels.zip values).Perm fields) : fields.length = plan.columns.length := by
  rw [← hfields.length_eq, List.length_zip, DecodePlan.labels, List.length_map, hlength,
    Nat.min_self]

end Names

/-! ## 2. The three forms -/

section Forms

variable {d : Decoder} {values : List Value} {fields : List (String × Value)}

theorem decodeColumns_positional {plan : List ColumnPlan} (hlength : values.length = plan.length)
    (index : Nat) :
    decodeColumns d.options.detect (d.columnValue index (.positional values)) 0 plan =
      decodeInOrder d.options.detect plan values := by
  refine decodeColumns_eq_decodeInOrder 0 hlength fun i column v _ hv => ?_
  rw [Nat.zero_add, Decoder.columnValue, List.getD_eq_getElem?_getD, hv]
  rfl

theorem columns_positional (hne : d.plan.columns ≠ []) (hlabels : d.plan.labels.Nodup)
    (hlength : values.length = d.plan.columns.length) (index : Nat) :
    d.columns index (.positional values) =
      decodeInOrder d.options.detect d.plan.columns values := by
  have hempty : ¬d.plan.columns.isEmpty = true := by rwa [List.isEmpty_iff]
  have hwidth : ¬(RawRow.positional values).length ≠ d.plan.columns.length := not_not.2 hlength
  rw [Decoder.columns, if_neg hempty, if_neg hwidth, columnsFrom_start d index _ hlabels,
    decodeColumns_positional hlength]

theorem columns_named (hne : d.plan.columns ≠ []) (hlabels : d.plan.labels.Nodup)
    (hlength : values.length = d.plan.columns.length)
    (hfields : (d.plan.labels.zip values).Perm fields) (index : Nat) :
    d.columns index (.named fields) = decodeInOrder d.options.detect d.plan.columns values := by
  have hempty : ¬d.plan.columns.isEmpty = true := by rwa [List.isEmpty_iff]
  have hwidth : ¬(RawRow.named fields).length ≠ d.plan.columns.length :=
    not_not.2 (length_of_perm hlength hfields)
  rw [Decoder.columns, if_neg hempty, if_neg hwidth, columnsFrom_start d index _ hlabels]
  refine decodeColumns_eq_decodeInOrder 0 hlength fun i column v hcolumn hv => ?_
  rw [Decoder.columnValue, get?_of_perm hlabels hlength hfields hcolumn hv]

theorem decodeNested_object {plan : DecodePlan} (hshape : plan.shape = .first)
    (hne : plan.columns ≠ []) (hlabels : plan.labels.Nodup)
    (hlength : values.length = plan.columns.length)
    (hfields : (plan.labels.zip values).Perm fields) (o : DetectOptions) (label : String) :
    plan.decodeNested o label (.object fields) =
      (decodeInOrder o plan.columns values).map .object := by
  have hcolumns : decodeFields o plan.columns fields [] = decodeInOrder o plan.columns values := by
    rw [decodeFields_start fields hlabels]
    refine decodeColumns_eq_decodeInOrder 0 hlength fun i column v hcolumn hv => ?_
    rw [fieldValue, get?_of_perm hlabels hlength hfields hcolumn hv]
    rfl
  obtain ⟨statement, shape, columns, affectedOnly, isMutation⟩ := plan
  cases hshape
  have hempty : ¬columns.isEmpty = true := by rwa [List.isEmpty_iff]
  rw [DecodePlan.decodeNested, unfoldSingle_object]
  change Decode.row columns fields (fun fields => decodeFields o columns fields []) = _
  rw [Decode.row, if_neg hempty, hcolumns]

/-- Rows with the same columns give the same result. -/
theorem decode_congr {row row' : RawRow} (h : ∀ index, d.columns index row = d.columns index row')
    (affected : Option UInt64) : d.decode ⟨[row], affected⟩ = d.decode ⟨[row'], affected⟩ := by
  have hrow : d.decodeRow 0 row = d.decodeRow 0 row' := by
    rw [Decoder.decodeRow, Decoder.decodeRow, h 0]
  have hfirst : d.firstColumn 0 row = d.firstColumn 0 row' := by
    rw [Decoder.firstColumn, Decoder.firstColumn, h 0]
  have hshaped : d.decodeShaped ⟨[row], affected⟩ = d.decodeShaped ⟨[row'], affected⟩ := by
    simp [Decoder.decodeShaped, Decoder.decodeRows, Decoder.decodeFirst, hrow, hfirst]
  simp [Decoder.decode, Decoder.decodeRows, hrow, hshaped, RawResult.affectedCount]

end Forms

/-- **The forms of a row decode alike.** A list of values, the same values by name in any order, and
    their object as the value of a folded sub-query with the same columns give one and the same
    object, with its fields in the order of the plan, or the error of the first column that fails.
    So do whole results with this row. -/
theorem row_forms_decode_alike (d : Decoder) (nested : DecodePlan) (values : List Value)
    (fields : List (String × Value)) (hmode : d.options.arrayMode = false)
    (hne : d.plan.columns ≠ []) (hlabels : d.plan.labels.Nodup)
    (hlength : values.length = d.plan.columns.length)
    (hfields : (d.plan.labels.zip values).Perm fields) (hshape : nested.shape = .first)
    (hnested : nested.columns = d.plan.columns) (index : Nat) (label : String) :
    d.decodeRow index (.positional values) =
      (decodeInOrder d.options.detect d.plan.columns values).map .object ∧
    d.decodeRow index (.named fields) = d.decodeRow index (.positional values) ∧
    nested.decodeNested d.options.detect label (.object fields) =
      d.decodeRow index (.positional values) ∧
    (∀ out, decodeInOrder d.options.detect d.plan.columns values = .ok out →
      out.map Prod.fst = d.plan.labels) ∧
    ∀ affected,
      d.decode ⟨[.named fields], affected⟩ = d.decode ⟨[.positional values], affected⟩ := by
  have hpositional := columns_positional hne hlabels hlength
  have hnamed := columns_named hne hlabels hlength hfields
  have hrow : ∀ row, d.columns index row = decodeInOrder d.options.detect d.plan.columns values →
      d.decodeRow index row =
        (decodeInOrder d.options.detect d.plan.columns values).map .object := by
    intro row hcolumns
    rw [Decoder.decodeRow, hcolumns, hmode]
    cases decodeInOrder d.options.detect d.plan.columns values <;> rfl
  have hlabels' : nested.labels = d.plan.labels := congrArg (List.map ColumnPlan.label) hnested
  have hobject := decodeNested_object hshape (hnested ▸ hne) (hlabels' ▸ hlabels)
    (hnested ▸ hlength) (hlabels' ▸ hfields) d.options.detect label
  rw [hrow _ (hpositional index), hrow _ (hnamed index), hobject, hnested]
  refine ⟨rfl, rfl, rfl, fun out hout => names_of_decodeInOrder hlength hout, fun affected => ?_⟩
  exact decode_congr (fun i => (hnamed i).trans (hpositional i).symm) affected

/-- An order with its tags, which come first by name and last by the plan. -/
theorem row_forms_decode_alike_swapped :
    let tags : DecodePlan := ⟨"select", .list, [⟨"name", .typed .text⟩], false, false⟩
    let plan : DecodePlan :=
      ⟨"select", .first, [⟨"id", .typed .bigInt⟩, ⟨"tags", .nested tags⟩], false, false⟩
    let d : Decoder := ⟨plan, {}⟩
    let values : List Value := [.text "7", .json (.array [.text "new"])]
    let fields : List (String × Value) :=
      [("tags", .json (.array [.text "new"])), ("id", .text "7")]
    plan.labels.Nodup ∧ (plan.labels.zip values).Perm fields ∧
      d.decodeRow 0 (.positional values) =
        .ok (.object [("id", .int 7), ("tags", .array [.text "new"])]) ∧
      d.decodeRow 0 (.named fields) = d.decodeRow 0 (.positional values) ∧
      plan.decodeNested {} "order" (.object fields) = d.decodeRow 0 (.positional values) := by
  intro tags plan d values fields
  have hlabels : plan.labels.Nodup := by decide
  have hfields : (plan.labels.zip values).Perm fields := .swap _ _ _
  have h : d.decodeRow 0 (.positional values) =
      .ok (.object [("id", .int 7), ("tags", .array [.text "new"])]) := rfl
  obtain ⟨-, hnamed, hnested, -⟩ := row_forms_decode_alike d plan values fields rfl
    (List.cons_ne_nil _ _) hlabels rfl hfields rfl rfl 0 "order"
  exact ⟨hlabels, hfields, h, hnamed, hnested⟩

end QueryPlan
