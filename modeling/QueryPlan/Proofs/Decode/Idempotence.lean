import Mathlib.Data.Option.Basic
import QueryPlan.Proofs.Coerce.Typing

/-!
# Decoding what is decoded

A value that a rule has decoded is left as it is when the rule decodes it again. This holds of
coercion (`coerce_again`) and of detection without detectors of one's own (`apply_again`), from
there of the columns of a folded sub-query (`DecodeRule.decode_again`), and so of whole rows
(`Decoder.decodeRow_again`).

A folded list is the exception: an item that is an object with one field loses that wrapping each
time it is decoded.
-/

namespace QueryPlan

/-! ## 1. Detection -/

namespace Detect

/-- What is detected is no text. -/
theorem ne_text_of_json? {cs : List Char} {w : Value} (h : json? cs = some w) (s : String) :
    w ≠ .text s := by
  rw [json?] at h
  split at h
  · obtain ⟨j, -, rfl⟩ := Option.map_eq_some_iff.1 h
    exact Value.noConfusion
  · cases h

theorem ne_text_of_date? {cs : List Char} {v w : Value} (h : date? cs v = some w) (s : String) :
    w ≠ .text s := by
  rw [date?] at h
  rcases (Option.orElse_eq_some _ _ _).1 h with h | ⟨-, h⟩
  · split at h
    · obtain ⟨d, -, rfl⟩ := Option.map_eq_some_iff.1 h
      exact Value.noConfusion
    · cases h
  · split at h
    case h_1 | h_2 =>
      obtain ⟨t, -, rfl⟩ := Option.map_eq_some_iff.1 h
      exact Value.noConfusion
    · cases h

end Detect

namespace DetectOptions

variable {o : DetectOptions}

/-- Without detectors of one's own, the name of a column does not matter. -/
theorem apply_name (hcustom : o.custom = []) (name name' : String) (v : Value) :
    o.apply name' v = o.apply name v := by
  rw [apply.eq_def, apply.eq_def, hcustom]
  rfl

theorem apply_of_ne_text (hcustom : o.custom = []) (name : String) {v : Value}
    (h : ∀ s, v ≠ .text s) : o.apply name v = v := by
  rw [apply.eq_def, hcustom]
  cases v with
  | text s => exact absurd rfl (h s)
  | _ => rfl

theorem apply_eq_or_ne_text (hcustom : o.custom = []) (name : String) (v : Value) :
    o.apply name v = v ∨ ∀ s, o.apply name v ≠ .text s := by
  cases v with
  | text s =>
    rw [apply, hcustom]
    show Option.getD _ _ = _ ∨ ∀ s', Option.getD _ _ ≠ _
    cases hd : (if o.json then Detect.json? (Text.trim s.toList) else none) <|>
        if o.date then Detect.date? (Text.trim s.toList) (.text s) else none with
    | none => exact .inl rfl
    | some w =>
      refine .inr fun s' => ?_
      rcases (Option.orElse_eq_some _ _ _).1 hd with hw | ⟨-, hw⟩ <;> split at hw
      · exact Detect.ne_text_of_json? hw s'
      · cases hw
      · exact Detect.ne_text_of_date? hw s'
      · cases hw
  | _ => exact .inl (apply_of_ne_text hcustom name fun s => Value.noConfusion)

/-- What is detected is not detected again. -/
theorem apply_again (hcustom : o.custom = []) (name name' : String) (v : Value) :
    o.apply name' (o.apply name v) = o.apply name v := by
  rcases apply_eq_or_ne_text hcustom name v with h | h
  · rw [h, apply_name hcustom name, h]
  · exact apply_of_ne_text hcustom name' h

end DetectOptions

/-! ## 2. Rules -/

mutual

/-- The plans of sub-queries that a rule comes to, at any depth. -/
def DecodeRule.plans : DecodeRule → List DecodePlan
  | .nested plan => plan :: plan.nestedPlans
  | _ => []

/-- The plans of the sub-queries of a plan, at any depth. -/
def DecodePlan.nestedPlans : DecodePlan → List DecodePlan
  | ⟨_, _, columns, _, _⟩ => nestedPlansOf columns

def nestedPlansOf : List ColumnPlan → List DecodePlan
  | [] => []
  | ⟨_, rule⟩ :: rest => rule.plans ++ nestedPlansOf rest

end

theorem DecodePlan.nestedPlans_eq (plan : DecodePlan) :
    plan.nestedPlans = nestedPlansOf plan.columns := by
  cases plan
  rw [nestedPlans]

/-- A plan that can be applied again: its labels are distinct, and it is no list. -/
def DecodePlan.Repeatable (plan : DecodePlan) : Prop :=
  plan.labels.Nodup ∧ plan.shape ≠ .list

/-- Whether a column leaves what it has decoded as it is. -/
def ColumnPlan.Settled (o : DetectOptions) (column : ColumnPlan) : Prop :=
  ∀ v w, column.rule.decode o column.label v = .ok w → column.rule.decode o column.label w = .ok w

section Rules

variable {o : DetectOptions} {raw raw' : Nat → String → Except Error Value}

/-- Columns whose rules leave decoded values as they are leave a decoded row as it is. -/
theorem decodeColumns_again {columns : List ColumnPlan} {position : Nat}
    {out : List (String × Value)}
    (hcolumns : ∀ column ∈ columns, column.Settled o)
    (hraw : ∀ i name w, out[i]? = some (name, w) → raw' (position + i) name = .ok w)
    (h : decodeColumns o raw position columns = .ok out) :
    decodeColumns o raw' position columns = .ok out := by
  induction columns generalizing position out with
  | nil => exact h
  | cons column columns ih =>
    obtain ⟨v, w, rest, -, hw, hrest, rfl⟩ := decodeColumns_cons_eq_ok_iff.1 h
    have hraw' : ∀ i name w', rest[i]? = some (name, w') →
        raw' (position + 1 + i) name = .ok w' := by
      intro i name w' hi
      rw [Nat.add_right_comm]
      exact hraw (i + 1) name w' hi
    refine decodeColumns_cons_eq_ok_iff.2 ⟨w, w, rest, hraw 0 column.label w rfl, ?_, ?_, rfl⟩
    · exact hcolumns column List.mem_cons_self v w hw
    · exact ih (fun c hc => hcolumns c (List.mem_cons_of_mem column hc)) hraw' hrest

/-- A folded row that is decoded again. -/
theorem row_again {columns : List ColumnPlan} {fields : List (String × Value)} {w : Value}
    (hnodup : (columns.map ColumnPlan.label).Nodup)
    (hcolumns : ∀ column ∈ columns, column.Settled o)
    (h : Decode.row columns fields (fun fields => decodeFields o columns fields []) = .ok w) :
    ∃ out, w = .object out ∧
      Decode.row columns out (fun fields => decodeFields o columns fields []) = .ok w := by
  rw [Decode.row] at h
  split at h
  · rename_i hempty
    cases h
    exact ⟨fields, rfl, if_pos hempty⟩
  · rename_i hne
    obtain ⟨out, hout, rfl⟩ := Except.map_eq_ok_iff.1 h
    rw [decodeFields_start fields hnodup] at hout
    have hnames : (out.map Prod.fst).Nodup := names_of_decodeColumns hout ▸ hnodup
    refine ⟨out, rfl, ?_⟩
    rw [Decode.row, if_neg hne, decodeFields_start out hnodup,
      decodeColumns_again hcolumns (fun i name w hi => ?_) hout]
    · rfl
    · rw [fieldValue, Fields.get?_of_mem hnames (List.mem_of_getElem? hi)]
      rfl

mutual

theorem DecodeRule.decode_again (hcustom : o.custom = []) : (rule : DecodeRule) →
    (∀ p ∈ rule.plans, p.Repeatable) → ∀ {label : String} {v w : Value},
      rule.decode o label v = .ok w → rule.decode o label w = .ok w
  | .typed type, _, label, v, w, h => by
    rw [DecodeRule.decode] at h ⊢
    cases hw : v.coerce type with
    | error e =>
      rw [hw] at h
      cases h
    | ok w' =>
      rw [hw] at h
      cases h
      rw [Value.coerce_again hw]
      rfl
  | .untyped, _, label, v, w, h => by
    rw [DecodeRule.decode] at h ⊢
    cases h
    rw [DetectOptions.apply_again hcustom]
  | .nested plan, hplans, label, v, w, h => by
    rw [DecodeRule.decode] at h ⊢
    rw [DecodeRule.plans] at hplans
    exact plan.decodeNested_again hcustom (List.forall_mem_cons.1 hplans).1
      (List.forall_mem_cons.1 hplans).2 h

theorem DecodePlan.decodeNested_again (hcustom : o.custom = []) : (plan : DecodePlan) →
    plan.Repeatable → (∀ p ∈ plan.nestedPlans, p.Repeatable) → ∀ {label : String} {v w : Value},
      plan.decodeNested o label v = .ok w → plan.decodeNested o label w = .ok w
  | ⟨statement, shape, columns, affectedOnly, isMutation⟩, hplan, hnested, label, v, w, h => by
    have hcolumns := columns_settled hcustom columns hnested
    have hnodup : (columns.map ColumnPlan.label).Nodup := hplan.1
    cases shape with
    | list => exact absurd rfl hplan.2
    | rows =>
      rw [DecodePlan.decodeNested] at h ⊢
      obtain ⟨u, -, h⟩ := Except.bind_eq_ok_iff.1 h
      split at h
      · cases h
        rfl
      · obtain ⟨rows, hrows, h⟩ := Except.bind_eq_ok_iff.1 h
        cases h
        refine Except.bind_eq_ok_iff.2 ⟨.array rows, rfl, ?_⟩
        refine Except.bind_eq_ok_iff.2 ⟨rows, mapM_again (fun x y hy => ?_) hrows, rfl⟩
        split at hy
        · obtain ⟨out, rfl, hout⟩ := row_again hnodup hcolumns hy
          exact hout
        · cases hy
      · cases h
    | _ =>
      rw [DecodePlan.decodeNested] at h ⊢
      obtain ⟨u, -, h⟩ := Except.bind_eq_ok_iff.1 h
      split at h
      · cases h
        rfl
      · obtain ⟨out, rfl, hout⟩ := row_again hnodup hcolumns h
        rw [unfoldSingle_object]
        exact hout
      · cases h

theorem columns_settled (hcustom : o.custom = []) : (columns : List ColumnPlan) →
    (∀ p ∈ nestedPlansOf columns, p.Repeatable) →
      ∀ column ∈ columns, column.Settled o
  | [], _, column, hmem => by cases hmem
  | ⟨label, rule⟩ :: columns, hplans, column, hmem => by
    rw [nestedPlansOf, List.forall_mem_append] at hplans
    rcases List.mem_cons.1 hmem with rfl | hmem
    · exact fun v w => rule.decode_again hcustom hplans.1
    · exact columns_settled hcustom columns hplans.2 column hmem

end

end Rules

/-! ## 3. Rows -/

/-- A decoded row as a row of a result: an array in array mode, else an object. -/
def RawRow.ofValue? (arrayMode : Bool) : Value → Option RawRow
  | .array values => if arrayMode then some (.positional values) else none
  | .object fields => if arrayMode then none else some (.named fields)
  | _ => none

namespace Decoder

variable (d : Decoder) {index : Nat} {row : RawRow} {out : List (String × Value)}

/-- The row that decoded columns make. -/
def rowOf (out : List (String × Value)) : RawRow :=
  if d.options.arrayMode then .positional (out.map Prod.snd) else .named out

theorem length_rowOf : (d.rowOf out).length = out.length := by
  rw [rowOf]
  split
  · exact List.length_map ..
  · rfl

/-- A decoded row has its values where they were found. -/
theorem columnValue_rowOf (hnodup : (out.map Prod.fst).Nodup) {i : Nat} {name : String} {w : Value}
    (hi : out[i]? = some (name, w)) : d.columnValue index (d.rowOf out) i name = .ok w := by
  rw [rowOf]
  split
  · simp [columnValue, hi]
  · rw [columnValue, Fields.get?_of_mem hnodup (List.mem_of_getElem? hi)]

/-- Columns of which nothing is known hold what detection leaves as it is. -/
theorem apply_of_mem_plainColumns (hcustom : d.options.detect.custom = []) {c : String × Value}
    (hc : c ∈ d.plainColumns row) (name : String) : d.options.detect.apply name c.2 = c.2 := by
  cases row with
  | positional values =>
    obtain ⟨⟨v, i⟩, -, rfl⟩ := List.mem_map.1 hc
    exact DetectOptions.apply_again hcustom _ name v
  | named fields =>
    obtain ⟨⟨label, v⟩, -, rfl⟩ := List.mem_map.1 hc
    exact DetectOptions.apply_again hcustom label name v

/-- Values that detection leaves as they are come back from a row of which nothing is known. -/
theorem values_of_positional {values : List Value}
    (h : ∀ v ∈ values, ∀ name, d.options.detect.apply name v = v) :
    (d.plainColumns (.positional values)).map Prod.snd = values := by
  rw [plainColumns, List.map_map]
  calc
    _ = values.zipIdx.map Prod.fst :=
      List.map_congr_left fun vi hvi => h vi.1 (List.fst_mem_of_mem_zipIdx hvi) _
    _ = values := List.zipIdx_map_fst ..

theorem columns_of_named {fields : List (String × Value)}
    (h : ∀ c ∈ fields, ∀ name, d.options.detect.apply name c.2 = c.2) :
    d.plainColumns (.named fields) = fields := by
  rw [plainColumns]
  calc
    _ = fields.map id := List.map_congr_left fun c hc => congrArg (Prod.mk c.1) (h c hc c.1)
    _ = fields := List.map_id fields

theorem rowOf_plainColumns (hcustom : d.options.detect.custom = []) (row : RawRow) :
    d.rowOf (d.plainColumns (d.rowOf (d.plainColumns row))) = d.rowOf (d.plainColumns row) := by
  have hfixed : ∀ c ∈ d.plainColumns row, ∀ name, d.options.detect.apply name c.2 = c.2 :=
    fun c hc => d.apply_of_mem_plainColumns hcustom hc
  rw [rowOf, rowOf]
  split
  · rw [values_of_positional]
    intro v hv
    obtain ⟨c, hc, rfl⟩ := List.mem_map.1 hv
    exact hfixed c hc
  · rw [columns_of_named d hfixed]

/-- The columns of a decoded row. In array mode they may be named otherwise. -/
theorem columns_rowOf (hcustom : d.options.detect.custom = []) (hnodup : d.plan.labels.Nodup)
    (hnested : ∀ p ∈ d.plan.nestedPlans, p.Repeatable) (index' : Nat)
    (h : d.columns index row = .ok out) :
    ∃ out', d.columns index' (d.rowOf out) = .ok out' ∧ d.rowOf out' = d.rowOf out := by
  simp only [columns] at h ⊢
  split at h
  · cases h
    rename_i hempty
    exact ⟨_, if_pos hempty, d.rowOf_plainColumns hcustom row⟩
  · rename_i hne
    split at h
    · cases h
    · rw [columnsFrom_start d index row hnodup] at h
      have hnames := names_of_decodeColumns h
      have hlength : (d.rowOf out).length = d.plan.columns.length := by
        rw [length_rowOf, ← List.length_map Prod.fst, hnames, List.length_map]
      refine ⟨out, ?_, rfl⟩
      rw [if_neg hne, if_neg (not_not_intro hlength), columnsFrom_start d index' _ hnodup]
      rw [DecodePlan.nestedPlans_eq] at hnested
      refine decodeColumns_again (columns_settled hcustom _ hnested) (fun i name w hi => ?_) h
      rw [Nat.zero_add]
      exact d.columnValue_rowOf (hnames ▸ hnodup) hi

/-- What a row decodes to, read as a row again. -/
theorem decodeRow_eq_ok_iff {w : Value} :
    d.decodeRow index row = .ok w ↔
      ∃ out, d.columns index row = .ok out ∧
        RawRow.ofValue? d.options.arrayMode w = some (d.rowOf out) := by
  rw [decodeRow, Except.bind_eq_ok_iff]
  refine exists_congr fun out => and_congr_right fun _ => ?_
  rw [rowOf]
  cases d.options.arrayMode <;> cases w <;> simp [RawRow.ofValue?, pure, Except.pure, eq_comm]

/-- **Decoding is idempotent.** Without detectors of one's own, a plan whose labels are distinct at
    every level and that folds no sub-query into a list leaves a decoded row as it is. -/
theorem decodeRow_again (hcustom : d.options.detect.custom = [])
    (hlabels : ∀ p ∈ d.plan :: d.plan.nestedPlans, p.labels.Nodup)
    (hlists : ∀ p ∈ d.plan.nestedPlans, p.shape ≠ .list) {w : Value}
    (h : d.decodeRow index row = .ok w) :
    ∃ row', RawRow.ofValue? d.options.arrayMode w = some row' ∧
      ∀ index', d.decodeRow index' row' = .ok w := by
  obtain ⟨out, hout, hw⟩ := d.decodeRow_eq_ok_iff.1 h
  have hnested : ∀ p ∈ d.plan.nestedPlans, p.Repeatable := by
    intro p hp
    exact ⟨hlabels p (List.mem_cons_of_mem d.plan hp), hlists p hp⟩
  refine ⟨d.rowOf out, hw, fun index' => ?_⟩
  obtain ⟨out', hout', hsame⟩ :=
    d.columns_rowOf hcustom (hlabels d.plan List.mem_cons_self) hnested index' hout
  exact d.decodeRow_eq_ok_iff.2 ⟨out', hout', hsame ▸ hw⟩

/-- A row with a number in text, a date that is detected, and a sub-query that arrives as JSON. -/
theorem decodeRow_again_here :
    let items : DecodePlan :=
      ⟨"select", .rows, [⟨"sku", .typed .text⟩, ⟨"count", .typed .integer⟩], false, false⟩
    let plan : DecodePlan := ⟨"select", .rows,
      [⟨"id", .typed .bigInt⟩, ⟨"placed", .untyped⟩, ⟨"items", .nested items⟩], false, false⟩
    let d : Decoder := ⟨plan, { detect := { date := true } }⟩
    let row : RawRow := .positional [.text "7", .text "2024-02-29",
      .json (.array [.object [("count", .text "3"), ("sku", .text "a-1")]])]
    let w : Value := .object [("id", .int 7),
      ("placed", .date ⟨2024, 2, 29, by decide, by decide, by decide⟩),
      ("items", .array [.object [("sku", .text "a-1"), ("count", .int 3)]])]
    d.decodeRow 0 row = .ok w ∧
      ∃ row', RawRow.ofValue? d.options.arrayMode w = some row' ∧
        ∀ index', d.decodeRow index' row' = .ok w := by
  intro items plan d row w
  have h : d.decodeRow 0 row = .ok w := rfl
  have hlabels : ∀ p ∈ [plan, items], p.labels.Nodup := by decide
  have hlists : ∀ p ∈ [items], p.shape ≠ .list := by decide
  exact ⟨h, d.decodeRow_again rfl hlabels hlists h⟩

end Decoder

end QueryPlan
