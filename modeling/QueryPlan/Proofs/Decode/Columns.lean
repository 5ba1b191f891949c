import Mathlib.Data.List.Forall2
import QueryPlan.Decode.Basic

/-!
# Columns of rows

A row of a result and a row that was folded into JSON are decoded by two loops of the same kind:
column by column, each loop taking the raw values from its own kind of row and setting what it has
decoded behind what is there. If the labels of the columns are distinct, both are `decodeColumns`,
which says for each column where its raw value comes from and has nothing else to keep
(`columnsFrom_eq`, `decodeFields_eq`).
-/

namespace QueryPlan

variable {columns : List ColumnPlan} {position : Nat}

/-! ## 1. Steps that may fail -/

variable {α β : Type}

variable {f : α → Except Error β} {x : Except Error α} {xs : List α}

theorem Except.bind_eq_ok_iff {b : β} : x >>= f = .ok b ↔ ∃ a, x = .ok a ∧ f a = .ok b := by
  cases x with
  | error e => exact ⟨fun h => (nomatch h), fun ⟨_, h, _⟩ => (nomatch h)⟩
  | ok a => exact ⟨fun h => ⟨a, rfl, h⟩, fun ⟨_, ha, h⟩ => Except.ok.inj ha ▸ h⟩

theorem Except.bind_eq_error_iff {e : Error} :
    x >>= f = .error e ↔ x = .error e ∨ ∃ a, x = .ok a ∧ f a = .error e := by
  cases x with
  | error e' =>
    constructor
    · intro h
      cases h
      exact .inl rfl
    · rintro (h | ⟨_, h, _⟩)
      · cases h
        rfl
      · cases h
  | ok a =>
    constructor
    · exact fun h => .inr ⟨a, rfl, h⟩
    · rintro (h | ⟨_, ha, h⟩)
      · cases h
      · cases ha
        exact h

theorem Except.map_eq_ok_iff {f : α → β} {b : β} : x.map f = .ok b ↔ ∃ a, x = .ok a ∧ f a = b := by
  cases x with
  | error e => exact ⟨fun h => (nomatch h), fun ⟨_, h, _⟩ => (nomatch h)⟩
  | ok a => exact ⟨fun h => ⟨a, rfl, Except.ok.inj h⟩, fun ⟨_, ha, h⟩ => by cases ha; cases h; rfl⟩

/-- A list of steps succeeds if each of them does. -/
theorem mapM_eq_ok_iff {ys : List β} :
    xs.mapM f = .ok ys ↔ List.Forall₂ (fun x y => f x = .ok y) xs ys := by
  induction xs generalizing ys with
  | nil =>
    rw [List.mapM_nil, List.forall₂_nil_left_iff]
    exact ⟨fun h => (Except.ok.inj h).symm, fun h => h ▸ rfl⟩
  | cons x xs ih =>
    rw [List.mapM_cons, Except.bind_eq_ok_iff, List.forall₂_cons_left_iff]
    constructor
    · rintro ⟨y, hy, h⟩
      obtain ⟨rest, hrest, h⟩ := Except.bind_eq_ok_iff.1 h
      exact ⟨y, rest, hy, ih.1 hrest, (Except.ok.inj h).symm⟩
    · rintro ⟨y, rest, hy, hrest, rfl⟩
      exact ⟨y, hy, Except.bind_eq_ok_iff.2 ⟨rest, ih.2 hrest, rfl⟩⟩

/-- What a list of steps has given, one of the steps has. -/
theorem exists_of_mem_mapM {ys : List β} (h : xs.mapM f = .ok ys) {y : β} (hy : y ∈ ys) :
    ∃ x ∈ xs, f x = .ok y := by
  have hall := mapM_eq_ok_iff.1 h
  obtain ⟨i, hi, rfl⟩ := List.getElem_of_mem hy
  have hx : i < xs.length := hall.length_eq ▸ hi
  exact ⟨xs[i], List.getElem_mem hx, hall.get hx hi⟩

/-- A list of steps fails with the error of the first of them that fails. -/
theorem exists_of_mapM_eq_error {e : Error} (h : xs.mapM f = .error e) :
    ∃ before x after, xs = before ++ x :: after ∧ (∀ y ∈ before, ∃ b, f y = .ok b) ∧
      f x = .error e := by
  induction xs with
  | nil =>
    rw [List.mapM_nil] at h
    cases h
  | cons x xs ih =>
    rw [List.mapM_cons] at h
    rcases Except.bind_eq_error_iff.1 h with hx | ⟨b, hx, h⟩
    · exact ⟨[], x, xs, rfl, fun y hy => absurd hy List.not_mem_nil, hx⟩
    · rcases Except.bind_eq_error_iff.1 h with hrest | ⟨bs, -, h⟩
      · obtain ⟨before, y, after, rfl, hbefore, hy⟩ := ih hrest
        exact ⟨x :: before, y, after, rfl, List.forall_mem_cons.2 ⟨⟨b, hx⟩, hbefore⟩, hy⟩
      · cases h

theorem exists_mapM_iff : (∃ ys, xs.mapM f = .ok ys) ↔ ∀ x ∈ xs, ∃ y, f x = .ok y := by
  constructor
  · rintro ⟨ys, hys⟩ x hx
    obtain ⟨i, hi, rfl⟩ := List.getElem_of_mem hx
    have hall := mapM_eq_ok_iff.1 hys
    exact ⟨_, hall.get hi (hall.length_eq ▸ hi)⟩
  · intro h
    cases hxs : xs.mapM f with
    | ok ys => exact ⟨ys, rfl⟩
    | error e =>
      obtain ⟨before, x, after, rfl, -, hx⟩ := exists_of_mapM_eq_error hxs
      obtain ⟨y, hy⟩ := h x (by simp)
      cases hx.symm.trans hy

/-- Steps that leave each of their own results as it is leave a list of results as it is. -/
theorem mapM_again {f : α → Except Error α} (h : ∀ x y, f x = .ok y → f y = .ok y) {ys : List α}
    (hys : xs.mapM f = .ok ys) : ys.mapM f = .ok ys := by
  rw [mapM_eq_ok_iff, List.forall₂_same]
  intro y hy
  obtain ⟨x, -, hx⟩ := exists_of_mem_mapM hys hy
  exact h x y hx

/-! ## 2. Columns, one by one -/

def DecodePlan.labels (plan : DecodePlan) : List String :=
  plan.columns.map ColumnPlan.label

/-- Decodes columns, where `raw` gives the value that stands at a position under a label. -/
def decodeColumns (o : DetectOptions) (raw : Nat → String → Except Error Value) :
    (position : Nat) → List ColumnPlan → Except Error (List (String × Value))
  | _, [] => .ok []
  | position, column :: columns => do
    let v ← raw position column.label
    let w ← column.rule.decode o column.label v
    let rest ← decodeColumns o raw (position + 1) columns
    return (column.label, w) :: rest

/-- The value that a folded row has under a label. A field that is missing is null. -/
def fieldValue (fields : List (String × Value)) (label : String) : Value :=
  (Fields.get? fields label).getD .null

section Loops

variable {o : DetectOptions} {raw : Nat → String → Except Error Value}

theorem decodeColumns_cons_eq_ok_iff {column : ColumnPlan} {out : List (String × Value)} :
    decodeColumns o raw position (column :: columns) = .ok out ↔
      ∃ v w rest, raw position column.label = .ok v ∧ column.rule.decode o column.label v = .ok w ∧
        decodeColumns o raw (position + 1) columns = .ok rest ∧
        out = (column.label, w) :: rest := by
  rw [decodeColumns, Except.bind_eq_ok_iff]
  constructor
  · rintro ⟨v, hv, h⟩
    obtain ⟨w, hw, h⟩ := Except.bind_eq_ok_iff.1 h
    obtain ⟨rest, hrest, h⟩ := Except.bind_eq_ok_iff.1 h
    exact ⟨v, w, rest, hv, hw, hrest, (Except.ok.inj h).symm⟩
  · rintro ⟨v, w, rest, hv, hw, hrest, rfl⟩
    refine ⟨v, hv, Except.bind_eq_ok_iff.2 ⟨w, hw, ?_⟩⟩
    exact Except.bind_eq_ok_iff.2 ⟨rest, hrest, rfl⟩

/-- Decoded columns have the labels of their plans. -/
theorem names_of_decodeColumns {out : List (String × Value)}
    (h : decodeColumns o raw position columns = .ok out) :
    out.map Prod.fst = columns.map ColumnPlan.label := by
  induction columns generalizing position out with
  | nil =>
    cases h
    rfl
  | cons column columns ih =>
    obtain ⟨v, w, rest, -, -, hrest, rfl⟩ := decodeColumns_cons_eq_ok_iff.1 h
    rw [List.map_cons, List.map_cons, ih hrest]

/-- Only the raw values of the columns themselves matter. -/
theorem decodeColumns_congr {raw' : Nat → String → Except Error Value}
    (h : ∀ i, ∀ column ∈ columns, raw' i column.label = raw i column.label) :
    decodeColumns o raw' position columns = decodeColumns o raw position columns := by
  induction columns generalizing position with
  | nil => rfl
  | cons column columns ih =>
    rw [decodeColumns, decodeColumns, h position column List.mem_cons_self,
      ih fun i c hc => h i c (List.mem_cons_of_mem column hc)]

/-- What is set behind decoded fields, one label after the other. -/
theorem insert_append_nodup {decoded : List (String × Value)} {label : String}
    {labels : List String} (h : (decoded.map Prod.fst ++ label :: labels).Nodup) (w : Value) :
    Fields.insert decoded label w = decoded ++ [(label, w)] ∧
      ((decoded ++ [(label, w)]).map Prod.fst ++ labels).Nodup := by
  have hnew : label ∉ decoded.map Prod.fst := by
    intro hmem
    exact (List.nodup_append.1 h).2.2 _ hmem _ List.mem_cons_self rfl
  refine ⟨Fields.insert_of_not_mem hnew w, ?_⟩
  rw [List.map_append, List.append_assoc]
  exact h

/-- One step sets the label of its column, so that all columns set their labels in turn. -/
theorem columnsFrom_eq_foldl (d : Decoder) (index : Nat) (row : RawRow)
    (decoded : List (String × Value)) :
    d.columnsFrom index row position columns decoded =
      (decodeColumns d.options.detect (d.columnValue index row) position columns).map
        fun pairs =>
          pairs.foldl (fun fields field => Fields.insert fields field.1 field.2) decoded := by
  induction columns generalizing position decoded with
  | nil => rfl
  | cons column columns ih =>
    obtain ⟨label, rule⟩ := column
    rw [Decoder.columnsFrom, decodeColumns]
    cases d.columnValue index row position label with
    | error e => rfl
    | ok v =>
      cases hw : rule.decode d.options.detect label v with
      | error e => simp [hw, bind, Except.bind, Except.map]
      | ok w =>
        simp only [hw, bind, Except.bind, ih]
        cases decodeColumns d.options.detect (d.columnValue index row) (position + 1) columns with
        | error e | ok rest => rfl

/-- The columns of a row are decoded one by one. -/
theorem columnsFrom_eq (d : Decoder) (index : Nat) (row : RawRow) (decoded : List (String × Value))
    (h : (decoded.map Prod.fst ++ columns.map ColumnPlan.label).Nodup) :
    d.columnsFrom index row position columns decoded =
      (decodeColumns d.options.detect (d.columnValue index row) position columns).map
        (decoded ++ ·) := by
  rw [columnsFrom_eq_foldl]
  cases hpairs : decodeColumns d.options.detect (d.columnValue index row) position columns with
  | error e => rfl
  | ok pairs =>
    have hnodup : ((decoded ++ pairs).map Prod.fst).Nodup := by
      rwa [List.map_append, names_of_decodeColumns hpairs]
    simp only [Except.map, Fields.foldl_insert_of_nodup pairs decoded hnodup]

/-- The fields of a folded row are decoded one by one. -/
theorem decodeFields_eq (fields decoded : List (String × Value)) (position : Nat)
    (h : (decoded.map Prod.fst ++ columns.map ColumnPlan.label).Nodup) :
    decodeFields o columns fields decoded =
      (decodeColumns o (fun _ label => .ok (fieldValue fields label)) position columns).map
        (decoded ++ ·) := by
  induction columns generalizing position fields decoded with
  | nil => simp [decodeFields, decodeColumns, Except.map]
  | cons column columns ih =>
    obtain ⟨label, rule⟩ := column
    -- a field that is taken out belongs to no column that follows
    have herase :
        decodeColumns o (fun _ label' => .ok (fieldValue (Fields.erase fields label) label'))
          (position + 1) columns =
        decodeColumns o (fun _ label' => .ok (fieldValue fields label'))
          (position + 1) columns := by
      refine decodeColumns_congr fun i c hc => ?_
      have hne : c.label ≠ label := by
        intro he
        have hmem : c.label ∈ columns.map ColumnPlan.label := List.mem_map_of_mem hc
        exact (List.nodup_cons.1 (List.nodup_append.1 h).2.1).1 (he ▸ hmem)
      rw [fieldValue, fieldValue, Fields.get?_erase, if_neg hne]
    rw [decodeFields, decodeColumns]
    cases hw : rule.decode o label (fieldValue fields label) with
    | error e =>
      rw [show (Fields.get? fields label).getD .null = fieldValue fields label from rfl]
      simp [hw, bind, Except.bind, Except.map]
    | ok w =>
      obtain ⟨hinsert, hnodup⟩ := insert_append_nodup h w
      rw [show (Fields.get? fields label).getD .null = fieldValue fields label from rfl]
      simp only [hw, bind, Except.bind, hinsert, ih _ _ (position + 1) hnodup, herase]
      cases decodeColumns o (fun _ label' => .ok (fieldValue fields label'))
        (position + 1) columns with
      | error e => rfl
      | ok rest => simp [Except.map, pure, Except.pure]

/-- All columns of a row. -/
theorem columnsFrom_start (d : Decoder) (index : Nat) (row : RawRow)
    (h : (columns.map ColumnPlan.label).Nodup) :
    d.columnsFrom index row 0 columns [] =
      decodeColumns d.options.detect (d.columnValue index row) 0 columns := by
  rw [columnsFrom_eq d index row [] h]
  cases decodeColumns d.options.detect (d.columnValue index row) 0 columns <;> rfl

/-- All fields of a folded row. -/
theorem decodeFields_start (fields : List (String × Value))
    (h : (columns.map ColumnPlan.label).Nodup) :
    decodeFields o columns fields [] =
      decodeColumns o (fun _ label => .ok (fieldValue fields label)) 0 columns := by
  rw [decodeFields_eq fields [] 0 h]
  cases decodeColumns o (fun _ label => .ok (fieldValue fields label)) 0 columns <;> rfl

end Loops

/-- An object is unfolded already. -/
theorem unfoldSingle_object (label : String) (depth : Nat) (fields : List (String × Value)) :
    Decode.unfoldSingle label depth (.object fields) = .ok (.object fields) := by
  cases depth <;> rfl

end QueryPlan
