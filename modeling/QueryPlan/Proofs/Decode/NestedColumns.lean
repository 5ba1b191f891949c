import QueryPlan.Proofs.Compile.LostColumns
import QueryPlan.Proofs.Decode.Folding

/-!
# Columns that hold queries

A column whose expression is a query for more than a single value has a nested rule: what comes back
is unfolded from JSON. The rule is read off the statement alone. How the query is written depends on
the dialect: it is folded into JSON by functions or by a clause if there are such
(`Dialect.foldsQueries`); else it stands in parentheses as a query for a single value, unless that
is an error. What comes back then is no JSON, and the nested rule refuses it.
-/

namespace QueryPlan

open Compile

/-! ## 1. How queries are written -/

/-- Whether the rows of a query can be folded into one JSON value. -/
def Dialect.foldsQueries (d : Dialect) : Bool :=
  d.has .jsonFunctions || d.selectOrder.contains .forJson

/-- How a query is written: folded if the dialect can fold queries, and else between parentheses,
    in lenient mode only. -/
theorem Renderer.query_eq_ok {r : Renderer} {q : Statement} {σ : Setting} {c c' : Context}
    {f : Fragment} (hshape : q.shape ≠ .value) (h : r.query q σ c = .ok (f, c')) :
    if σ.dialect.foldsQueries then
      r.jsonFunctions q q.shape σ c = .ok (f, c') ∨ r.jsonClause q q.shape σ c = .ok (f, c')
    else σ.strict = false ∧
      ∃ own, r.statement q σ c = .ok (own, c') ∧ f.text = "(" ++ own ++ ")" := by
  unfold Renderer.query at h
  rw [if_neg hshape] at h
  split at h
  · obtain ⟨_, _, hfail, -⟩ := bind_eq_ok.1 h
    cases hfail
  unfold Dialect.foldsQueries
  obtain ⟨functions, c₁, hfunctions, h⟩ := bind_eq_ok.1 h
  cases hfunctions
  cases hjson : σ.dialect.has .jsonFunctions with
  | true =>
    rw [hjson] at h
    exact .inl h
  | false =>
    rw [hjson, if_neg Bool.false_ne_true, bind_run dialect_run] at h
    cases hclause : σ.dialect.selectOrder.contains .forJson with
    | true =>
      rw [hclause] at h
      exact .inr h
    | false =>
      rw [hclause, if_neg Bool.false_ne_true] at h
      obtain ⟨_, c₂, hmissing, h⟩ := bind_eq_ok.1 h
      rw [missing_run] at hmissing
      split at hmissing
      · cases hmissing
      · next hstrict =>
        cases hmissing
        obtain ⟨own, c₃, hown, h⟩ := bind_eq_ok.1 h
        cases h
        exact ⟨Bool.eq_false_iff.2 hstrict, own, hown, rfl⟩

/-! ## 2. Rules of columns -/

theorem projectionPlans_eq (list : List Projection) :
    projectionPlans list = list.map Projection.columnPlan := by
  induction list with
  | nil => rfl
  | cons p rest ih => rw [projectionPlans, ih, List.map_cons]

/-- The rules of the columns are those of their expressions. -/
theorem Statement.columnPlans_eq : (s : Statement) →
    s.columnPlans = s.projection.map Projection.columnPlan
  | .select ⟨_, _, _, _, _, _, _, _, _, _, _, _⟩ => projectionPlans_eq _
  | .insert ⟨_, _, _, _, _, _, _, _, _⟩ => projectionPlans_eq _
  | .update ⟨_, _, _, _, _, _, _, _, _⟩ => projectionPlans_eq _
  | .delete ⟨_, _, _, _, _, _, _, _⟩ => projectionPlans_eq _
  | .setOp ⟨_, first, _, _, _, _, _⟩ => first.columnPlans_eq

theorem Expr.decodeRule_query {q : Statement} (hshape : q.shape ≠ .value) :
    (Expr.query q).decodeRule = .nested q.decodePlan := by
  rw [Expr.decodeRule]
  split
  · next heq _ => exact absurd heq hshape
  · next heq _ => exact absurd heq hshape
  · rfl

/-! ## 3. Values that are not folded -/

/-- Whether a value is no null and, once it is parsed, not made of rows. -/
def Value.isFlat (v : Value) : Bool :=
  match Decode.unfold "" v with
  | .ok .null | .ok (.array _) | .ok (.object _) => false
  | _ => true

theorem Decode.unfold_of_isFlat {v w : Value} {label : String} (h : v.isFlat = true)
    (hw : unfold label v = .ok w) :
    w ≠ .null ∧ (∀ items, w ≠ .array items) ∧ ∀ fields, w ≠ .object fields := by
  have hsame : unfold "" v = .ok w := by
    cases v with
    | text s =>
      rw [unfold] at hw ⊢
      cases hj : Json.parse s with
      | error e => rw [hj] at hw; cases hw
      | ok j => rw [hj] at hw; exact hw
    | bytes b =>
      rw [unfold] at hw ⊢
      cases hj : Json.parseBytes b with
      | error e => rw [hj] at hw; cases hw
      | ok j => rw [hj] at hw; exact hw
    | _ => exact hw
  rw [Value.isFlat, hsame] at h
  refine ⟨?_, fun items => ?_, fun fields => ?_⟩ <;> (rintro rfl; cases h)

/-- A nested rule refuses a value that is not folded. -/
theorem DecodePlan.decodeNested_of_isFlat {v : Value} (h : v.isFlat = true) (plan : DecodePlan)
    (o : DetectOptions) (label : String) : ∃ e, plan.decodeNested o label v = .error e := by
  obtain ⟨n, hn⟩ : ∃ n, v.size = n + 1 := ⟨v.size - 1, by have := v.size_pos; omega⟩
  have hbind : ∀ f : Value → Except Error Value, (∀ w, w ≠ .null → (∀ items, w ≠ .array items) →
      (∀ fields, w ≠ .object fields) → ∃ e, f w = .error e) →
        ∃ e, (Decode.unfold label v >>= f) = .error e := by
    intro f hf
    cases hw : Decode.unfold label v with
    | error e => exact ⟨e, rfl⟩
    | ok w =>
      obtain ⟨hnull, harray, hobject⟩ := Decode.unfold_of_isFlat h hw
      exact hf w hnull harray hobject
  obtain ⟨statement, shape, columns, affectedOnly, isMutation⟩ := plan
  cases shape with
  | rows | list =>
    rw [decodeNested]
    refine hbind _ fun w hnull harray hobject => ?_
    cases w with
    | null => exact absurd rfl hnull
    | array items => exact absurd rfl (harray items)
    | _ => exact ⟨_, rfl⟩
  | first | value =>
    rw [decodeNested, hn, Decode.unfoldSingle, bind_assoc]
    refine hbind _ fun w hnull harray hobject => ?_
    cases w with
    | null => exact absurd rfl hnull
    | array items => exact absurd rfl (harray items)
    | object fields => exact absurd rfl (hobject fields)
    | _ => exact ⟨_, rfl⟩

/-- A row is refused if one of its columns is. -/
theorem Decoder.columnsFrom_eq_error {d : Decoder} {index : Nat} {row : RawRow}
    {column : ColumnPlan} {v : Value}
    (hrule : ∃ e, column.rule.decode d.options.detect column.label v = .error e)
    {columns : List ColumnPlan} {k position : Nat} {decoded : List (String × Value)}
    (hcolumn : columns[k]? = some column)
    (hvalue : d.columnValue index row (position + k) column.label = .ok v) :
    ∃ e, d.columnsFrom index row position columns decoded = .error e := by
  induction columns generalizing k position decoded with
  | nil => cases hcolumn
  | cons head rest ih =>
    obtain ⟨label, rule⟩ := head
    rw [columnsFrom]
    cases k with
    | zero =>
      cases hcolumn
      obtain ⟨e, he⟩ := hrule
      exact ⟨e, Except.bind_eq_error_iff.2 (.inr ⟨v, hvalue, Except.bind_eq_error_iff.2 (.inl he)⟩)⟩
    | succ k =>
      have hlater := hvalue
      rw [← Nat.add_assoc, Nat.add_right_comm] at hlater
      cases hraw : d.columnValue index row position label with
      | error e => exact ⟨e, rfl⟩
      | ok w =>
        cases hw : rule.decode d.options.detect label w with
        | error e =>
          exact ⟨e, Except.bind_eq_error_iff.2
            (.inr ⟨w, rfl, Except.bind_eq_error_iff.2 (.inl hw)⟩)⟩
        | ok u =>
          obtain ⟨e, he⟩ := @ih k (position + 1) (Fields.insert decoded label u) hcolumn hlater
          exact ⟨e, Except.bind_eq_error_iff.2
            (.inr ⟨w, rfl, Except.bind_eq_error_iff.2 (.inr ⟨u, hw, he⟩)⟩)⟩

/-! ## 4. Compiled columns -/

/-- Whether the rule of a column fits how its query is written for a dialect: it is nested only if
    the query is folded, and it reads values that are not folded if the query is not. -/
def Decoder.FitsWritten (decoder : Decoder) (d : Dialect) (column : ColumnPlan) : Prop :=
  ((∃ plan, column.rule = .nested plan) → d.foldsQueries = true) ∧
  (d.foldsQueries = false → ∀ v : Value, v.isFlat = true →
    ∃ w, column.rule.decode decoder.options.detect column.label v = .ok w)

/-- **The rule of a query column does not depend on how the query is written.** It is nested in
    every dialect and mode. The query is folded if the dialect can fold queries; else it is written
    between parentheses, and the mode is lenient. So the rule fits how the query is written exactly
    if the dialect can fold queries. Where it does not fit, no row can be decoded whose value for
    the column is not folded. -/
theorem query_column_fits_iff_folds (s : Statement) (d : Dialect) (o : Options) (out : Compiled)
    (h : compileWith s d o = .ok out) (k : Nat) (p : Projection) (q : Statement)
    (hp : s.projection[k]? = some p) (hq : p.expr = .query q) (hshape : q.shape ≠ .value) :
    ∃ column, out.decoder.plan.columns[k]? = some column ∧ column.label = p.label ∧
      column.rule = .nested q.decodePlan ∧
      (∀ (r : Renderer) (c c' : Context) (f : Fragment),
        r.query q (.ofOptions d o) c = .ok (f, c') →
          if d.foldsQueries then
            r.jsonFunctions q q.shape (.ofOptions d o) c = .ok (f, c') ∨
              r.jsonClause q q.shape (.ofOptions d o) c = .ok (f, c')
          else o.strict = false ∧ ∃ own, r.statement q (.ofOptions d o) c = .ok (own, c') ∧
            f.text = "(" ++ own ++ ")") ∧
      (out.decoder.FitsWritten d column ↔ d.foldsQueries = true) ∧
      ∀ (index : Nat) (row : RawRow) (v : Value),
        out.decoder.columnValue index row k column.label = .ok v → v.isFlat = true →
          ∃ e, out.decoder.decodeRow index row = .error e := by
  obtain ⟨sql, c, -, hplan⟩ := runRender_of_compileWith h
  have hcolumn : out.decoder.plan.columns[k]? = some ⟨p.label, .nested q.decodePlan⟩ := by
    have hcolumns : out.decoder.plan.columns = s.projection.map Projection.columnPlan := by
      rw [hplan]
      exact s.columnPlans_eq
    rw [hcolumns, List.getElem?_map, hp]
    obtain ⟨label, expr⟩ := p
    obtain rfl : expr = .query q := hq
    rw [Option.map_some, Projection.columnPlan, Expr.decodeRule_query hshape]
  have hrefused : ∀ v : Value, v.isFlat = true → ∃ e,
      DecodeRule.decode out.decoder.options.detect (.nested q.decodePlan) p.label v = .error e := by
    intro v hv
    rw [DecodeRule.decode]
    exact q.decodePlan.decodeNested_of_isFlat hv _ _
  refine ⟨_, hcolumn, rfl, rfl, fun r c c' f => r.query_eq_ok hshape,
    ⟨fun hfits => ?_, fun hfolds => ?_⟩, fun index row v hvalue hv => ?_⟩
  · exact hfits.1 ⟨_, rfl⟩
  · refine ⟨fun _ => hfolds, fun hnot => ?_⟩
    rw [hfolds] at hnot
    cases hnot
  · have hfields : ∃ e, out.decoder.columns index row = .error e := by
      unfold Decoder.columns
      dsimp only
      split
      · next hempty =>
        rw [List.isEmpty_iff.1 hempty] at hcolumn
        cases hcolumn
      · split
        · exact ⟨_, rfl⟩
        · refine Decoder.columnsFrom_eq_error (hrefused v hv) hcolumn ?_
          rw [Nat.zero_add]
          exact hvalue
    obtain ⟨e, he⟩ := hfields
    exact ⟨e, Except.bind_eq_error_iff.2 (.inl he)⟩

/-- The titles of books beside each author. -/
def authorsWithBooks : Statement :=
  let titles := (Select.empty.readFrom (.table (.ofName "books"))).project "title" (.column "title")
  .select ((Select.empty.readFrom (.table (.ofName "authors"))).project "books"
    (.query (.select titles)))

/-- A dialect that cannot fold queries. -/
def Dialect.unfolding : Dialect :=
  Dialect.generic.removeSupport (.single .jsonFunctions)

theorem query_column_fits_iff_folds_here :
    ∃ out, compileWith authorsWithBooks .unfolding { strict := false } = .ok out ∧
      out.sql = "SELECT (SELECT title FROM books) AS books FROM authors" ∧
      ∃ column, out.decoder.plan.columns[0]? = some column ∧
        ¬out.decoder.FitsWritten .unfolding column ∧
        ∃ e, out.decoder.decodeRow 0 (.positional [.text "Dune"]) = .error e := by
  have hsql : (compileWith authorsWithBooks .unfolding { strict := false }).map Compiled.sql =
      .ok "SELECT (SELECT title FROM books) AS books FROM authors" := by decide +kernel
  have hfolds : Dialect.unfolding.foldsQueries = false := by decide +kernel
  have hflat : (Value.text "Dune").isFlat = true := by decide +kernel
  obtain ⟨out, hout, htext⟩ := Compiled.exists_of_sql hsql
  obtain ⟨column, hcolumn, -, -, -, hfits, hrows⟩ :=
    query_column_fits_iff_folds authorsWithBooks _ _ out hout 0 _ _ rfl rfl Shape.noConfusion
  refine ⟨out, hout, htext, column, hcolumn, fun hwritten => ?_, hrows 0 _ _ rfl hflat⟩
  have htrue := hfits.1 hwritten
  rw [hfolds] at htrue
  cases htrue

end QueryPlan
