import QueryPlan.Compile.Output
import QueryPlan.Proofs.Compile.PairedStatement

/-!
# Lenient compilation extends strict compilation

A strict compilation gives up with `Error.unsupported` where the dialect lacks something; a lenient
one makes do without it. Both run the same pieces in the same order, so that the lenient one differs
only behind such an error: `lenient_extends_strict`.

The two compilations are compared by the pairing `strictness`, in which texts and parameters
correspond if they are equal, and which excuses the left side for errors about missing features. It
is free: it holds for every dialect, whatever its templates, clause orders and conventions.
-/

namespace QueryPlan

/-- A setting that is strict on the left and lenient on the right. -/
def strictness (s : Setting) : Pairing :=
  { left := { s with strict := true }
    right := { s with strict := false }
    Text := fun _ t t' => t' = t
    Noted := fun _ c c' => c' = c
    Excused := fun e => e.isUnsupported = true
    Free := True }

theorem lawful_strictness (s : Setting) : (strictness s).Lawful where
  dialect := rfl
  constants := rfl
  strict := .inr ⟨rfl, fun _ he => he⟩
  arrangement := .inl trivial
  free _ _ _ _ _ h := h
  freeClean _ _ := trivial
  ofFirm _ := trivial
  cleanAppend _ _ := trivial
  quoteIdent _ := trivial
  stringLiteral _ := trivial
  ofPlain _ := trivial
  properLiteral _ := trivial
  intervalValue _ := trivial
  clean _ := rfl
  proper _ := rfl
  front _ h := by cases h; rfl
  sign h := by cases h; rfl
  append ha hb _ := by cases ha; cases hb; rfl
  present h := by rw [h]
  empty _ h := ⟨h, h⟩
  operandText h := h
  operand h _ _ _ _ := by cases h; rfl
  guarded h _ _ _ := by cases h; rfl
  wrapWeak h := by cases h; rfl
  references := .inl rfl
  named type _ h := ⟨[], by cases h; rfl, by cases h; rfl⟩
  value v type h := ⟨[], by cases h; rfl, by cases h; rfl⟩
  repeated hc hd := by cases hc; cases hd; rfl

theorem Error.isUnsupported_inDialect (name : String) (e : Error) :
    (e.inDialect name).isUnsupported = e.isUnsupported := by
  obtain ⟨cause, hints, code⟩ := e
  cases cause with
  | unsupported feature dialect => cases dialect <;> rfl
  | _ => rfl

/-- A strict and a lenient compilation end in the same text and state, or with the same error, or
    the strict one reports a missing feature. -/
theorem runRender_strict (s : Statement) (d : Dialect) (o : Options) :
    s.runRender d { o with strict := false } = s.runRender d { o with strict := true } ∨
      ∃ e, s.runRender d { o with strict := true } = .error e ∧ e.isUnsupported = true := by
  rcases (lawful_strictness (.ofOptions d o)).compiles_alike
      (fun _ => trivial) (fun _ => trivial) (fun _ => trivial) (fun _ _ _ => Iff.rfl) s
      d.placeholder with
    ⟨v, t, t', c, hstrict, hlenient, ht⟩ | ⟨e, hstrict, hlenient | he⟩
  · cases ht
    exact .inl (hlenient.trans hstrict.symm)
  · exact .inl (hlenient.trans hstrict.symm)
  · exact .inr ⟨e, hstrict, he⟩

/-- **Lenient mode is a conservative extension of strict mode.** What compiles strictly compiles
    leniently to the same text, parameters, names and decode plan, and an error that is not about a
    missing feature stays the same. -/
theorem lenient_extends_strict (s : Statement) (d : Dialect) (o : Options) :
    (∀ out, compileWith s d { o with strict := true } = .ok out →
      ∃ out', compileWith s d { o with strict := false } = .ok out' ∧ out'.sql = out.sql ∧
        out'.params = out.params ∧ out'.names = out.names ∧
        out'.decoder.plan = out.decoder.plan) ∧
    (∀ e, compileWith s d { o with strict := true } = .error e → e.isUnsupported = false →
      compileWith s d { o with strict := false } = .error e) := by
  rcases runRender_strict s d o with heq | ⟨e₀, he₀, hunsupported⟩
  · unfold compileWith
    rw [heq]
    constructor
    · intro out hout
      split at hout
      · cases hout
      · cases hout
        exact ⟨_, rfl, rfl, rfl, rfl, rfl⟩
    · intro e he _
      split at he
      · exact he
      · cases he
  · unfold compileWith
    rw [he₀]
    constructor
    · intro out hout
      cases hout
    · intro e he hsupported
      cases he
      rw [Error.isUnsupported_inDialect, hunsupported] at hsupported
      cases hsupported

/-- An update without assignments, which is an error of the plan. -/
def Update.ofNothing (table : String) : Update :=
  ⟨[], ⟨none, table, table, []⟩, [], [], [], [], none, [], .rows⟩

/-- An upsert of one reading for each sensor, read back: data-modifying common table expressions,
    `DISTINCT ON`, upserts and `RETURNING` are each missing from some dialect. -/
def keptReadings : Statement :=
  let readings := .select { Select.empty with
    distinct := some (.on [.field "r" "id" none])
    projection := [⟨"id", .field "r" "id" none⟩, ⟨"n", .field "r" "n" none⟩]
    sources := [.table ⟨none, "readings", "r", []⟩] }
  .select { Select.empty with
    ctes := [⟨"kept", .insert ⟨[], ⟨none, "latest", "latest", []⟩, ["id", "n"], .query readings,
      some ⟨["id"], .doUpdate [⟨"n", .excluded "n"⟩]⟩, false, none,
      [⟨"id", .field "latest" "id" none⟩], .rows⟩, false⟩]
    projection := [⟨"id", .field "kept" "id" none⟩]
    sources := [.table ⟨none, "kept", "kept", []⟩] }

def keptReadingsSql : String :=
  "WITH kept AS (INSERT INTO latest (id, n) SELECT DISTINCT ON (id) id, n FROM readings AS r " ++
    "ON CONFLICT (id) DO UPDATE SET n = EXCLUDED.n RETURNING id) SELECT id FROM kept"

/-- A query that passes all four in strict mode compiles to the same text in lenient mode, and a
    change that is an error of the plan fails with the same error. -/
theorem lenient_extends_strict_here :
    (∃ out out', compileWith keptReadings .postgres { strict := true } = .ok out ∧
      out.sql = keptReadingsSql ∧
      compileWith keptReadings .postgres { strict := false } = .ok out' ∧ out'.sql = out.sql) ∧
    compileWith (.update (.ofNothing "t")) .generic { strict := false } =
      .error (.ofFault (.updateWithoutAssignments "t")) := by
  constructor
  · obtain ⟨out, hout, hsql⟩ := Compiled.exists_of_sql
      (show (compileWith keptReadings .postgres { strict := true }).map Compiled.sql =
        .ok keptReadingsSql by decide +kernel)
    obtain ⟨out', hout', hsame, -⟩ := (lenient_extends_strict keptReadings .postgres {}).1 out hout
    exact ⟨out, out', hout, hsql, hout', hsame⟩
  · exact (lenient_extends_strict (.update (.ofNothing "t")) .generic {}).2 _ rfl rfl

/-- The exception is needed: only the lenient mode makes do without `DISTINCT ON`. -/
example :
    (compileWith (.select { Select.empty with distinct := some (.on [.field "" "a" none]) })
        .generic { strict := true }).map Compiled.sql =
      .error ((Error.unsupported "DISTINCT ON").inDialect "generic") ∧
    (compileWith (.select { Select.empty with distinct := some (.on [.field "" "a" none]) })
        .generic { strict := false }).map Compiled.sql = .ok "SELECT DISTINCT *" := by
  decide +kernel

end QueryPlan
