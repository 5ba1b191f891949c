import QueryPlan.Proofs.Document.Readers
import QueryPlan.Proofs.Json.ReadBack

/-!
# Plans survive their documents

A statement that is written as a document and read again is the same statement
(`Statement.document_read_back`). The proof is by induction on the depth that readers may go:
readers that read back at one depth do so at the next (`ReadersAt.succ`), by one lemma for each type
of plans. What a document holds weighs less than the document, so that it can be left to the readers
of the depth before.
-/

namespace QueryPlan

open Document

namespace ReadersAt

variable {depth : Nat} (ih : ReadersAt depth)
include ih

/-! ## 1. Expressions -/

theorem expr_succ : ReadsAt (depth + 1) readExpr? Expr.toDocument Expr.constants := by
  intro e hv hw
  cases e
  case default => rfl
  -- the weights of all fields together are at most `depth`, hence so is that of each
  all_goals simp only [Expr.toDocument, weight_tagged, Json.weight_object, Json.weightFields] at hw
  all_goals simp only [Expr.constants, allRead_append] at hv
  all_goals rw [Reads, Expr.toDocument, readExpr?, bind_choice?_tagged]
  case constant value type => simp [hv value List.mem_cons_self]
  case field source name type | param name type => simp
  case function name es type | conditions op es | row es =>
    have hes := ih.exprs es hv (by omega)
    simp [hes]
  case aggregate kind distinct arg filter =>
    have harg := ih.exprOption arg hv.1 (by omega)
    have hfilter := ih.exprOption filter hv.2 (by omega)
    simp [harg, hfilter]
  case unary op operand | unaryPredicate op operand | not operand =>
    have hoperand := ih.expr operand hv (by omega)
    simp [hoperand]
  case binary op left right | binaryPredicate op left right =>
    have hleft := ih.expr left hv.1 (by omega)
    have hright := ih.expr right hv.2 (by omega)
    simp [hleft, hright]
  case case subject arms otherwise =>
    have hsubject := ih.exprOption subject hv.1.1 (by omega)
    have harms := ih.arms arms hv.1.2 (by omega)
    have hotherwise := ih.exprOption otherwise hv.2 (by omega)
    simp [hsubject, harms, hotherwise]
  case cast type operand =>
    have hoperand := ih.expr operand hv (by omega)
    simp [type.reads_toDocument, hoperand]
  case between value low high negated =>
    have hvalue := ih.expr value hv.1.1 (by omega)
    have hlow := ih.expr low hv.1.2 (by omega)
    have hhigh := ih.expr high hv.2 (by omega)
    simp [hvalue, hlow, hhigh]
  case member value list negated =>
    have hvalue := ih.expr value hv.1 (by omega)
    have hlist := ih.members list hv.2 (by omega)
    simp [hvalue, hlist]
  case rowsExist statement negated | query statement =>
    have hstatement := ih.statement statement hv (by omega)
    simp [hstatement]
  case windowed expr window =>
    have hexpr := ih.expr expr hv.1 (by omega)
    have hwindow := ih.windowRef window hv.2 (by omega)
    simp [hexpr, hwindow]
  case raw sql | excluded column => rfl

theorem members_succ : ReadsAt (depth + 1) readMembers? Members.toDocument Members.constants := by
  intro x hv hw
  cases x
  all_goals rw [Members.toDocument, weight_tagged] at hw
  all_goals rw [Reads, Members.toDocument, readMembers?, bind_choice?_tagged]
  case exprs list =>
    have hlist := ih.exprs list hv (by omega)
    simp [hlist]
  case query statement =>
    have hstatement := ih.statement statement hv (by omega)
    simp [hstatement]

/-! ## 2. Windows and order -/

theorem windowRef_succ : ReadsAt (depth + 1) readWindowRef? WindowRef.toDocument
    WindowRef.constants := by
  intro x hv hw
  cases x with
  | named name => rfl
  | inline spec =>
    rw [WindowRef.toDocument, weight_tagged] at hw
    have hspec := ih.windowSpec spec hv (by omega)
    rw [Reads, WindowRef.toDocument, readWindowRef?, bind_choice?_tagged]
    simp [hspec]

theorem windowSpec_succ : ReadsAt (depth + 1) readWindowSpec? WindowSpec.toDocument
    WindowSpec.constants := by
  intro ⟨partitionBy, orderBy⟩ hv hw
  simp only [WindowSpec.toDocument, Json.weight_object, Json.weightFields] at hw
  simp only [WindowSpec.constants, allRead_append] at hv
  have hpartitionBy := ih.exprs partitionBy hv.1 (by omega)
  have horderBy := ih.orderBys orderBy hv.2 (by omega)
  rw [Reads, WindowSpec.toDocument, readWindowSpec?]
  simp [hpartitionBy, horderBy]

theorem orderBy_succ : ReadsAt (depth + 1) readOrderBy? OrderBy.toDocument OrderBy.constants := by
  intro ⟨expr, direction, nulls⟩ hv hw
  simp only [OrderBy.toDocument, Json.weight_object, Json.weightFields] at hw
  have hexpr := ih.expr expr hv (by omega)
  rw [Reads, OrderBy.toDocument, readOrderBy?]
  simp [hexpr]

theorem namedWindow_succ : ReadsAt (depth + 1) readNamedWindow? NamedWindow.toDocument
    NamedWindow.constants := by
  intro ⟨name, spec⟩ hv hw
  simp only [NamedWindow.toDocument, Json.weight_object, Json.weightFields] at hw
  have hspec := ih.windowSpec spec hv (by omega)
  rw [Reads, NamedWindow.toDocument, readNamedWindow?]
  simp [hspec]

/-! ## 3. Queries -/

theorem source_succ : ReadsAt (depth + 1) readSource? Source.toDocument Source.constants := by
  intro x hv hw
  cases x
  all_goals simp only [Source.toDocument, weight_tagged, Json.weight_object, Json.weightFields] at hw
  all_goals simp only [Source.constants, allRead_append] at hv
  all_goals rw [Reads, Source.toDocument, readSource?, bind_choice?_tagged]
  case table table => simp [table.reads_toDocument]
  case derived label statement =>
    have hstatement := ih.statement statement hv (by omega)
    simp [hstatement]
  case values label columns rows =>
    have hrows := ih.rows rows hv (by omega)
    simp [hrows]
  case join kind source condition =>
    have hsource := ih.source source hv.1 (by omega)
    have hcondition := ih.exprOption condition hv.2 (by omega)
    simp [hsource, hcondition]

theorem projection_succ : ReadsAt (depth + 1) readProjection? Projection.toDocument
    Projection.constants := by
  intro ⟨label, expr⟩ hv hw
  simp only [Projection.toDocument, Json.weight_object, Json.weightFields] at hw
  have hexpr := ih.expr expr hv (by omega)
  rw [Reads, Projection.toDocument, readProjection?]
  simp [hexpr]

theorem distinct_succ : ReadsAt (depth + 1) readDistinct? Distinct.toDocument
    Distinct.constants := by
  intro x hv hw
  cases x with
  | all => rfl
  | on exprs =>
    rw [Distinct.toDocument, weight_tagged] at hw
    have hexprs := ih.exprs exprs hv (by omega)
    rw [Reads, Distinct.toDocument, readDistinct?, bind_choice?_tagged]
    simp [hexprs]

theorem cte_succ : ReadsAt (depth + 1) readCte? Cte.toDocument Cte.constants := by
  intro ⟨label, statement, recursive⟩ hv hw
  simp only [Cte.toDocument, Json.weight_object, Json.weightFields] at hw
  have hstatement := ih.statement statement hv (by omega)
  rw [Reads, Cte.toDocument, readCte?]
  simp [hstatement]

theorem select_succ : ReadsAt (depth + 1) readSelect? Select.toDocument Select.constants := by
  intro ⟨ctes, distinct, projection, sources, predicates, groupBy, having, windows, orderBy, limit,
      offset, shape⟩ hv hw
  simp only [Select.toDocument, Json.weight_object, Json.weightFields] at hw
  simp only [Select.constants, allRead_append] at hv
  have hctes := ih.ctes ctes hv.1.1.1.1.1.1.1.1 (by omega)
  have hdistinct := ih.distinctOption distinct hv.1.1.1.1.1.1.1.2 (by omega)
  have hprojection := ih.projections projection hv.1.1.1.1.1.1.2 (by omega)
  have hsources := ih.sources sources hv.1.1.1.1.1.2 (by omega)
  have hpredicates := ih.exprs predicates hv.1.1.1.1.2 (by omega)
  have hgroupBy := ih.exprs groupBy hv.1.1.1.2 (by omega)
  have hhaving := ih.exprOption having hv.1.1.2 (by omega)
  have hwindows := ih.namedWindows windows hv.1.2 (by omega)
  have horderBy := ih.orderBys orderBy hv.2 (by omega)
  rw [Reads, Select.toDocument, readSelect?]
  simp [hctes, hdistinct, hprojection, hsources, hpredicates, hgroupBy, hhaving, hwindows, horderBy]

theorem setOperation_succ : ReadsAt (depth + 1) readSetOperation? SetOperation.toDocument
    SetOperation.constants := by
  intro ⟨ctes, first, rest, orderBy, limit, offset, shape⟩ hv hw
  simp only [SetOperation.toDocument, Json.weight_object, Json.weightFields] at hw
  simp only [SetOperation.constants, allRead_append] at hv
  have hctes := ih.ctes ctes hv.1.1.1 (by omega)
  have hfirst := ih.statement first hv.1.1.2 (by omega)
  have hrest := ih.branches rest hv.1.2 (by omega)
  have horderBy := ih.orderBys orderBy hv.2 (by omega)
  rw [Reads, SetOperation.toDocument, readSetOperation?]
  simp [hctes, hfirst, hrest, horderBy]

/-! ## 4. Changes -/

theorem assignment_succ : ReadsAt (depth + 1) readAssignment? Assignment.toDocument
    Assignment.constants := by
  intro ⟨column, value⟩ hv hw
  simp only [Assignment.toDocument, Json.weight_object, Json.weightFields] at hw
  have hvalue := ih.expr value hv (by omega)
  rw [Reads, Assignment.toDocument, readAssignment?]
  simp [hvalue]

theorem insertSource_succ : ReadsAt (depth + 1) readInsertSource? InsertSource.toDocument
    InsertSource.constants := by
  intro x hv hw
  cases x
  case defaultValues => rfl
  all_goals rw [InsertSource.toDocument, weight_tagged] at hw
  all_goals rw [Reads, InsertSource.toDocument, readInsertSource?, bind_choice?_tagged]
  case values rows =>
    have hrows := ih.rows rows hv (by omega)
    simp [hrows]
  case query statement =>
    have hstatement := ih.statement statement hv (by omega)
    simp [hstatement]

theorem conflictAction_succ : ReadsAt (depth + 1) readConflictAction? ConflictAction.toDocument
    ConflictAction.constants := by
  intro x hv hw
  cases x with
  | doNothing => rfl
  | doUpdate assignments =>
    rw [ConflictAction.toDocument, weight_tagged] at hw
    have hassignments := ih.assignments assignments hv (by omega)
    rw [Reads, ConflictAction.toDocument, readConflictAction?, bind_choice?_tagged]
    simp [hassignments]

theorem onConflict_succ : ReadsAt (depth + 1) readOnConflict? OnConflict.toDocument
    OnConflict.constants := by
  intro ⟨target, action⟩ hv hw
  simp only [OnConflict.toDocument, Json.weight_object, Json.weightFields] at hw
  have haction := ih.conflictAction action hv (by omega)
  rw [Reads, OnConflict.toDocument, readOnConflict?]
  simp [haction]

theorem insert_succ : ReadsAt (depth + 1) readInsert? Insert.toDocument Insert.constants := by
  intro ⟨ctes, table, columns, source, onConflict, ignore, priority, returning, shape⟩ hv hw
  simp only [Insert.toDocument, Json.weight_object, Json.weightFields] at hw
  simp only [Insert.constants, allRead_append] at hv
  have hctes := ih.ctes ctes hv.1.1.1 (by omega)
  have hsource := ih.insertSource source hv.1.1.2 (by omega)
  have honConflict := ih.conflictOption onConflict hv.1.2 (by omega)
  have hreturning := ih.projections returning hv.2 (by omega)
  rw [Reads, Insert.toDocument, readInsert?]
  simp [hctes, table.reads_toDocument, hsource, honConflict, hreturning]

theorem update_succ : ReadsAt (depth + 1) readUpdate? Update.toDocument Update.constants := by
  intro ⟨ctes, table, assignments, sources, predicates, orderBy, limit, returning, shape⟩ hv hw
  simp only [Update.toDocument, Json.weight_object, Json.weightFields] at hw
  simp only [Update.constants, allRead_append] at hv
  have hctes := ih.ctes ctes hv.1.1.1.1.1 (by omega)
  have hassignments := ih.assignments assignments hv.1.1.1.1.2 (by omega)
  have hsources := ih.sources sources hv.1.1.1.2 (by omega)
  have hpredicates := ih.exprs predicates hv.1.1.2 (by omega)
  have horderBy := ih.orderBys orderBy hv.1.2 (by omega)
  have hreturning := ih.projections returning hv.2 (by omega)
  rw [Reads, Update.toDocument, readUpdate?]
  simp [hctes, table.reads_toDocument, hassignments, hsources, hpredicates, horderBy, hreturning]

theorem delete_succ : ReadsAt (depth + 1) readDelete? Delete.toDocument Delete.constants := by
  intro ⟨ctes, table, sources, predicates, orderBy, limit, returning, shape⟩ hv hw
  simp only [Delete.toDocument, Json.weight_object, Json.weightFields] at hw
  simp only [Delete.constants, allRead_append] at hv
  have hctes := ih.ctes ctes hv.1.1.1.1 (by omega)
  have hsources := ih.sources sources hv.1.1.1.2 (by omega)
  have hpredicates := ih.exprs predicates hv.1.1.2 (by omega)
  have horderBy := ih.orderBys orderBy hv.1.2 (by omega)
  have hreturning := ih.projections returning hv.2 (by omega)
  rw [Reads, Delete.toDocument, readDelete?]
  simp [hctes, table.reads_toDocument, hsources, hpredicates, horderBy, hreturning]

theorem statement_succ : ReadsAt (depth + 1) readStatement? Statement.toDocument
    Statement.constants := by
  intro x hv hw
  cases x
  all_goals rw [Statement.toDocument, weight_tagged] at hw
  all_goals rw [Reads, Statement.toDocument, readStatement?, bind_choice?_tagged]
  case select query =>
    have hquery := ih.select query hv (by omega)
    simp [hquery]
  case insert change =>
    have hchange := ih.insert change hv (by omega)
    simp [hchange]
  case update change =>
    have hchange := ih.update change hv (by omega)
    simp [hchange]
  case delete change =>
    have hchange := ih.delete change hv (by omega)
    simp [hchange]
  case setOp query =>
    have hquery := ih.setOperation query hv (by omega)
    simp [hquery]

/-- Readers that read back at one depth read back at the next. -/
theorem succ : ReadersAt (depth + 1) where
  expr := ih.expr_succ
  members := ih.members_succ
  windowRef := ih.windowRef_succ
  windowSpec := ih.windowSpec_succ
  orderBy := ih.orderBy_succ
  source := ih.source_succ
  projection := ih.projection_succ
  namedWindow := ih.namedWindow_succ
  distinct := ih.distinct_succ
  cte := ih.cte_succ
  select := ih.select_succ
  setOperation := ih.setOperation_succ
  assignment := ih.assignment_succ
  insertSource := ih.insertSource_succ
  conflictAction := ih.conflictAction_succ
  onConflict := ih.onConflict_succ
  insert := ih.insert_succ
  update := ih.update_succ
  delete := ih.delete_succ
  statement := ih.statement_succ

omit ih

theorem zero : ReadersAt 0 := by
  constructor <;> exact .zero

theorem all (depth : Nat) : ReadersAt depth := by
  induction depth with
  | zero => exact zero
  | succ depth ih => exact ih.succ

end ReadersAt

/-! ## 5. Statements -/

namespace Statement

/-- The document of a statement is read back if those of its constants are. -/
theorem reads_toDocument {s : Statement} (h : AllRead s.constants) :
    Reads ofDocument? s.toDocument s := by
  have hread : ∀ depth, s.toDocument.weight ≤ depth →
      readStatement? depth (.ofJson true s.toDocument) = some s :=
    fun depth hdepth => (ReadersAt.all depth).statement s h hdepth
  rw [Reads, ofDocument?, readWhole, Part.weight_ofJson]
  exact hread _ (by omega)

/-- **Plans survive their documents.** A statement is what is read from the text of its document, if
    its doubles are finite, the names in its objects are distinct, and no more than 127 documents
    stand inside each other. A double in the document has to be what is read where it is printed. -/
theorem document_read_back {s : Statement}
    (hfinite : ∀ v ∈ s.constants, ∀ x ∈ v.doubles, x.isFinite = true)
    (hnames : ∀ v ∈ s.constants, v.NamesDistinct)
    (hdepth : s.toDocument.nesting ≤ Json.maxDepth)
    (hdoubles : ∀ x ∈ s.toDocument.doubles, x.ReadsBack) :
    ofDocumentText? s.toDocumentText = some s := by
  have hconstants : AllRead s.constants := fun v hv =>
    Value.reads_toDocument (hfinite v hv) (hnames v hv)
  have htext : Part.ofText? s.toDocumentText = some (.ofJson true s.toDocument) := by
    rw [toDocumentText, Part.ofText?, Json.read_render hdepth hdoubles]
  rw [ofDocumentText?, htext, Option.bind_some]
  exact reads_toDocument hconstants

theorem document_read_back_here :
    let tenth : Double := ⟨0x3FB999999999999A⟩
    let settings : Value :=
      .object [("ratio", .float tenth), ("tags", .array [.text "a\"b", .null])]
    let leap : Value := .date ⟨2024, 2, 29, by decide, by decide, by decide⟩
    let s : Statement := .delete
      { ctes := []
        table := ⟨some "app", "items", "i", [⟨"day", some .date⟩]⟩
        sources := []
        predicates :=
          [.binaryPredicate .lt (.field "i" "day" none) (.constant leap (some .date)),
            .binaryPredicate .eq (.field "i" "settings" none) (.constant settings none)]
        orderBy := []
        limit := some 10
        returning := []
        shape := .rows }
    (∀ v ∈ s.constants, ∀ x ∈ v.doubles, x.isFinite = true) ∧
      (∀ v ∈ s.constants, v.NamesDistinct) ∧ s.toDocument.nesting ≤ Json.maxDepth ∧
      (∀ x ∈ s.toDocument.doubles, x.ReadsBack) ∧
      ofDocumentText? s.toDocumentText = some s := by
  intro tenth settings leap s
  have htenth : tenth.isFinite = true := by decide +kernel
  have hfinite : ∀ v ∈ s.constants, ∀ x ∈ v.doubles, x.isFinite = true :=
    List.forall_mem_cons.2 ⟨nofun, List.forall_mem_singleton.2 (List.forall_mem_singleton.2 htenth)⟩
  have hnames : ∀ v ∈ s.constants, v.NamesDistinct :=
    List.forall_mem_cons.2 ⟨trivial, List.forall_mem_singleton.2
      ⟨by decide, trivial, ⟨trivial, trivial, trivial⟩, trivial⟩⟩
  have hdepth : s.toDocument.nesting ≤ Json.maxDepth := by decide +kernel
  have hdoubles : ∀ x ∈ s.toDocument.doubles, x.ReadsBack := by
    have honly : s.toDocument.doubles = [tenth] := by decide +kernel
    rw [honly, List.forall_mem_singleton, Json.readsBack_iff htenth]
    decide +kernel
  exact ⟨hfinite, hnames, hdepth, hdoubles,
    document_read_back hfinite hnames hdepth hdoubles⟩

end Statement

end QueryPlan
