import QueryPlan.Document.PlanReader
import QueryPlan.Proofs.Document.Values
import QueryPlan.Proofs.Plan.Constants

/-!
# Readers of plans that read back

The readers of plans take the number of documents that may stand inside each other. `ReadsAt depth`
says of a reader that it reads back whatever is no larger than `depth` and has constants that are
read back. Lists, pairs and options keep this (`ReadsAt.list` and the rules beside it). Since the
types of plans refer to each other, `ReadersAt depth` says it of all their readers at once.
-/

namespace QueryPlan

open Document

/-! ## 1. Tables and fields -/

theorem Column.reads_toDocument (c : Column) : Reads ofDocument? c.toDocument c := by
  have htype := optional_ofOption (fun t (_ : t ∈ c.type) => t.reads_toDocument) rfl
  rw [Reads, toDocument, ofDocument?]
  simp [htype]

theorem Table.reads_toDocument (t : Table) : Reads ofDocument? t.toDocument t := by
  have hschema := optional_ofOption (fun s (_ : s ∈ t.schema) => reads_text s) rfl
  have hcolumns := reads_list fun c (_ : c ∈ t.columns) => c.reads_toDocument
  rw [Reads, toDocument, ofDocument?]
  simp [hschema, hcolumns]

namespace Document

@[simp] theorem typeField_fst (type : Option DataType) : (typeField type).1 = "data_type" := rfl

@[simp] theorem countField_fst (name : String) (n : Option UInt64) :
    (countField name n).1 = name := rfl

@[simp] theorem optional_typeField (type : Option DataType) :
    optional DataType.ofDocument? (some (.ofJson true (typeField type).2)) = some type :=
  optional_ofOption (fun t _ => t.reads_toDocument) rfl

@[simp] theorem optional_countField (name : String) (n : Option UInt64) :
    optional uint64? (some (.ofJson true (countField name n).2)) = some n :=
  optional_ofOption (fun n _ => reads_uint64 n) rfl

@[simp] theorem optional_named {κ : Type} [Named κ] (k : Option κ) :
    optional named? (some (.ofJson true (.ofOption ofNamed k))) = some k :=
  optional_ofOption (fun k _ => reads_named k) rfl

end Document

/-! ## 2. Readers at a depth -/

/-- The documents of all these values are read back. -/
def AllRead (values : List Value) : Prop :=
  ∀ v ∈ values, Reads Value.ofDocument? v.toDocument v

theorem allRead_append {xs ys : List Value} : AllRead (xs ++ ys) ↔ AllRead xs ∧ AllRead ys :=
  List.forall_mem_append

/-- **A reader at a depth** reads back what is no larger and has constants that are read back. -/
def ReadsAt {α : Type} (depth : Nat) (read : Nat → Part → Option α) (doc : α → Json)
    (constants : α → List Value) : Prop :=
  ∀ a, AllRead (constants a) → (doc a).weight ≤ depth → Reads (read depth) (doc a) a

namespace ReadsAt

variable {α β : Type} {depth : Nat} {read : Nat → Part → Option α} {doc : α → Json}
  {constants : α → List Value}

/-- Nothing is so small that it has no depth. -/
theorem zero : ReadsAt 0 read doc constants := by
  intro a _ hw
  exact absurd (doc a).weight_pos (Nat.not_lt.2 hw)

theorem named {κ : Type} [Named κ] :
    ReadsAt depth (fun _ => named? (κ := κ)) ofNamed fun _ => [] :=
  fun k _ _ => reads_named k

/-- Lists, whatever writes them and collects their constants item by item. -/
theorem list (h : ReadsAt depth read doc constants) {docs : List α → List Json}
    {collected : List α → List Value} (hnil : docs [] = [])
    (hdocs : ∀ a rest, docs (a :: rest) = doc a :: docs rest)
    (hcollected : ∀ a rest, collected (a :: rest) = constants a ++ collected rest) :
    ReadsAt depth (fun d => list? (read d)) (fun items => .array (docs items)) collected := by
  have hmap : ∀ items, docs items = items.map doc := by
    intro items
    induction items with
    | nil => exact hnil
    | cons a rest ih => rw [hdocs, ih, List.map_cons]
  have hmem : ∀ items, AllRead (collected items) → ∀ a ∈ items, AllRead (constants a) := by
    intro items hv
    induction items with
    | nil => nofun
    | cons a rest ih =>
      rw [hcollected, allRead_append] at hv
      exact List.forall_mem_cons.2 ⟨hv.1, ih hv.2⟩
  intro items hv hw
  simp only [hmap] at hw ⊢
  refine reads_list fun a ha => h a (hmem items hv a ha) ?_
  exact Nat.le_trans (Json.weight_le_weightItems (List.mem_map_of_mem ha)) (Nat.le_of_succ_le hw)

theorem pair {right : Nat → Part → Option β} {docRight : β → Json}
    {constantsRight : β → List Value} (h : ReadsAt depth read doc constants)
    (hright : ReadsAt depth right docRight constantsRight) :
    ReadsAt depth (fun d => pair? (read d) (right d)) (fun p => .array [doc p.1, docRight p.2])
      fun p => constants p.1 ++ constantsRight p.2 := by
  intro p hv hw
  simp only [Json.weight, Json.weightItems] at hw
  rw [allRead_append] at hv
  exact reads_pair (h p.1 hv.1 (by omega)) (hright p.2 hv.2 (by omega))

/-- What may be missing. -/
theorem option (h : ReadsAt depth read doc constants) {docs : Option α → Json}
    {collected : Option α → List Value} (hnone : docs none = .null)
    (hdocs : ∀ a, docs (some a) = doc a) (hcollected : ∀ a, collected (some a) = constants a)
    (hnull : read depth .null = none) :
    ReadsAt depth (fun d j => optional (read d) (some j)) docs collected := by
  intro o hv hw
  have hoption : docs o = .ofOption doc o := by
    cases o with
    | none => exact hnone
    | some a => exact hdocs a
  rw [hoption]
  refine optional_ofOption ?_ hnull
  rintro a rfl
  rw [hcollected] at hv
  rw [hdocs] at hw
  exact h a hv hw

end ReadsAt

/-- **All readers at a depth** read back what is no larger. -/
structure ReadersAt (depth : Nat) : Prop where
  expr : ReadsAt depth readExpr? Expr.toDocument Expr.constants
  members : ReadsAt depth readMembers? Members.toDocument Members.constants
  windowRef : ReadsAt depth readWindowRef? WindowRef.toDocument WindowRef.constants
  windowSpec : ReadsAt depth readWindowSpec? WindowSpec.toDocument WindowSpec.constants
  orderBy : ReadsAt depth readOrderBy? OrderBy.toDocument OrderBy.constants
  source : ReadsAt depth readSource? Source.toDocument Source.constants
  projection : ReadsAt depth readProjection? Projection.toDocument Projection.constants
  namedWindow : ReadsAt depth readNamedWindow? NamedWindow.toDocument NamedWindow.constants
  distinct : ReadsAt depth readDistinct? Distinct.toDocument Distinct.constants
  cte : ReadsAt depth readCte? Cte.toDocument Cte.constants
  select : ReadsAt depth readSelect? Select.toDocument Select.constants
  setOperation : ReadsAt depth readSetOperation? SetOperation.toDocument SetOperation.constants
  assignment : ReadsAt depth readAssignment? Assignment.toDocument Assignment.constants
  insertSource : ReadsAt depth readInsertSource? InsertSource.toDocument InsertSource.constants
  conflictAction :
    ReadsAt depth readConflictAction? ConflictAction.toDocument ConflictAction.constants
  onConflict : ReadsAt depth readOnConflict? OnConflict.toDocument OnConflict.constants
  insert : ReadsAt depth readInsert? Insert.toDocument Insert.constants
  update : ReadsAt depth readUpdate? Update.toDocument Update.constants
  delete : ReadsAt depth readDelete? Delete.toDocument Delete.constants
  statement : ReadsAt depth readStatement? Statement.toDocument Statement.constants

namespace ReadersAt

variable {depth : Nat} (ih : ReadersAt depth)
include ih

/-! ## 3. Lists and options of plans -/

theorem exprs (l : List Expr) (hv : AllRead (exprConstants l))
    (hw : (Json.array (exprDocuments l)).weight ≤ depth) :
    Reads (list? (readExpr? depth)) (.array (exprDocuments l)) l :=
  ih.expr.list rfl (fun _ _ => rfl) (fun _ _ => rfl) l hv hw

theorem rows (l : List (List Expr)) (hv : AllRead (rowConstants l))
    (hw : (Json.array (rowDocuments l)).weight ≤ depth) :
    Reads (list? (list? (readExpr? depth))) (.array (rowDocuments l)) l := by
  have hrow : ReadsAt depth (fun d => list? (readExpr? d))
    (fun row => .array (exprDocuments row)) exprConstants := ih.exprs
  exact hrow.list rfl (fun _ _ => rfl) (fun _ _ => rfl) l hv hw

theorem arms (l : List (Expr × Expr)) (hv : AllRead (armConstants l))
    (hw : (Json.array (armDocuments l)).weight ≤ depth) :
    Reads (list? (pair? (readExpr? depth) (readExpr? depth))) (.array (armDocuments l)) l :=
  (ih.expr.pair ih.expr).list rfl (fun _ _ => rfl) (fun _ _ => rfl) l hv hw

theorem orderBys (l : List OrderBy) (hv : AllRead (orderConstants l))
    (hw : (Json.array (orderDocuments l)).weight ≤ depth) :
    Reads (list? (readOrderBy? depth)) (.array (orderDocuments l)) l :=
  ih.orderBy.list rfl (fun _ _ => rfl) (fun _ _ => rfl) l hv hw

theorem sources (l : List Source) (hv : AllRead (sourceConstants l))
    (hw : (Json.array (sourceDocuments l)).weight ≤ depth) :
    Reads (list? (readSource? depth)) (.array (sourceDocuments l)) l :=
  ih.source.list rfl (fun _ _ => rfl) (fun _ _ => rfl) l hv hw

theorem projections (l : List Projection) (hv : AllRead (projectionConstants l))
    (hw : (Json.array (projectionDocuments l)).weight ≤ depth) :
    Reads (list? (readProjection? depth)) (.array (projectionDocuments l)) l :=
  ih.projection.list rfl (fun _ _ => rfl) (fun _ _ => rfl) l hv hw

theorem namedWindows (l : List NamedWindow) (hv : AllRead (windowConstants l))
    (hw : (Json.array (windowDocuments l)).weight ≤ depth) :
    Reads (list? (readNamedWindow? depth)) (.array (windowDocuments l)) l :=
  ih.namedWindow.list rfl (fun _ _ => rfl) (fun _ _ => rfl) l hv hw

theorem ctes (l : List Cte) (hv : AllRead (cteConstants l))
    (hw : (Json.array (cteDocuments l)).weight ≤ depth) :
    Reads (list? (readCte? depth)) (.array (cteDocuments l)) l :=
  ih.cte.list rfl (fun _ _ => rfl) (fun _ _ => rfl) l hv hw

theorem branches (l : List (SetOperator × Statement)) (hv : AllRead (branchConstants l))
    (hw : (Json.array (branchDocuments l)).weight ≤ depth) :
    Reads (list? (pair? named? (readStatement? depth))) (.array (branchDocuments l)) l :=
  (ReadsAt.named.pair ih.statement).list rfl (fun _ _ => rfl) (fun _ _ => rfl) l hv hw

theorem assignments (l : List Assignment) (hv : AllRead (assignmentConstants l))
    (hw : (Json.array (assignmentDocuments l)).weight ≤ depth) :
    Reads (list? (readAssignment? depth)) (.array (assignmentDocuments l)) l :=
  ih.assignment.list rfl (fun _ _ => rfl) (fun _ _ => rfl) l hv hw

theorem exprOption : ReadsAt depth (fun d j => optional (readExpr? d) (some j)) optionDocument
    optionConstants := by
  refine ih.expr.option rfl (fun _ => rfl) (fun _ => rfl) ?_
  cases depth <;> rfl

theorem distinctOption : ReadsAt depth (fun d j => optional (readDistinct? d) (some j))
    distinctDocument distinctConstants := by
  refine ih.distinct.option rfl (fun _ => rfl) (fun _ => rfl) ?_
  cases depth <;> rfl

theorem conflictOption : ReadsAt depth (fun d j => optional (readOnConflict? d) (some j))
    conflictDocument conflictConstants := by
  refine ih.onConflict.option rfl (fun _ => rfl) (fun _ => rfl) ?_
  cases depth <;> rfl

end ReadersAt

end QueryPlan
