import QueryPlan.Proofs.Arithmetic.Distinction

/-!
# Parentheses that are left out

What an engine computes for arithmetic that the compiler has printed for PostgreSQL, compared with
the plan (`value_of_printed`). The value is kept if no operator is regrouped against the laws of
arithmetic, and, where all columns are different, only then: a product whose right operand is a
quotient or a remainder is printed without parentheses, and so are bitwise operators in each other,
although the engine then groups them in another way.

References to columns are read as words in every state of a compilation in which the names that
stand for tables are (`Context.Legible`). A compilation starts in such a state, and enters scopes of
this kind only (`Scope.legible_ofSources`, `Scope.legible_targetScope`).
-/

namespace QueryPlan

open Compile

/-! ## 1. References -/

theorem staysWord_append {a b : List Char} {quoted : Bool} (ha : staysWord quoted a = true)
    (hb : staysWord false b = true) : staysWord quoted (a ++ b) = true := by
  induction a generalizing quoted with
  | nil =>
    cases quoted with
    | true => cases ha
    | false => exact hb
  | cons c cs ih =>
    cases quoted with
    | true => exact ih ha
    | false =>
      rw [staysWord, Bool.and_eq_true] at ha
      rw [List.cons_append, staysWord, ha.1, ih ha.2]
      rfl

theorem staysWord_of_isIdentRest {cs : List Char} (h : ∀ c ∈ cs, isIdentRest c = true) :
    staysWord false cs = true := by
  induction cs with
  | nil => rfl
  | cons c cs ih =>
    have hother : ∀ x ∈ [' ', '-', '(', ')', '"'], c ≠ x := by
      rintro x hx rfl
      have hnot : [' ', '-', '(', ')', '"'].all (fun x => !isIdentRest x) = true := by decide
      have hc := List.all_eq_true.1 hnot c hx
      rw [h c List.mem_cons_self] at hc
      cases hc
    have hquote : (c == '"') = false := beq_eq_false_iff_ne.2 (hother '"' (by decide))
    have hends : [' ', '-', '(', ')'].contains c = false := by
      rw [List.contains_eq_mem, decide_eq_false_iff_not]
      exact fun hc => hother c (List.mem_append_left ['"'] hc) rfl
    rw [staysWord, hends, hquote, ih fun x hx => h x (List.mem_cons_of_mem c hx)]
    rfl

theorem staysWord_quoteChars (ident : List Char) :
    staysWord false (quoteChars '"' '"' ident) = true := by
  have hinside : staysWord true
      (ident.flatMap (fun c => if c = '"' then [c, c] else [c]) ++ ['"']) = true := by
    induction ident with
    | nil => rfl
    | cons c cs ih =>
      rw [List.flatMap_cons, List.append_assoc]
      split
      · next hc =>
        rw [hc]
        exact ih
      · next hc =>
        rw [List.singleton_append, staysWord, bne_iff_ne.2 hc]
        exact ih
  exact hinside

/-- Identifiers are printed as words. -/
theorem isReference_quoteIdent (ident : String) :
    IsReference (Dialect.postgres.quoteIdent ident) := by
  unfold Dialect.quoteIdent
  split
  · next h =>
    rw [Bool.and_eq_true] at h
    have hplain := h.1
    unfold IsReference
    generalize ident.toList = cs at hplain ⊢
    cases cs with
    | nil => cases hplain
    | cons c cs =>
      refine ⟨List.cons_ne_nil c cs, ?_⟩
      rw [isPlainIdent, Bool.or_eq_true, Bool.and_eq_true, Bool.and_eq_true] at hplain
      rcases hplain with ⟨hstar, hnil⟩ | ⟨hstart, hrest⟩
      · rw [beq_iff_eq.1 hstar, List.isEmpty_iff.1 hnil]
        rfl
      · refine staysWord_of_isIdentRest fun x hx => ?_
        rcases List.mem_cons.1 hx with rfl | hx
        · rw [isIdentRest, hstart, Bool.true_or]
        · exact List.all_eq_true.1 hrest x hx
  · unfold IsReference
    rw [String.toList_ofList]
    exact ⟨List.cons_ne_nil _ _, staysWord_quoteChars _⟩

theorem IsReference.dotted {a b : String} (ha : IsReference a) (hb : IsReference b) :
    IsReference (a ++ "." ++ b) := by
  unfold IsReference at *
  rw [String.toList_append, String.toList_append]
  exact ⟨List.append_ne_nil_of_left_ne_nil (List.append_ne_nil_of_left_ne_nil ha.1 _) _,
    staysWord_append (staysWord_append ha.2 rfl) hb.2⟩

/-- A scope in which every name that stands for a table is a word. -/
def Scope.Legible (scope : Scope) : Prop :=
  ∀ x ∈ scope.printedAs, IsReference x.2

/-- A state in which every name that stands for a table is a word. -/
structure Context.Legible (c : Context) : Prop where
  scopes : ∀ scope ∈ c.scopes, scope.Legible
  outputTable : ∀ x ∈ c.outputTable, IsReference x.2

theorem Context.legible_start (style : PlaceholderStyle) : (Context.start style).Legible :=
  ⟨fun _ h => absurd h List.not_mem_nil, fun _ h => nomatch h⟩

theorem Context.Legible.enter {c : Context} (hc : c.Legible) {scope : Scope} (h : scope.Legible) :
    Context.Legible { c with scopes := scope :: c.scopes } := by
  refine ⟨fun other ho => ?_, hc.outputTable⟩
  rcases List.mem_cons.1 ho with rfl | ho
  · exact h
  · exact hc.scopes other ho

/-- The scope of a query prints its tables by their labels. -/
theorem Scope.legible_ofSources (frames : List Frame) (sources : List Source)
    (projection : List Projection) : (Scope.ofSources frames sources projection).Legible :=
  fun _ h => absurd h List.not_mem_nil

section

variable {s : Setting} (hs : s.dialect = .postgres) {c : Context} (hc : c.Legible)
include hs

theorem isReference_quoted (ident : String) : IsReference (s.dialect.quoteIdent ident) :=
  hs ▸ isReference_quoteIdent ident

/-- The scope of a change prints its target by the name of the table. -/
theorem Scope.legible_targetScope {target : Table} {sources : List Source}
    {returning : List Projection} {scope : Scope} {c' : Context}
    (h : Compile.targetScope target sources returning s c = .ok (scope, c')) : scope.Legible :=
  printedAs_targetScope (isReference_quoted hs)
    (fun _ ident hfront => hfront.dotted (isReference_quoted hs ident)) h

include hc

theorem isReference_columnText (ref : ColumnRef) : IsReference (columnText s c ref) :=
  columnText_of_names (isReference_quoted hs)
    (fun _ ident hfront => hfront.dotted (isReference_quoted hs ident)) hc.scopes hc.outputTable ref

theorem legible_map_columnText (t : Arith ColumnRef) : (t.map (columnText s c)).Legible := by
  intro ref href
  rw [Arith.leaves_map] at href
  obtain ⟨col, -, rfl⟩ := List.mem_map.1 href
  exact isReference_columnText hs hc col

end

/-! ## 2. Values -/

/-- **What is read for printed arithmetic.** In PostgreSQL, every tree of columns, signs and integer
    operators is printed, and its text can be read. If the tree is regrouped by laws of arithmetic
    only, the text has the values of the tree for all values of the columns. If the columns are all
    different, this condition is exact: without it there are values of the columns for which text
    and tree differ. -/
theorem value_of_printed (s : Setting) (c : Context) (t : Arith ColumnRef)
    (hs : s.dialect = .postgres) (hc : c.Legible) :
    ∃ text tree, t.toExpr.render s c = .ok (⟨text, t.strength⟩, c) ∧
      readArith text = some tree ∧
      (t.regroupsSafely = true →
        ∀ ρ : String → Int, tree.value ρ = t.value fun col => ρ (columnText s c col)) ∧
      ((t.leaves.map (columnText s c)).Nodup →
        (∀ ρ : String → Int, tree.value ρ = t.value fun col => ρ (columnText s c col)) →
        t.regroupsSafely = true) := by
  let printed := t.map (columnText s c)
  have hvalue : ∀ ρ : String → Int, printed.value ρ = t.value fun col => ρ (columnText s c col) :=
    fun ρ => congrArg Arith.eval (Arith.map_map _ ρ t)
  have hsafe : printed.regroupsSafely = t.regroupsSafely := Arith.regroupsSafely_map _ t
  refine ⟨printed.printed.text, printed.regroup, ?_,
    readArith_printed (legible_map_columnText hs hc t), ?_, ?_⟩
  · rw [render_toExpr hs c t]
    refine congrArg (fun strength => Except.ok (Fragment.mk printed.printed.text strength, c)) ?_
    rw [Arith.strength_printed, Arith.strength_map]
  · intro h ρ
    rw [← hvalue]
    exact Arith.value_regroup (hsafe.trans h) ρ
  · intro hd h
    rw [← hsafe]
    rw [← Arith.leaves_map] at hd
    exact (Arith.value_regroup_iff hd).1 fun ρ => (h ρ).trans (hvalue ρ).symm

/-- A table without a schema and without known columns. -/
def Table.bare (name : String) : Table :=
  ⟨none, name, name, []⟩

/-- The state inside a query that reads one table. -/
def Context.inQuery (table : String) : Context :=
  { Context.start .numbered with scopes := [Scope.ofSources [] [.table (.bare table)] []] }

/-- The state inside a change of one table. -/
def Context.inChange (table : String) : Context :=
  { Context.start .numbered with
    scopes := [{ Scope.ofSources [] [.table (.bare table)] [] with
      printedAs := [(table, Dialect.postgres.quoteIdent table)] }] }

/-- A difference with a sum on its right keeps its parentheses and its value. A product with a
    quotient on its right loses both. -/
theorem value_of_printed_here :
    (∃ text tree, (Arith.binary .sub (.column ⟨"t", "a", none⟩)
          (.binary .add (.column ⟨"t", "b", none⟩) (.column ⟨"t", "A", none⟩))).toExpr.render
            (.ofOptions .postgres {}) (.inQuery "t") =
          .ok (⟨text, ArithOp.sub.strength⟩, .inQuery "t") ∧
      readArith text = some tree ∧
      ∀ ρ : String → Int, tree.value ρ = some (ρ "a" - (ρ "b" + ρ "\"A\""))) ∧
    (∃ text tree, (Arith.binary .mul (.column ⟨"t", "a", none⟩)
          (.binary .div (.column ⟨"t", "b", none⟩) (.column ⟨"t", "c", none⟩))).toExpr.render
            (.ofOptions .postgres {}) (.inChange "t") =
          .ok (⟨text, ArithOp.mul.strength⟩, .inChange "t") ∧
      readArith text = some tree ∧
      ¬ ∀ ρ : String → Int, tree.value ρ =
        (ArithOp.div.apply (ρ "b") (ρ "c")).bind fun q => some (ρ "a" * q)) := by
  have hstart := Context.legible_start .numbered
  constructor
  · obtain ⟨text, tree, htext, htree, hvalue, -⟩ := value_of_printed (.ofOptions .postgres {})
      (.inQuery "t") (.binary .sub (.column ⟨"t", "a", none⟩)
        (.binary .add (.column ⟨"t", "b", none⟩) (.column ⟨"t", "A", none⟩)))
      rfl (hstart.enter (Scope.legible_ofSources _ _ _))
    exact ⟨text, tree, htext, htree, hvalue (by decide)⟩
  · have hscope : targetScope (.bare "t") [] [] (.ofOptions .postgres {}) (.start .numbered) =
        .ok (_, .start .numbered) := rfl
    obtain ⟨text, tree, htext, htree, -, hexact⟩ := value_of_printed (.ofOptions .postgres {})
      (.inChange "t") (.binary .mul (.column ⟨"t", "a", none⟩)
        (.binary .div (.column ⟨"t", "b", none⟩) (.column ⟨"t", "c", none⟩)))
      rfl (hstart.enter (Scope.legible_targetScope rfl hscope))
    exact ⟨text, tree, htext, htree, fun h => absurd (hexact (by decide) h) (by decide)⟩

end QueryPlan
