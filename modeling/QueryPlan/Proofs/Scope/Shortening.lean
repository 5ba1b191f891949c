import QueryPlan.Compile.Output
import QueryPlan.Proofs.Compile.PairedStatement

/-!
# Short references change nothing but the text

Where a column can stand without its qualifier, a compilation that simplifies references leaves the
qualifier out. The shorter text goes on into operands, sort keys and templates, some of which look
at the texts that they are given; but all that they let depend on a text, besides other texts, is
whether it is empty, and a reference never is. So both compilations take the same steps: they meet
the same errors and note the same parameters (`short_references_keep_all_else`).

The two are compared by the pairing `shortening`, in which texts correspond if both or none of them
is empty. It is free: it holds for every dialect.
-/

namespace QueryPlan

/-! ## 1. Texts that are not empty -/

theorem Dialect.quoteIdent_ne_empty (d : Dialect) (ident : String) : d.quoteIdent ident ≠ "" := by
  unfold Dialect.quoteIdent
  split
  · next hplain =>
    rintro rfl
    cases (Bool.and_eq_true_iff.1 hplain).1
  · rw [← String.toList_inj.ne, String.toList_ofList]
    exact List.cons_ne_nil _ _

theorem Fragment.asOperand_ne_empty {f : Fragment} (h : f.text ≠ "") (isLeft : Bool)
    (parent : Strength) (associativity : Associativity) :
    (f.asOperand isLeft parent associativity).text ≠ "" := by
  unfold Fragment.asOperand
  split
  · exact fun he => h (String.append_eq_empty_iff.1 (String.append_eq_empty_iff.1 he).1).2
  · exact h

theorem Renderer.wrapWeak_ne_empty {text : String} (h : text ≠ "") : wrapWeak text ≠ "" := by
  unfold Renderer.wrapWeak
  split
  · exact h
  · exact fun he => h (String.append_eq_empty_iff.1 (String.append_eq_empty_iff.1 he).1).2

/-- Texts that are both empty, or none of them. -/
def BothEmpty (t t' : String) : Prop :=
  t' = "" ↔ t = ""

namespace BothEmpty

variable {t t' u u' : String}

theorem neither (h : t ≠ "") (h' : t' ≠ "") : BothEmpty t t' :=
  ⟨fun he => absurd he h', fun he => absurd he h⟩

theorem append (ht : BothEmpty t t') (hu : BothEmpty u u') : BothEmpty (t ++ u) (t' ++ u') := by
  unfold BothEmpty
  rw [String.append_eq_empty_iff, String.append_eq_empty_iff]
  exact and_congr ht hu

/-- What leaves no text empty may treat the two texts in different ways. -/
theorem map {f : String → String} (hf : ∀ {t}, t ≠ "" → f t ≠ "") (h : BothEmpty t t') :
    BothEmpty (f t) (f t') := by
  by_cases ht : t = ""
  · rw [ht, h.2 ht]
    exact Iff.rfl
  · exact neither (hf ht) (hf fun ht' => ht (h.1 ht'))

end BothEmpty

/-! ## 2. The pairing -/

/-- A setting that simplifies references on the left and keeps all qualifiers on the right. -/
def shortening (s : Setting) : Pairing :=
  { left := { s with simplifyReferences := true }
    right := { s with simplifyReferences := false }
    Text := fun _ => BothEmpty
    Noted := fun _ c c' => c' = c
    Excused := fun _ => False
    Free := True }

/-- Whether a qualifier is left out is decided without any other effect. -/
theorem shortening_qualifier (s : Setting) (label name : String) :
    (shortening s).Sim (Pairing.Still fun _ _ => True) (Compile.qualifier label name)
      (Compile.qualifier label name) := by
  refine .onGet fun trace c c' hc => .onDialect (.onRead ?_)
  rw [hc.same Context.outputTable fun _ => rfl]
  cases c.outputTable <;> exact .pure ⟨rfl, trivial⟩

/-- A column has its name in it, with or without a qualifier. -/
theorem shortening_field (s : Setting) (source name : String) :
    (shortening s).Sim (shortening s).Text (Renderer.field source name)
      (Renderer.field source name) := by
  have hname := s.dialect.quoteIdent_ne_empty name
  have hqualified (q : String) : q ++ "." ++ s.dialect.quoteIdent name ≠ "" :=
    fun he => hname (String.append_eq_empty_iff.1 he).2
  have hquote : (shortening s).Sim (Pairing.Same fun t => t = s.dialect.quoteIdent name)
      (Compile.quote name) (Compile.quote name) :=
    .onDialect (.pure ⟨rfl, rfl, rfl⟩)
  refine hquote.andThen ?_
  rintro _ rfl
  refine .ite (fun _ => .pure Iff.rfl) fun _ => ?_
  refine (shortening_qualifier s source name).bind ?_
  rintro _ o o' ⟨rfl, -⟩
  cases o with
  | none =>
    cases o' with
    | none => exact .pure Iff.rfl
    | some q' => exact .pure (.neither hname (hqualified q'))
  | some q =>
    cases o' with
    | none => exact .pure (.neither (hqualified q) hname)
    | some q' => exact .pure (.neither (hqualified q) (hqualified q'))

theorem lawful_shortening (s : Setting) : (shortening s).Lawful where
  dialect := rfl
  constants := rfl
  strict := .inl rfl
  arrangement := .inl trivial
  free _ _ _ _ _ h := h
  freeClean _ _ := trivial
  ofFirm _ := trivial
  cleanAppend _ _ := trivial
  quoteIdent _ := trivial
  stringLiteral _ := trivial
  ofPlain _ := trivial
  properLiteral _ := trivial
  intervalValue _ := trivial
  clean _ := Iff.rfl
  proper _ := Iff.rfl
  front _ h := BothEmpty.append Iff.rfl h
  sign h := BothEmpty.append Iff.rfl h
  append ha hb _ := ha.append hb
  present h := h
  empty _ h := ⟨h, h⟩
  operandText h := h
  operand h strength isLeft parent associativity :=
    h.map fun ht => Fragment.asOperand_ne_empty (f := ⟨_, strength⟩) ht isLeft parent associativity
  guarded h strength parent associativity :=
    h.map fun ht => Fragment.asOperand_ne_empty (f := ⟨_, strength⟩) ht false parent associativity
  wrapWeak h := h.map Renderer.wrapWeak_ne_empty
  references := .inr (shortening_field s)
  named type _ h := ⟨[], by cases h; rfl, by cases h; exact Iff.rfl⟩
  value v type h := ⟨[], by cases h; rfl, by cases h; exact Iff.rfl⟩
  repeated hc hd := by cases hc; cases hd; rfl

/-- With short and with full references a compilation ends with the same error, or in the same
    state. -/
theorem runRender_shortening (s : Statement) (d : Dialect) (o : Options) :
    (∃ e, s.runRender d { o with simplifyReferences := true } = .error e ∧
      s.runRender d { o with simplifyReferences := false } = .error e) ∨
    ∃ t t' c, s.runRender d { o with simplifyReferences := true } = .ok (t, c) ∧
      s.runRender d { o with simplifyReferences := false } = .ok (t', c) := by
  rcases (lawful_shortening (.ofOptions d o)).compiles_alike
      (fun _ => trivial) (fun _ => trivial) (fun _ => trivial) (fun _ _ _ => Iff.rfl) s
      d.placeholder with
    ⟨v, t, t', c, hshort, hfull, -⟩ | ⟨e, hshort, hfull | he⟩
  · exact .inr ⟨t, t', c, hshort, hfull⟩
  · exact .inl ⟨e, hshort, hfull⟩
  · exact he.elim

/-! ## 3. The result -/

/-- **Reference simplification changes nothing but qualifiers.** With it and without it a statement
    fails to compile with the same error, or compiles with the same parameters, the same names and
    the same decode plan. -/
theorem short_references_keep_all_else (s : Statement) (d : Dialect) (o : Options) :
    (∃ e, compileWith s d { o with simplifyReferences := true } = .error e ∧
      compileWith s d { o with simplifyReferences := false } = .error e) ∨
    ∃ out out', compileWith s d { o with simplifyReferences := true } = .ok out ∧
      compileWith s d { o with simplifyReferences := false } = .ok out' ∧
      out'.params = out.params ∧ out'.names = out.names ∧
      out'.decoder.plan = out.decoder.plan := by
  unfold compileWith
  rcases runRender_shortening s d o with ⟨e, he, he'⟩ | ⟨t, t', c, ht, ht'⟩
  · rw [he, he']
    exact .inl ⟨_, rfl, rfl⟩
  · rw [ht, ht']
    exact .inr ⟨_, _, rfl, rfl, rfl, rfl, rfl⟩

/-- Only the text tells the two apart. -/
example :
    let q : Statement := .select { Select.empty with
      projection := [⟨"total", .field "o" "total" none⟩]
      sources := [.table ⟨none, "orders", "o", []⟩] }
    (compileWith q .generic { simplifyReferences := true }).map Compiled.sql =
        .ok "SELECT total FROM orders AS o" ∧
      (compileWith q .generic { simplifyReferences := false }).map Compiled.sql =
        .ok "SELECT o.total FROM orders AS o" := by
  decide +kernel

end QueryPlan
