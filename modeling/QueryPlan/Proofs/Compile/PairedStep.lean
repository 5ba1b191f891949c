import QueryPlan.Proofs.Compile.PairedText

/-!
# Corresponding steps

The steps that the pieces of the compiler are made of: what the dialect decides, parameters, names,
frames and scopes, and the constants and types that are written without a state. For each there is
one lemma, of the name of the step, which says that it corresponds to itself under a lawful pairing.
-/

namespace QueryPlan

variable {type : DataType} {label : String}

open Edges

namespace Pairing

variable {P : Pairing}

/-! ## 1. Steps that the dialect decides -/

namespace Lawful

variable (hP : P.Lawful) {v : List Nat} {ps ps' : Params}
include hP

theorem has (f : Feature) : P.Sim (Same fun _ => True) (Compile.has f) (Compile.has f) :=
  Sim.onDialect (.pure ⟨rfl, hP.has_eq f, trivial⟩)

/-- A missing feature ends a strict compilation, and a lenient one goes on. -/
theorem missing (feature : String) :
    P.Sim (Same fun _ => True) (Compile.missing feature) (Compile.missing feature) := by
  refine Sim.onRead ?_
  rcases hP.strict with hs | ⟨hs, he⟩
  · rw [hs]
    exact .ite (fun _ => .fail _) fun _ => .pure ⟨rfl, rfl, trivial⟩
  · rw [hs, if_pos rfl]
    exact fun _ _ _ _ => .excused (he _ rfl)

theorem quote {ident : String} (h : P.Clean ident) :
    P.Sim (Same P.Clean) (Compile.quote ident) (Compile.quote ident) :=
  Sim.onDialect (.pure ⟨rfl, hP.quoteIdent_eq ident, hP.quoteIdent h⟩)

/-- A keyword with corresponding texts in its slots. -/
theorem keyword (key : Keyword) (h : P.Filled key.slots v ps ps') :
    P.Sim (Still (P.Text v)) (Compile.keyword key ps) (Compile.keyword key ps') :=
  hP.write h (hP.prints (fun _ hf => hf.keywords) key ps)

/-- A keyword whose slots hold no rendered text. -/
theorem keywordSame {key : Keyword} (hk : key.slots = []) (h : ∀ p ∈ ps, P.Clean p.2) :
    P.Sim (Same P.Clean) (Compile.keyword key ps) (Compile.keyword key ps) := by
  refine hP.writeSame h ?_
  have hp := hP.prints (fun _ hf => hf.keywords) key ps
  rwa [hk] at hp

theorem word {key : Keyword} (hk : key.slots = []) :
    P.Sim (Same P.Clean) (Compile.keyword key) (Compile.keyword key) :=
  hP.keywordSame hk fun _ hp => absurd hp List.not_mem_nil

/-! ## 2. Parameters -/

theorem argument {name : String} (h : P.Argument name) (type : Option DataType) :
    P.Sim P.Text (Compile.argument name type) (Compile.argument name type) := by
  intro trace c c' hc
  obtain ⟨v, hn, ht⟩ := hP.named type h hc.params
  exact .ok (hc.withParams hn) ht

theorem constant (value : Value) (type : Option DataType) :
    P.Sim P.Text (Compile.constant value type) (Compile.constant value type) := by
  intro trace c c' hc
  obtain ⟨v, hn, ht⟩ := hP.value value type hc.params
  exact .ok (hc.withParams hn) ht

end Lawful

/-! ## 3. Names, frames and scopes -/

/-- A change of what is neither a parameter nor a scope. -/
theorem Quiet.aside {g : Context → Context} (hp : ∀ c, (g c).params = c.params)
    (hr : ∀ c p, g { c with params := p } = { g c with params := p })
    (hs : ∀ c, (g c).scopes = c.scopes) (ho : ∀ c, (g c).outputTable = c.outputTable) :
    P.Quiet g := by
  refine ⟨hp, hr, fun c h => ?_, fun c h => ?_⟩
  · rw [hs]
    exact h
  · rw [ho]
    exact h

/-- A change of the innermost scope. -/
theorem Quiet.changeScope {g : Scope → Scope} (hg : ∀ s, P.FitsScope s → P.FitsScope (g s)) :
    P.Quiet fun c => match c.scopes with
      | [] => c
      | scope :: outer => { c with scopes := g scope :: outer } := by
  refine ⟨fun c => ?_, fun c p => ?_, fun c h => ?_, fun c h => ?_⟩
  · split <;> rfl
  · cases hs : c.scopes with
    | nil => simp only [hs]
    | cons scope outer => simp only
  · cases hs : c.scopes with
    | nil => exact h
    | cons scope outer =>
      rw [hs] at h
      intro s hmem
      rcases List.mem_cons.1 hmem with rfl | hmem
      · exact hg scope (h scope List.mem_cons_self)
      · exact h s (List.mem_cons_of_mem scope hmem)
  · split <;> exact h

namespace Sim

variable {α : Type} {R : List Nat → α → α → Prop} {x x' : Compile α}

theorem inFrame (hx : P.Sim R x x') : P.Sim R (Compile.inFrame x) (Compile.inFrame x') :=
  around (.aside (fun _ => rfl) (fun _ _ => rfl) (fun _ => rfl) fun _ => rfl)
    (.aside (fun _ => rfl) (fun _ _ => rfl) (fun _ => rfl) fun _ => rfl) hx

theorem registerCte (label : String) (columns : Option (List String)) :
    P.Sim (Same fun _ => True) (Compile.registerCte label columns)
      (Compile.registerCte label columns) := by
  refine onModify (.aside (fun c => ?_) (fun c p => ?_) (fun c => ?_) fun c => ?_)
  · split <;> rfl
  · cases hf : c.frames with
    | nil | cons frame outer => simp only
  · split <;> rfl
  · split <;> rfl

theorem inScope {scope : Scope} (hs : P.FitsScope scope) (hx : P.Sim R x x') :
    P.Sim R (Compile.inScope scope x) (Compile.inScope scope x') := by
  refine around ⟨fun _ => rfl, fun _ _ => rfl, fun c h s hmem => ?_, fun _ h => h⟩
    ⟨fun _ => rfl, fun _ _ => rfl, fun c h s hmem => h s (List.mem_of_mem_tail hmem), fun _ h => h⟩
    hx
  rcases List.mem_cons.1 hmem with rfl | hmem
  · exact hs
  · exact h s hmem

theorem postProjection (hx : P.Sim R x x') :
    P.Sim R (Compile.postProjection x) (Compile.postProjection x') :=
  around (.changeScope fun _ hs => hs) (.changeScope fun _ hs => hs) hx

theorem forceQualified (hx : P.Sim R x x') :
    P.Sim R (Compile.forceQualified x) (Compile.forceQualified x') :=
  around (.changeScope fun _ hs => hs) (.changeScope fun _ hs => hs) hx

theorem inOutput {target pseudo : String} (hp : P.Clean pseudo) (hx : P.Sim R x x') :
    P.Sim R (Compile.inOutput target pseudo x) (Compile.inOutput target pseudo x') := by
  refine around ⟨fun _ => rfl, fun _ _ => rfl, fun _ h => h, fun _ _ y hy => ?_⟩
    ⟨fun _ => rfl, fun _ _ => rfl, fun _ h => h, fun _ _ y hy => ?_⟩ hx
  · cases hy
    exact hp
  · cases hy

theorem inForJson (single : Bool) (hx : P.Sim R x x') :
    P.Sim R (Compile.inForJson single x) (Compile.inForJson single x') :=
  around (.aside (fun _ => rfl) (fun _ _ => rfl) (fun _ => rfl) fun _ => rfl)
    (.aside (fun _ => rfl) (fun _ _ => rfl) (fun _ => rfl) fun _ => rfl) hx

theorem takeForJson : P.Sim (Same fun _ => True) Compile.takeForJson Compile.takeForJson := by
  refine onGet fun trace c c' hc => ?_
  rw [hc.same Context.forJson fun _ => rfl]
  refine andThen (onModify ?_) fun _ _ => pure ⟨rfl, rfl, trivial⟩
  exact .aside (fun _ => rfl) (fun _ _ => rfl) (fun _ => rfl) fun _ => rfl

/-- The scope of a statement prints no texts of its own. -/
theorem scopeOf (sources : List Source) (projection : List Projection) :
    P.Sim (Same P.FitsScope) (Compile.scopeOf sources projection)
      (Compile.scopeOf sources projection) := by
  refine onGet fun trace c c' hc => ?_
  rw [hc.same Context.frames fun _ => rfl]
  exact pure ⟨rfl, rfl, fun _ hx => absurd hx List.not_mem_nil⟩

end Sim

namespace Lawful

variable (hP : P.Lawful)
include hP

theorem freshTable {letter : String} (hl : firm.Fits letter) (count : Context → Nat)
    (set : Nat → Context → Context) (hc : ∀ c p, count { c with params := p } = count c)
    (hs : ∀ n, P.Quiet (set n)) :
    P.Sim (Same P.Clean)
      (do let n := count (← MonadState.get)
          modify (set (n + 1))
          return letter ++ toString n)
      (do let n := count (← MonadState.get)
          modify (set (n + 1))
          return letter ++ toString n) := by
  refine Sim.onGet fun trace c c' hpaired => ?_
  rw [hpaired.same count (hc c)]
  refine Sim.andThen (Sim.onModify (hs _)) fun _ _ => .pure ⟨rfl, rfl, ?_⟩
  exact hP.cleanAppend (hP.ofFirm hl) (hP.nat _)

theorem freshJsonTable :
    P.Sim (Same P.Clean) Compile.freshJsonTable Compile.freshJsonTable :=
  hP.freshTable (by decide) Context.jsonTables (fun n c => { c with jsonTables := n })
    (fun _ _ => rfl)
    fun _ => .aside (fun _ => rfl) (fun _ _ => rfl) (fun _ => rfl) fun _ => rfl

theorem freshBranchTable :
    P.Sim (Same P.Clean) Compile.freshBranchTable Compile.freshBranchTable :=
  hP.freshTable (by decide) Context.branchTables (fun n c => { c with branchTables := n })
    (fun _ _ => rfl)
    fun _ => .aside (fun _ => rfl) (fun _ _ => rfl) (fun _ => rfl) fun _ => rfl

end Lawful

/-! ## 4. Constants and types -/

theorem text_number (t : String) : (Fragment.number t).text = t := by
  unfold Fragment.number
  dsimp only
  split <;> rfl

/-- Fragments that correspond: their texts do, and they bind with the same strength. -/
structure Frag (P : Pairing) (v : List Nat) (f f' : Fragment) : Prop where
  text : P.Text v f.text f'.text
  strength : f'.strength = f.strength

namespace Lawful

variable (hP : P.Lawful)
include hP

theorem writeLiteral {kind : LiteralKind} {ps ps' : Params} (h : P.Filled kind.slots [] ps ps') :
    P.Agrees (P.Frag []) (P.left.writeLiteral kind ps) (P.right.writeLiteral kind ps') :=
  (hP.get h (hP.prints (fun _ hf => hf.literals) kind ps)).bind fun _ _ ht => .ok ⟨ht, rfl⟩

theorem quotedLiteral {kind : LiteralKind} (hk : kind.slots = ["value"]) {text : String}
    (h : P.Proper text) :
    P.Agrees (P.Frag []) (P.left.quotedLiteral kind text) (P.right.quotedLiteral kind text) := by
  unfold Setting.quotedLiteral
  rw [hP.conventions_eq]
  refine hP.writeLiteral ?_
  rw [hk]
  exact .text List.not_mem_nil (hP.proper (hP.properLiteral h)) .nil

theorem number {t : String} (h : P.Proper t) :
    P.Agrees (P.Frag []) (Pure.pure (Fragment.number t)) (Pure.pure (Fragment.number t)) := by
  refine .ok ⟨?_, rfl⟩
  rw [text_number]
  exact hP.proper h

theorem intervalLiteral (i : Interval) :
    P.Agrees (P.Frag []) (P.left.literal (.interval i)) (P.right.literal (.interval i)) := by
  rw [Setting.literal, Setting.literal, hP.conventions_eq]
  cases hi : P.left.dialect.conventions.intervalValue i with
  | error e => exact .same e
  | ok t =>
    exact hP.writeLiteral (.text List.not_mem_nil (hP.proper (hP.intervalValue hi)) .nil)

end Lawful

mutual

theorem Lawful.literal_agrees (hP : P.Lawful) : (value : Value) → (∀ t ∈ value.texts, P.Proper t) →
    P.Agrees (P.Frag []) (P.left.literal value) (P.right.literal value)
  | .null, _ => hP.writeLiteral .nil
  | .bool true, _ => hP.writeLiteral .nil
  | .bool false, _ => hP.writeLiteral .nil
  | .int n, _ => hP.number (hP.ofPlain ((fits_int n.toInt).mono rfl))
  | .uint n, _ => hP.number (hP.ofPlain ((fits_nat n.toNat).mono rfl))
  | .float x, _ => by
    rw [Setting.literal, Setting.literal]
    split
    · exact hP.number (hP.ofPlain (fits_floatLiteral x))
    · exact .same _
  | .decimal digits, h => hP.number (h digits List.mem_cons_self)
  | .text text, h => hP.quotedLiteral rfl (h text List.mem_cons_self)
  | .bytes bytes, _ =>
    hP.writeLiteral
      (.text List.not_mem_nil (hP.proper (hP.ofPlain ((fits_hex bytes).mono rfl))) .nil)
  | .date d, _ => hP.quotedLiteral rfl (hP.ofPlain ((fits_date d).mono rfl))
  | .time t, _ => hP.quotedLiteral rfl (hP.ofPlain ((fits_clock t).mono rfl))
  | .timestamp t, _ => hP.quotedLiteral rfl (hP.ofPlain ((fits_timestamp (by decide) t).mono rfl))
  | .timestampTz t, _ =>
    hP.quotedLiteral rfl (hP.ofPlain ((fits_offsetTimestamp (by decide) t).mono rfl))
  | .interval i, _ => hP.intervalLiteral i
  | .point p, _ =>
    hP.writeLiteral (.text (by decide) (hP.proper (hP.ofPlain (fits_floatLiteral p.x)))
      (.text List.not_mem_nil (hP.proper (hP.ofPlain (fits_floatLiteral p.y))) .nil))
  | .json j, h => hP.quotedLiteral rfl (h j.render List.mem_cons_self)
  | .object _, h => hP.quotedLiteral rfl (h _ List.mem_cons_self)
  | .array items, h => by
    rw [Setting.literal, Setting.literal]
    refine (hP.literals_agree items h).bind fun ts ts' hts => ?_
    exact hP.writeLiteral
      (.text List.not_mem_nil (hP.intercalate (by decide) (by decide) hts) .nil)

theorem Lawful.literals_agree (hP : P.Lawful) : (values : List Value) →
    (∀ t ∈ valueTexts values, P.Proper t) →
      P.Agrees (Each P.Text []) (P.left.literals values) (P.right.literals values)
  | [], _ => .ok .nil
  | value :: rest, h => by
    obtain ⟨hvalue, hrest⟩ := List.forall_mem_append.1 h
    refine (hP.literal_agrees value hvalue).bind fun f f' hf => ?_
    exact (hP.literals_agree rest hrest).bind fun ts ts' hts => .ok (.cons hf.text hts)

end

namespace Lawful

variable (hP : P.Lawful)
include hP

theorem literal {value : Value} (h : ∀ t ∈ value.texts, P.Proper t) :
    P.Sim P.Frag (Compile.literal value) (Compile.literal value) :=
  Sim.ended (Sim.onRead (Sim.ofExcept (hP.literal_agrees value h)))

theorem clean_typeArguments (h : P.Fits type.texts) :
    ∀ p ∈ Setting.typeArguments type, P.Clean p.2 := by
  have hopen : solid.Fits "(" := by decide
  have hclose : solid.Fits ")" := by decide
  have hcomma : solid.Fits ", " := by decide
  intro p hp
  unfold Setting.typeArguments at hp
  split at hp
  · next precision scale =>
    rw [List.mem_singleton.1 hp]
    exact hP.ofFirm (((((hopen.append (fits_nat precision.toNat) rfl).append hcomma rfl).append
      (fits_nat scale.toNat) rfl).append hclose rfl).mono rfl)
  · next precision =>
    rw [List.mem_singleton.1 hp]
    exact hP.ofFirm (((hopen.append (fits_nat precision.toNat) rfl).append hclose rfl).mono rfl)
  · next length =>
    rw [List.mem_singleton.1 hp]
    exact hP.ofFirm (((hopen.append (fits_nat length.toNat) rfl).append hclose rfl).mono rfl)
  · next name =>
    rw [List.mem_singleton.1 hp]
    exact h name List.mem_cons_self
  · cases hp

theorem plainType (h : P.Fits type.texts) :
    P.Agrees (Equal P.Clean) (P.left.plainType type) (P.right.plainType type) :=
  hP.getSame (hP.clean_typeArguments h) (hP.prints (fun _ hf => hf.types) _ _)

/-- A type that is no array. A strict compilation gives up where a wider type is taken. -/
theorem scalarType (h : P.Fits type.texts)
    (hs : ∀ signed, type.signedFallback? = some signed → P.Fits signed.texts) :
    P.Agrees (Equal P.Clean)
      (if P.left.dialect.has .unsigned then P.left.plainType type
        else match type.signedFallback? with
          | some signed =>
            if P.left.strict then throw (Error.unsupported "UNSIGNED") else P.left.plainType signed
          | none => P.left.plainType type)
      (if P.right.dialect.has .unsigned then P.right.plainType type
        else match type.signedFallback? with
          | some signed =>
            if P.right.strict then throw (Error.unsupported "UNSIGNED")
            else P.right.plainType signed
          | none => P.right.plainType type) := by
  rw [hP.has_eq]
  split
  · exact hP.plainType h
  · cases hf : type.signedFallback? with
    | none => exact hP.plainType h
    | some signed =>
      rcases hP.strict with hl | ⟨hl, he⟩
      · rw [hl]
        dsimp only
        split
        · exact .same _
        · exact hP.plainType (hs signed hf)
      · rw [hl]
        exact .excused (he _ rfl)

theorem typeName_agrees : (type : DataType) → P.Fits type.texts →
    P.Agrees (Equal P.Clean) (P.left.typeName type) (P.right.typeName type) := by
  intro type
  induction type with
  | array element ih =>
    intro h
    refine (ih h).andThen fun t ht => ?_
    refine hP.getSame (fun p hp => ?_) (hP.prints (fun _ hf => hf.types) _ _)
    rw [List.mem_singleton.1 hp]
    exact ht
  | _ =>
    intro h
    refine hP.scalarType h fun signed hf => ?_
    cases hf <;> exact fun _ ht => absurd ht List.not_mem_nil

theorem typeName (h : P.Fits type.texts) :
    P.Sim (Same P.Clean) (Compile.typeName type) (Compile.typeName type) :=
  Sim.onRead (Sim.ofExcept (hP.typeName_agrees type h))

end Lawful

/-! ## 5. Columns -/

namespace Lawful

variable (hP : P.Lawful)
include hP

/-- What is printed for a label in a scope that fits. -/
theorem clean_printed {scope : Scope} (hscope : P.FitsScope scope) (hl : P.Clean label) :
    P.Clean (scope.printed P.left.dialect label) := by
  unfold Scope.printed
  cases hf : Fields.get? scope.printedAs label with
  | none => exact hP.quoteIdent hl
  | some t => exact hscope _ (Fields.mem_of_get? hf)

theorem clean_qualifier? {scopes : List Scope} (hscopes : ∀ s ∈ scopes, P.FitsScope s)
    (hl : P.Clean label) (simplify : Bool) (name : String) :
    ∀ q ∈ qualifier? P.left.dialect simplify scopes label name, P.Clean q := by
  have hquoted := hP.quoteIdent hl
  intro q hq
  unfold qualifier? at hq
  split at hq
  · cases hq
    exact hquoted
  · split at hq
    · split at hq
      · cases hq
      · cases hq
        exact hP.clean_printed (hscopes _ List.mem_cons_self) hl
    · split at hq
      · next outer hfind =>
        cases hq
        exact hP.clean_printed (hscopes _ (List.mem_of_find?_eq_some hfind)) hl
      · cases hq
        exact hquoted

theorem qualifier (hs : P.right.simplifyReferences = P.left.simplifyReferences) (hl : P.Clean label)
    (name : String) :
    P.Sim (Same fun o => ∀ q ∈ o, P.Clean q) (Compile.qualifier label name)
      (Compile.qualifier label name) := by
  refine Sim.onGet fun trace c c' hc => Sim.onDialect (Sim.onRead ?_)
  rw [hc.same Context.scopes fun _ => rfl, hc.same Context.outputTable fun _ => rfl, hP.dialect, hs]
  have hplain := hP.clean_qualifier? hc.scopes hl P.left.simplifyReferences name
  cases ho : c.outputTable with
  | none => exact .pure ⟨rfl, rfl, hplain⟩
  | some x =>
    refine .pure ⟨rfl, rfl, fun q hq => ?_⟩
    split at hq
    · cases hq
      exact hc.outputTable x ho
    · exact hplain q hq

theorem field {source name : String} (hsource : P.Clean source) (hname : P.Clean name) :
    P.Sim P.Text (Renderer.field source name) (Renderer.field source name) := by
  rcases hP.references with hs | hfield
  · refine (hP.quote hname).andThen fun column hcolumn => ?_
    refine .ite (fun _ => .pure (hP.clean hcolumn)) fun _ => ?_
    refine (hP.qualifier hs hsource name).andThen fun o ho => ?_
    cases o with
    | none => exact .pure (hP.clean hcolumn)
    | some q =>
      have hdot : P.Clean "." := hP.ofFirm (by decide)
      exact .pure (hP.clean (hP.cleanAppend (hP.cleanAppend (ho q rfl) hdot) hcolumn))
  · exact hfield source name

end Lawful

end Pairing

end QueryPlan
