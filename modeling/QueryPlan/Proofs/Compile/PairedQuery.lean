import QueryPlan.Proofs.Compile.PairedExpr

/-!
# Corresponding queries

The pieces that write sources, queries and nested queries, each with one lemma of its name. A
statement is written clause by clause; its common table expressions are rendered before its clauses,
and `Lawful.inOrder` says that the clauses then correspond, since an orderly dialect prints the
common table expressions first.
-/

namespace QueryPlan

open Edges

namespace Pairing

variable {P : Pairing}

variable {columns : List String} {label t : String} {ps : Params} {order : List Clause}
  {list : List Source} {o : Option String} {v : List Nat}

/-! ## 1. Tables and sources -/

namespace Lawful

variable (hP : P.Lawful)
include hP

theorem tableName {t : Table} (h : P.Fits t.texts) :
    P.Sim (Same P.Clean) (Compile.tableName t) (Compile.tableName t) := by
  unfold Compile.tableName
  refine (hP.quote h.right.head).andThen fun name hname => ?_
  cases hs : t.schema with
  | none => exact .pure ⟨rfl, rfl, hname⟩
  | some schema =>
    have hschema : P.Clean schema := h.left schema (by simp [hs])
    refine (hP.quote hschema).andThen fun q hq => .pure ⟨rfl, rfl, ?_⟩
    exact hP.cleanAppend (hP.cleanBehind hq (by decide)) hname

theorem table {t : Table} (h : P.Fits t.texts) :
    P.Sim (Same P.Clean) (Compile.table t) (Compile.table t) := by
  unfold Compile.table
  refine (hP.tableName h).andThen fun name hname => ?_
  refine .ite (fun _ => .pure ⟨rfl, rfl, hname⟩) fun _ => ?_
  refine (hP.quote h.right.tail.head).andThen fun q hq => .pure ⟨rfl, rfl, ?_⟩
  exact hP.cleanAppend (hP.cleanBehind hname (by decide)) hq

theorem printsJoin {kind : JoinKind} (h : Params.isPresent ps "condition" = false) :
    P.Prints Formats.joins kind ps ["source"] :=
  hP.arrangement.imp id fun ho => ⟨ho.formats.joinKeyword kind, ho.formats.join kind ps h⟩

theorem printsJoinCondition {kind : JoinKind} (h : Params.isPresent ps "condition" = true) :
    P.Prints Formats.joins kind ps ["source", "condition"] :=
  hP.arrangement.imp id fun ho => ⟨ho.formats.joinKeyword kind, ho.formats.joinCondition kind ps h⟩

/-- A join with its condition, which is left out if it has no text. -/
theorem joinWith {w : List Nat} {t' u u' : String} (ht : P.Text v t t') (hu : P.Text w u u')
    (kind : JoinKind) :
    P.Sim (Still (P.Text (v ++ w)))
      (Compile.write Formats.joins kind [("source", t), ("condition", u)])
      (Compile.write Formats.joins kind [("source", t'), ("condition", u')]) := by
  by_cases hempty : u = ""
  · subst hempty
    exact hP.write (Filled.empty hP hu ht).1 (hP.printsJoin rfl)
  · have hfilled := Filled.text (P := P) (n := "source") (by decide) ht
      (.text (n := "condition") List.not_mem_nil hu .nil)
    rw [List.append_nil] at hfilled
    exact hP.write hfilled (hP.printsJoinCondition (bne_iff_ne.2 hempty))

end Lawful

namespace Renders

variable {r : Renderer} (hr : P.Renders r) (hP : P.Lawful)
include hr hP

theorem unionRows (hc : ∀ c ∈ columns, P.Clean c) (rows : List (List Expr)) :
    P.Sim (Each P.Text) (r.unionRows columns rows) (r.unionRows columns rows) := by
  refine Sim.mapM fun x _ => ?_
  obtain ⟨row, index⟩ := x
  refine (Sim.mapM (R := P.Text) fun y hy => ?_).map fun v ts ts' hts =>
    hP.inFront (by decide) (hP.intercalate (by decide) (by decide) hts)
  obtain ⟨e, column⟩ := y
  refine (hr.text e).map fun v t t' ht => ?_
  split
  · have hcolumn := hP.clean (hc column (List.of_mem_zip hy).2)
    have h := hP.between (b := " AS ") ht (by decide) (by decide) hcolumn
    rwa [List.append_nil] at h
  · exact ht

theorem unionTable (hl : P.Clean label) (hc : ∀ c ∈ columns, P.Clean c) (rows : List (List Expr)) :
    P.Sim P.Text (r.unionTable label columns rows) (r.unionTable label columns rows) := by
  refine (hr.unionRows hP hc rows).map fun v ts ts' hts => ?_
  have hselects := hP.intercalate (s := " UNION ALL ") (by decide) (by decide) hts
  have h := hP.between (b := ") AS ") (hP.inFront (a := "(") (by decide) hselects)
    (by decide) (by decide) (hP.clean hl)
  rwa [List.append_nil] at h

theorem valuesTable (hl : P.Clean label) (hc : ∀ c ∈ columns, P.Clean c) (rows : List (List Expr)) :
    P.Sim P.Text (r.valuesTable label columns rows) (r.valuesTable label columns rows) := by
  refine (Sim.mapM (R := P.Text) fun row _ => ?_).bind fun v ts ts' hts => Sim.onDialect ?_
  · refine (hr.list hP row).bind fun v t t' ht => Sim.ended ?_
    exact hP.keyword .valuesRow (.text List.not_mem_nil ht .nil)
  · rw [hP.formats_eq]
    refine .pure ?_
    have hword := hP.cleanKeyword
      (hP.prints (fun f (hf : f.Orderly) => hf.keywords) Keyword.values [])
    have hfront := hP.cleanBehind (hP.cleanAppend (hP.ofFirm (t := "(") (by decide)) hword)
      (b := " ") (by decide)
    have h := hP.front hfront (hP.intercalate (s := ", ") (by decide) (by decide) hts)
    have h := hP.between (b := ") AS ") h (by decide) (by decide) (hP.clean hl)
    have h := hP.between (b := " (") h (by decide) (by decide)
      (hP.clean (hP.cleanIntercalate (s := ", ") (by decide) hc))
    rw [List.append_nil, List.append_nil] at h
    rw [List.append_nil]
    exact hP.behind h (by decide) (by decide)

omit hr hP in
theorem checkRows (label : String) (columns : List String) (rows : List (List Expr)) :
    P.Sim (Same fun _ => True) (Compile.checkRows label columns rows)
      (Compile.checkRows label columns rows) := by
  unfold Compile.checkRows
  refine .guard (fun _ => .fail _) ?_
  split
  · exact .fail _
  · exact .pure ⟨rfl, rfl, trivial⟩

theorem values (h : P.Fits (label :: columns)) (rows : List (List Expr)) :
    P.Sim P.Text (r.values label columns rows) (r.values label columns rows) := by
  refine (checkRows label columns rows).andThen fun _ _ => ?_
  refine (hP.quote h.head).andThen fun label hl => ?_
  refine (Sim.mapM_same fun c hmem => hP.quote (h.tail c hmem)).andThen fun columns hc => ?_
  refine Sim.onDialect ?_
  rw [hP.conventions_eq]
  exact .ite (fun _ => hr.valuesTable hP hl hc rows) fun _ => hr.unionTable hP hl hc rows

theorem joined {t' : String} (ht : P.Text v t t') (kind : JoinKind) (condition : Option Expr) :
    P.Sim (fun w => P.Text (v ++ w)) (r.joined kind t condition) (r.joined kind t' condition) := by
  cases condition with
  | none =>
    exact Sim.ended (hP.write (.text List.not_mem_nil ht .nil) (hP.printsJoin rfl))
  | some e =>
    unfold Renderer.joined Renderer.joinCondition
    simp only [bind_assoc, pure_bind]
    refine (hr.text e).bind fun w u u' hu => Sim.ended ?_
    rw [List.append_nil]
    exact hP.joinWith ht hu kind

theorem source : (s : Source) → P.Fits s.ownWords → P.Sim P.Text (r.source s) (r.source s)
  | .table _, h => Sim.same hP (hP.table h)
  | .derived label statement, h => by
    refine (hr.statement statement).bind fun v t t' ht => ?_
    refine (hP.quote h.head).andThen fun label hl => .pure ?_
    exact hP.between (b := ") AS ") (hP.inFront (a := "(") (by decide) ht) (by decide) (by decide)
      (hP.clean hl)
  | .values label columns rows, h => hr.values hP h rows
  | .join kind inner condition, h =>
    (source inner h).bind fun v t t' ht => hr.joined hP ht kind condition

theorem sources (h : ∀ s ∈ list, P.Fits s.ownWords) :
    P.Sim P.Text (r.sources list) (r.sources list) :=
  (Sim.mapM fun s hs => hr.source hP s (h s hs)).map fun _ _ _ hts =>
    hP.intercalate (by decide) (by decide) hts

theorem joins (h : ∀ s ∈ list, P.Fits s.ownWords) : P.Sim P.Text (r.joins list) (r.joins list) := by
  refine (Sim.mapM (R := P.Text) fun s hs => ?_).map fun _ _ _ hts =>
    hP.intercalate (by decide) (by decide) hts
  have hplain : ∀ plain : Source, P.Fits plain.ownWords → P.Sim P.Text
      (do let text ← r.source plain; r.joined .cross text none)
      (do let text ← r.source plain; r.joined .cross text none) := fun plain hplain =>
    (hr.source hP plain hplain).bind fun v t t' ht => hr.joined hP ht .cross none
  cases s with
  | table t | derived label statement | values label columns rows => exact hplain _ (h _ hs)
  | join kind inner condition => exact hr.source hP _ (h _ hs)

end Renders

/-! ## 2. Clauses -/

theorem mem_of_mem_firstTimes {x : Clause × Bool} {seen : List Clause}
    (h : x ∈ Compile.firstTimes seen order) : x.1 ∈ order := by
  induction order generalizing seen with
  | nil => cases h
  | cons clause rest ih =>
    rcases List.mem_cons.1 h with rfl | h
    · exact List.mem_cons_self
    · exact List.mem_cons_of_mem clause (ih h)

namespace Lawful

variable (hP : P.Lawful) {v : List Nat}
include hP

theorem checkClauses (order : List Clause) (used : List (Clause × Bool)) :
    P.Sim (Same fun _ => True) (Compile.checkClauses order used)
      (Compile.checkClauses order used) :=
  Sim.forM fun _ _ => .ite (fun _ => hP.missing _) fun _ => .pure ⟨rfl, rfl, trivial⟩

theorem headed {key : Keyword} (hk : key.slots = []) {x x' : Compile String}
    (hx : P.Sim P.Text x x') :
    P.Sim (Both P.Text) (Compile.headed key x) (Compile.headed key x') := by
  refine (hP.word hk).andThen fun word hword => hx.map fun w t t' ht => .some ?_
  exact hP.front (hP.cleanBehind hword (by decide)) ht

/-- Clean text that may be missing. -/
theorem cleanOption (h : ∀ t ∈ o, P.Clean t) : Both P.Text [] o o := by
  cases o with
  | none => exact .none
  | some t => exact .some (hP.clean (h t rfl))

theorem once (h : ∀ t ∈ o, P.Clean t) (isFirst : Bool) :
    P.Sim (Both P.Text) (Pure.pure (Compile.once isFirst o))
      (Pure.pure (Compile.once isFirst o)) := by
  refine .pure (hP.cleanOption fun t ht => ?_)
  cases isFirst with
  | false => cases ht
  | true => exact h t ht

/-- **The clauses of a statement**. The common table expressions have been rendered before, under
    the trace `v`; they are printed first, or traces do not matter. -/
theorem inOrder (horder : P.Free ∨ ctesFirst order = true) {o' : Option String}
    (ho : Both P.Text v o o') {body body' : Clause → Bool → Compile (Option String)}
    (hctes : ∀ b, body .ctes b = Pure.pure (Compile.once b o))
    (hctes' : ∀ b, body' .ctes b = Pure.pure (Compile.once b o'))
    (hrest : ∀ clause, clause ≠ .ctes → ∀ b, P.Sim (Both P.Text) (body clause b) (body' clause b)) :
    P.Sim (fun w => P.Text (v ++ w)) (Compile.inOrder order body)
      (Compile.inOrder order body') := by
  unfold Compile.inOrder
  rcases horder with hf | hfirst
  · refine (Sim.mapM (R := Both P.Text) fun x _ => ?_).map fun w ts ts' hts =>
      hP.free hf (hP.intercalate (s := " ") (by decide) (by decide) hts.filterMap)
    obtain ⟨clause, isFirst⟩ := x
    by_cases hc : clause = .ctes
    · subst hc
      dsimp only
      rw [hctes, hctes']
      refine .pure ?_
      cases isFirst with
      | false => exact .none
      | true =>
        cases ho with
        | none => exact .none
        | some ht => exact .some (hP.free hf ht)
    · exact hrest clause hc isFirst
  · cases order with
    | nil => cases hfirst
    | cons clause rest =>
      cases clause with
      | ctes =>
        have hnot : Clause.ctes ∉ rest := by simpa [ctesFirst] using hfirst
        simp only [Compile.firstTimes, List.mapM_cons, bind_assoc, pure_bind, hctes, hctes']
        refine (Sim.mapM (R := Both P.Text) fun x hx => ?_).map fun w ts ts' hts => ?_
        · refine hrest x.1 ?_ x.2
          intro hc
          exact hnot (hc ▸ mem_of_mem_firstTimes hx)
        · exact hP.intercalate (by decide) (by decide) (Each.cons ho hts).filterMap
      | _ => cases hfirst

end Lawful

/-! ## 3. Paging -/

/-- Paging that has clean texts only. -/
structure CleanPaging (P : Pairing) (p : Paging) : Prop where
  top : ∀ t ∈ p.top, P.Clean t
  tail : ∀ t ∈ p.tail, P.Clean t

namespace CleanPaging

theorem none : P.CleanPaging ⟨.none, .none⟩ :=
  ⟨fun _ ht => (by cases ht), fun _ ht => (by cases ht)⟩

theorem ofTop (h : P.Clean t) : P.CleanPaging ⟨some t, .none⟩ :=
  ⟨fun _ ht => Option.some.inj ht ▸ h, fun _ ht => (by cases ht)⟩

theorem ofTail (h : P.Clean t) : P.CleanPaging ⟨.none, some t⟩ :=
  ⟨fun _ ht => (by cases ht), fun _ ht => Option.some.inj ht ▸ h⟩

end CleanPaging

namespace Lawful

variable (hP : P.Lawful)
include hP

theorem writeKeyword {key : Keyword} (hk : key.slots = []) (h : ∀ p ∈ ps, P.Clean p.2) :
    P.Agrees (Equal P.Clean) (P.left.writeKeyword key ps) (P.right.writeKeyword key ps) := by
  have hp := hP.prints (fun f (hf : f.Orderly) => hf.keywords) key ps
  rw [hk] at hp
  exact hP.getSame h hp

theorem limitPart (limit : Option UInt64) :
    P.Agrees (Equal fun ts => ∀ t ∈ ts, P.Clean t) (P.left.limitPart limit)
      (P.right.limitPart limit) := by
  cases limit with
  | none => exact .ok ⟨rfl, fun _ ht => absurd ht List.not_mem_nil⟩
  | some n =>
    refine (hP.writeKeyword rfl fun p hp => ?_).andThen fun t ht => .ok ⟨rfl, fun u hu => ?_⟩
    · rw [List.mem_singleton.1 hp]
      exact hP.nat n.toNat
    · rw [List.mem_singleton.1 hu]
      exact ht

theorem offsetPart (offset : Option UInt64) (hasLimit : Bool) :
    P.Agrees (Equal fun ts => ∀ t ∈ ts, P.Clean t) (P.left.offsetPart offset hasLimit)
      (P.right.offsetPart offset hasLimit) := by
  cases offset with
  | none => exact .ok ⟨rfl, fun _ ht => absurd ht List.not_mem_nil⟩
  | some m =>
    refine (hP.writeKeyword rfl fun p hp => ?_).andThen fun t ht => .ok ⟨rfl, fun u hu => ?_⟩
    · rcases List.mem_cons.1 hp with rfl | hp
      · exact hP.nat m.toNat
      · cases hasLimit with
        | true => cases hp
        | false =>
          rw [List.mem_singleton.1 hp]
          exact hP.ofFirm (by decide)
    · rw [List.mem_singleton.1 hu]
      exact ht

theorem limitOffset (limit offset : Option UInt64) :
    P.Agrees (Equal P.Clean) (P.left.limitOffset limit offset)
      (P.right.limitOffset limit offset) := by
  refine (hP.limitPart limit).andThen fun ts hts => ?_
  refine (hP.offsetPart offset limit.isSome).andThen fun us hus => .ok ⟨rfl, ?_⟩
  refine hP.cleanIntercalate (by decide) fun t ht => ?_
  exact (List.mem_append.1 ht).elim (hts t) (hus t)

theorem offsetFetch (limit offset : Option UInt64) (hasOrder : Bool) :
    P.Agrees (Equal P.Clean) (P.left.offsetFetch limit offset hasOrder)
      (P.right.offsetFetch limit offset hasOrder) := by
  unfold Setting.offsetFetch
  refine (hP.writeKeyword rfl fun p hp => ?_).andThen fun tail htail => ?_
  · rcases List.mem_cons.1 hp with rfl | hp
    · exact hP.nat _
    · cases limit with
      | none => cases hp
      | some n =>
        rw [List.mem_singleton.1 hp]
        exact hP.nat n.toNat
  · rw [hP.conventions_eq]
    split
    · refine (hP.writeKeyword rfl fun _ hp => absurd hp List.not_mem_nil).andThen
        fun t ht => .ok ⟨rfl, ?_⟩
      exact hP.cleanAppend (hP.cleanBehind ht (by decide)) htail
    · exact .ok ⟨rfl, htail⟩

theorem paging (limit offset : Option UInt64) (hasOrder canTop : Bool) :
    P.Sim (Same P.CleanPaging) (Compile.paging limit offset hasOrder canTop)
      (Compile.paging limit offset hasOrder canTop) := by
  refine Sim.onRead (Sim.ofExcept ?_)
  unfold Setting.paging
  split
  · exact .ok ⟨rfl, .none⟩
  · split
    · refine (hP.writeKeyword rfl fun p hp => ?_).andThen fun t ht => .ok ⟨rfl, .ofTop ht⟩
      rw [List.mem_singleton.1 hp]
      exact hP.nat _
    · rw [hP.has_eq]
      split
      · exact (hP.limitOffset limit offset).andThen fun t ht => .ok ⟨rfl, .ofTail ht⟩
      · exact (hP.offsetFetch limit offset hasOrder).andThen fun t ht => .ok ⟨rfl, .ofTail ht⟩

end Lawful

/-! ## 4. Parts of queries -/

/-- The words of some sources. -/
theorem Fits.sources {part : List Source} (h : P.Fits (list.flatMap Source.ownWords))
    (hpart : part ⊆ list) : ∀ s ∈ part, P.Fits s.ownWords :=
  fun s hs t ht => h t (List.mem_flatMap.2 ⟨s, hpart hs, ht⟩)

theorem Lawful.forJson (hP : P.Lawful) (json : Option Bool) :
    P.Sim (Both P.Text) (Renderer.forJson json) (Renderer.forJson json) := by
  cases json with
  | none => exact .pure .none
  | some single =>
    have hclean : ∀ p ∈ (if single then [("single", "true")] else []), P.Clean p.2 := by
      intro p hp
      cases single with
      | false => cases hp
      | true =>
        rw [List.mem_singleton.1 hp]
        exact hP.ofFirm (by decide)
    exact (Sim.same hP (hP.keywordSame rfl hclean)).map fun _ _ _ ht => .some ht

namespace Renders

variable {r : Renderer} (hr : P.Renders r) (hP : P.Lawful)
include hr hP

theorem cte {c : Cte} (h : P.Clean c.label) : P.Sim P.Text (r.cte c) (r.cte c) := by
  refine (hP.has _).andThen fun _ _ => .guard (fun _ => hP.missing _) ?_
  refine (Sim.registerCte c.label _).andThen fun _ _ => ?_
  refine (hr.statement c.statement).bind fun v t t' ht => ?_
  refine (hP.quote h).andThen fun q hq => .pure ?_
  rw [List.append_nil]
  exact hP.behind (hP.front (hP.cleanBehind hq (by decide)) ht) (by decide) (by decide)

theorem ctes {list : List Cte} (h : P.Fits (list.map Cte.label)) :
    P.Sim (Both P.Text) (r.ctes list) (r.ctes list) := by
  refine .ite (fun _ => .pure .none) fun _ => ?_
  refine (Sim.mapM fun c hc => hr.cte hP (h _ (List.mem_map_of_mem hc))).bind fun v ts ts' hts => ?_
  have hkey :
      (if list.any Cte.recursive then Keyword.recursiveCtes else Keyword.ctes).slots = [] := by
    split <;> rfl
  refine (hP.word hkey).andThen fun word hword => .pure (.some ?_)
  rw [List.append_nil]
  exact hP.front (hP.cleanBehind hword (by decide)) (hP.intercalate (by decide) (by decide) hts)

theorem projected {p : Projection} (h : P.Clean p.label) :
    P.Sim P.Text (r.projected p) (r.projected p) := by
  refine (hr.text p.expr).bind fun v t t' ht => .ite (fun _ => .pure ?_) fun _ => ?_
  · rw [List.append_nil]
    exact ht
  · refine (hP.quote h).andThen fun q hq => .pure ?_
    exact hP.between ht (by decide) (by decide) (hP.clean hq)

theorem projection {list : List Projection} (h : P.Fits (list.map Projection.label)) :
    P.Sim P.Text (r.projection list) (r.projection list) := by
  refine .ite (fun _ => .pure (hP.clean (hP.ofFirm (by decide)))) fun _ => ?_
  exact (Sim.mapM fun p hp => hr.projected hP (h _ (List.mem_map_of_mem hp))).map fun _ _ _ hts =>
    hP.intercalate (by decide) (by decide) hts

theorem distinct (d : Option Distinct) : P.Sim (Both P.Text) (r.distinct d) (r.distinct d) := by
  have hword : P.Sim (Both P.Text) (do return some (← Compile.keyword .distinct))
      (do return some (← Compile.keyword .distinct)) :=
    (Sim.same hP (hP.word rfl)).map fun _ _ _ ht => .some ht
  match d with
  | none => exact .pure .none
  | some .all => exact hword
  | some (.on es) =>
    refine (hP.has _).andThen fun _ _ => .ite (fun _ => ?_) fun _ => ?_
    · refine (Sim.postProjection (hr.list hP es)).bind fun v t t' ht => ?_
      refine (hP.keyword .distinctOn (.text List.not_mem_nil ht .nil)).map ?_
      rintro _ u u' ⟨rfl, hu⟩
      exact .some hu
    · exact (hP.missing _).andThen fun _ _ => hword

theorem orderBy (items : List OrderBy) : P.Sim (Both P.Text) (r.orderBy items) (r.orderBy items) :=
  .ite (fun _ => .pure .none) fun _ =>
    hP.headed rfl (Sim.postProjection (hr.ordering hP items))

theorem windows {list : List NamedWindow} (h : P.Fits (list.map NamedWindow.name)) :
    P.Sim (Both P.Text) (r.windows list) (r.windows list) := by
  refine (Sim.mapM (R := P.Text) fun w hw => ?_).bind fun v ts ts' hts => ?_
  · refine (hr.windowSpec hP w.spec).bind fun v t t' ht => ?_
    refine (hP.quote (h _ (List.mem_map_of_mem hw))).andThen fun q hq => .pure ?_
    rw [List.append_nil]
    exact hP.behind (hP.front (hP.cleanBehind hq (by decide)) ht) (by decide) (by decide)
  · refine (hP.word rfl).andThen fun word hword => .pure (.some ?_)
    rw [List.append_nil]
    exact hP.front (hP.cleanBehind hword (by decide))
      (hP.intercalate (by decide) (by decide) hts)

/-! ## 5. Selects -/

theorem selectClauses {s : Select} (h : P.Fits (Statement.select s).clauseWords)
    {ctes ctes' : Option String} (hctes : Both P.Text v ctes ctes') (json : Option Bool) :
    P.Sim (fun w => P.Text (v ++ w)) (r.selectClauses s ctes json)
      (r.selectClauses s ctes' json) := by
  have hsources := splitSources_subset s.sources
  unfold Renderer.selectClauses
  refine Sim.onDialect ?_
  rw [hP.selectOrder_eq]
  refine (hP.has _).andThen fun top _ => ?_
  refine (hP.paging _ _ _ _).andThen fun paging hpaging => ?_
  refine (hP.has _).andThen fun named _ => ?_
  rw [hctes.isSome_eq]
  refine (hP.checkClauses _ _).andThen fun _ _ => ?_
  refine hP.inOrder (hP.arrangement.imp id Dialect.Orderly.selectOrder) hctes (fun _ => rfl)
    (fun _ => rfl) fun clause hne isFirst => ?_
  cases clause with
  | ctes => exact absurd rfl hne
  | select => exact (Sim.same hP (hP.word rfl)).map fun _ _ _ ht => .some ht
  | distinct => exact hr.distinct hP s.distinct
  | top => exact hP.once hpaging.top isFirst
  | projection => exact (hr.projection hP h.left.left).map fun _ _ _ ht => .some ht
  | sources =>
    exact .ite (fun _ => .pure .none) fun _ =>
      hP.headed rfl (hr.sources hP (h.left.right.sources hsources.1))
  | joins =>
    exact .ite (fun _ => .pure .none) fun _ =>
      (hr.joins hP (h.left.right.sources hsources.2)).map fun _ _ _ ht => .some ht
  | filter =>
    exact .ite (fun _ => .pure .none) fun _ => hP.headed rfl (hr.predicates hP s.predicates)
  | groupBy =>
    exact .ite (fun _ => .pure .none) fun _ =>
      hP.headed rfl (Sim.postProjection (hr.list hP s.groupBy))
  | having =>
    cases hs : s.having with
    | none => exact .pure .none
    | some e => exact hP.headed rfl (Sim.postProjection (hr.text e))
  | windows => exact .ite (fun _ => hr.windows hP h.right) fun _ => .pure .none
  | orderBy => exact hr.orderBy hP s.orderBy
  | paging => exact hP.once hpaging.tail isFirst
  | forJson => exact hP.forJson json
  | _ => exact .pure .none

theorem select {s : Select} (h : P.Fits (Statement.select s).ownWords) :
    P.Sim P.Text (r.select s) (r.select s) := by
  refine Sim.takeForJson.andThen fun json _ => ?_
  refine (hr.ctes hP h.left).bind fun v o o' ho => ?_
  refine (Sim.scopeOf _ _).andThen fun scope hscope => ?_
  exact Sim.inScope hscope (hr.selectClauses hP h.right ho json)

/-! ## 6. Set operations -/

theorem branch (s : Statement) : P.Sim P.Text (r.branch s) (r.branch s) := by
  refine (hr.statement s).bind fun v t t' ht => .ite (fun _ => .pure ?_) fun _ => ?_
  · rw [List.append_nil]
    exact ht
  · refine hP.freshBranchTable.andThen fun label hlabel => ?_
    refine (hP.word rfl).andThen fun select hselect => ?_
    refine (hP.word rfl).andThen fun sources hsources => ?_
    refine (hP.quote hlabel).andThen fun q hq => .pure ?_
    have hfront := hP.cleanBehind (b := " (")
      (hP.cleanAppend (hP.cleanBehind hselect (b := " * ") (by decide)) hsources) (by decide)
    exact hP.between (hP.front hfront ht) (by decide) (by decide) (hP.clean hq)

omit hr hP in
theorem placed {clause : Clause} {x x' : Compile (Option String)} (hx : P.Sim (Both P.Text) x x') :
    P.Sim (Both P.Text) (Compile.placed order clause x) (Compile.placed order clause x') :=
  .ite (fun _ => hx) fun _ => .pure .none

theorem setOperationTail (s : SetOperation) (json : Option Bool) :
    P.Sim (Each P.Text) (r.setOperationTail s json) (r.setOperationTail s json) := by
  unfold Renderer.setOperationTail
  refine Sim.onDialect ?_
  rw [hP.selectOrder_eq]
  refine (hP.paging _ _ _ _).andThen fun paging hpaging => ?_
  refine (hP.checkClauses _ _).andThen fun _ _ => ?_
  refine (placed (hr.orderBy hP s.orderBy)).bind fun v o o' ho => ?_
  refine (placed (.pure (hP.cleanOption hpaging.tail))).bind fun w p p' hp => ?_
  refine (placed (hP.forJson json)).map fun u j j' hj => ?_
  have hall := Each.cons ho (.cons hp (.cons hj .nil))
  rw [List.append_nil] at hall
  exact hall.filterMap

theorem setOperation {s : SetOperation} (h : P.Fits (s.ctes.map Cte.label)) :
    P.Sim P.Text (r.setOperation s) (r.setOperation s) := by
  unfold Renderer.setOperation
  refine Sim.takeForJson.andThen fun json _ => ?_
  refine (hr.ctes hP h).bind fun v o o' ho => ?_
  refine (Sim.forM fun _ _ => .ite (fun _ => .fail _) fun _ => .pure ⟨rfl, rfl, trivial⟩).andThen
    fun _ _ => ?_
  refine (hr.branch hP s.first).bind fun w t t' ht => ?_
  refine (Sim.mapM (R := Each P.Text) fun x _ => ?_).bind fun u ts ts' hts => ?_
  · have hp := hP.prints (fun f (hf : f.Orderly) => hf.setOps) x.1 []
    refine (hP.writeSame (fun _ hp => absurd hp List.not_mem_nil) hp).andThen fun word hword => ?_
    exact (hr.branch hP x.2).map fun _ _ _ ht => .cons (hP.clean hword) (.single ht)
  · refine (Sim.scopeOf [] []).andThen fun scope hscope => ?_
    refine (Sim.inScope hscope (hr.setOperationTail hP s json)).map fun k tail tail' htail => ?_
    have hall := (ho.toList.append (Each.cons ht hts.flatten)).append htail
    have htrace : v ++ (w ++ u) ++ k = v ++ (w ++ (u ++ k)) := by simp only [List.append_assoc]
    rw [htrace] at hall
    exact hP.intercalate (by decide) (by decide) hall

end Renders

/-! ## 7. Nested queries -/

namespace Lawful

variable (hP : P.Lawful)
include hP

theorem writeJson (key : JsonKey) (h : ∀ p ∈ ps, P.Clean p.2) :
    P.Sim (Same P.Clean) (Compile.write Formats.json key ps) (Compile.write Formats.json key ps) :=
  hP.writeSame h (hP.prints (fun _ hf => hf.json) key ps)

theorem jsonColumn (hl : P.Clean label) {p : Projection} (hp : P.Clean p.label) :
    P.Sim (Same P.Clean) (Renderer.jsonColumn label p) (Renderer.jsonColumn label p) := by
  unfold Renderer.jsonColumn
  refine (hP.quote hp).andThen fun q hq => ?_
  have hcolumn := hP.cleanAppend (hP.cleanBehind hl (b := ".") (by decide)) hq
  cases p.jsonKey? with
  | none => exact .pure ⟨rfl, rfl, hcolumn⟩
  | some key =>
    refine hP.writeJson key fun x hx => ?_
    rw [List.mem_singleton.1 hx]
    exact hcolumn

theorem jsonObject {projection : List Projection} (hp : ∀ p ∈ projection, P.Clean p.label)
    (hc : ∀ c ∈ columns, P.Clean c) :
    P.Sim (Same P.Clean) (Renderer.jsonObject projection columns)
      (Renderer.jsonObject projection columns) := by
  refine (Sim.mapM_same (p := P.Clean) fun x hx => ?_).andThen fun pairs hpairs => ?_
  · have hmem := List.of_mem_zip hx
    refine Sim.onDialect ?_
    rw [hP.conventions_eq]
    refine hP.writeJson .pair fun y hy => ?_
    simp only [List.mem_cons, List.not_mem_nil, or_false] at hy
    rcases hy with rfl | rfl
    · exact hP.stringLiteral (hp _ hmem.1)
    · exact hc _ hmem.2
  · refine hP.writeJson .object fun y hy => ?_
    rw [List.mem_singleton.1 hy]
    exact hP.cleanIntercalate (by decide) hpairs

theorem jsonRows (shape : Shape) {projection : List Projection}
    (hp : ∀ p ∈ projection, P.Clean p.label) (hc : ∀ c ∈ columns, P.Clean c) :
    P.Sim (Same P.Clean) (Renderer.jsonRows shape projection columns)
      (Renderer.jsonRows shape projection columns) := by
  have hrows : ∀ {t : String}, P.Clean t → P.Sim (Same P.Clean)
      (Compile.write Formats.json .rows [("value", t)])
      (Compile.write Formats.json .rows [("value", t)]) := by
    intro t ht
    refine hP.writeJson .rows fun y hy => ?_
    rw [List.mem_singleton.1 hy]
    exact ht
  unfold Renderer.jsonRows
  split
  · refine hrows ?_
    cases columns with
    | nil => exact hP.ofFirm (t := "") (by decide)
    | cons c rest => exact hc c List.mem_cons_self
  · refine (hP.jsonObject hp hc).andThen fun object hobject => ?_
    exact .ite (fun _ => .pure ⟨rfl, rfl, hobject⟩) fun _ => hrows hobject

end Lawful

namespace Renders

variable {r : Renderer} (hr : P.Renders r) (hP : P.Lawful)
include hr hP

theorem scalar (s : Statement) : P.Sim P.Frag (r.scalar s) (r.scalar s) :=
  (hr.statement s).map fun _ _ _ ht => ⟨hP.parenthesized ht, rfl⟩

theorem jsonFunctions {s : Statement} (h : P.Fits (s.projection.map Projection.label))
    (shape : Shape) : P.Sim P.Frag (r.jsonFunctions s shape) (r.jsonFunctions s shape) := by
  have hlabels : ∀ p ∈ s.projection, P.Clean p.label := fun p hp => h _ (List.mem_map_of_mem hp)
  refine (hr.statement _).bind fun v t t' ht => ?_
  refine hP.freshJsonTable.andThen fun name hname => ?_
  refine (hP.quote hname).andThen fun label hlabel => ?_
  refine (Sim.mapM_same fun p hp => hP.jsonColumn hlabel (hlabels p hp)).andThen
    fun columns hcolumns => ?_
  refine (hP.jsonRows shape hlabels hcolumns).andThen fun value hvalue => .pure ⟨?_, rfl⟩
  have hfront := hP.cleanBehind (b := " FROM (")
    (hP.cleanAppend (hP.ofFirm (t := "SELECT ") (by decide)) hvalue) (by decide)
  exact hP.parenthesized (hP.between (b := ") AS ") (hP.front hfront ht) (by decide) (by decide)
    (hP.clean hlabel))

theorem jsonClause (s : Statement) (shape : Shape) :
    P.Sim P.Frag (r.jsonClause s shape) (r.jsonClause s shape) := by
  unfold Renderer.jsonClause
  refine .guard (fun _ => .fail _) ?_
  refine (Sim.inForJson _ (hr.statement _)).bind fun v t t' ht => Sim.ended ?_
  have hprints : ∀ ps, P.Prints Formats.json .nested ps ["value"] := fun ps =>
    hP.arrangement.imp id fun ho => ⟨(ho.formats.json _).1, ho.formats.jsonNested ps⟩
  have hvalue : P.Text v
      (if shape = .first then "(" ++ t ++ ")" else "COALESCE((" ++ t ++ "), '[]')")
      (if shape = .first then "(" ++ t' ++ ")" else "COALESCE((" ++ t' ++ "), '[]')") := by
    split
    · exact hP.parenthesized ht
    · exact hP.behind (hP.inFront (by decide) ht) (by decide) (by decide)
  exact (hP.write (.text List.not_mem_nil hvalue .nil) (hprints _)).map
    fun _ _ _ hu => ⟨hu.1, hu.2, rfl⟩

theorem query {s : Statement} (h : P.Fits (s.projection.map Projection.label)) :
    P.Sim P.Frag (r.query s) (r.query s) := by
  unfold Renderer.query
  refine .ite (fun _ => hr.scalar hP s) fun _ => .guard (fun _ => .fail _) ?_
  refine (hP.has _).andThen fun _ _ => .ite (fun _ => hr.jsonFunctions hP h _) fun _ => ?_
  refine Sim.onDialect ?_
  rw [hP.selectOrder_eq]
  refine .ite (fun _ => hr.jsonClause hP s _) fun _ => ?_
  exact (hP.missing _).andThen fun _ _ => hr.scalar hP s

end Renders

end Pairing

end QueryPlan
