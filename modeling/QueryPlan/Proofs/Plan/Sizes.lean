import QueryPlan.Plan.Size
import QueryPlan.Proofs.Compile.Places

/-!
# Sizes of phrases

A phrase is larger than the phrases that it asks for. The clauses of a statement leave room for all
its windows besides: a window that is written in place of its name is then paid for.
-/

namespace QueryPlan

/-! ## 1. Sizes by fields -/

theorem Cte.size_eq (c : Cte) : c.size = c.statement.size := by
  cases c
  rfl

theorem NamedWindow.size_eq (w : NamedWindow) : w.size = w.spec.size := by
  cases w
  rfl

theorem Select.size_eq (q : Select) :
    q.size = cteSizes q.ctes + distinctSize q.distinct + projectionSizes q.projection +
      sourceSizes q.sources + exprSizes q.predicates + exprSizes q.groupBy + optionSize q.having +
      windowSizes q.windows + orderSizes q.orderBy + 1 := by
  cases q
  rfl

theorem SetOperation.size_eq (q : SetOperation) :
    q.size = cteSizes q.ctes + q.first.size + branchSizes q.rest + orderSizes q.orderBy + 1 := by
  cases q
  rfl

theorem Insert.size_eq (i : Insert) :
    i.size = cteSizes i.ctes + i.source.size + conflictSize i.onConflict +
      projectionSizes i.returning + 1 := by
  cases i
  rfl

theorem Update.size_eq (u : Update) :
    u.size = cteSizes u.ctes + assignmentSizes u.assignments + sourceSizes u.sources +
      exprSizes u.predicates + orderSizes u.orderBy + projectionSizes u.returning + 4 := by
  cases u
  rfl

theorem Delete.size_eq (d : Delete) :
    d.size = cteSizes d.ctes + sourceSizes d.sources + exprSizes d.predicates +
      orderSizes d.orderBy + projectionSizes d.returning + 4 := by
  cases d
  rfl

/-! ## 2. Phrases of a bounded size -/

/-- Where sizes add up, no item of a list is larger than the list. -/
theorem size_le_of_mem {α : Type} {f : α → Nat} {g : List α → Nat}
    (hsizes : ∀ a rest, g (a :: rest) = f a + g rest) {list : List α} {a : α} (ha : a ∈ list) :
    f a ≤ g list := by
  induction list with
  | nil => exact absurd ha List.not_mem_nil
  | cons b rest ih =>
    rw [hsizes]
    rcases List.mem_cons.1 ha with rfl | ha
    · exact Nat.le_add_right _ _
    · exact Nat.le_trans (ih ha) (Nat.le_add_left _ _)

def Phrase.size : Phrase → Nat
  | .expr e => e.size
  | .statement s => s.size

/-- Phrases none of which is larger than a bound. -/
def Within (n : Nat) (ps : List Phrase) : Prop :=
  ∀ p ∈ ps, p.size ≤ n

namespace Within

variable {m n : Nat} {ps qs : List Phrase}

theorem nil (n : Nat) : Within n [] :=
  fun _ hp => absurd hp List.not_mem_nil

theorem single (p : Phrase) : Within p.size [p] := by
  intro q hq
  cases List.mem_singleton.1 hq
  exact Nat.le_refl _

theorem append (h : Within m ps) (h' : Within n qs) : Within (m + n) (ps ++ qs) := by
  intro p hp
  rcases List.mem_append.1 hp with hp | hp
  · exact Nat.le_trans (h p hp) (Nat.le_add_right m n)
  · exact Nat.le_trans (h' p hp) (Nat.le_add_left n m)

theorem cons (p : Phrase) (h : Within n ps) : Within (p.size + n) (p :: ps) :=
  (single p).append h

/-- The phrases of the items of a list, whose sizes add up. -/
theorem flatMap {α : Type} {size : α → Nat} {sizes : List α → Nat} {f : α → List Phrase}
    (hsizes : ∀ a rest, sizes (a :: rest) = size a + sizes rest)
    (h : ∀ a, Within (size a) (f a)) (list : List α) : Within (sizes list) (list.flatMap f) := by
  intro p hp
  obtain ⟨a, ha, hp⟩ := List.mem_flatMap.1 hp
  exact Nat.le_trans (h a p hp) (size_le_of_mem hsizes ha)

theorem map {α : Type} {sizes : List α → Nat} {f : α → Phrase}
    (hsizes : ∀ a rest, sizes (a :: rest) = (f a).size + sizes rest) (list : List α) :
    Within (sizes list) (list.map f) := by
  rw [List.map_eq_flatMap]
  exact flatMap hsizes (fun a => single (f a)) list

/-! ## 3. Lists of phrases -/

theorem exprs (es : List Expr) : Within (exprSizes es) (exprPhrases es) :=
  map (fun _ _ => rfl) es

theorem option (e : Option Expr) : Within (optionSize e) (exprPhrases e.toList) := by
  cases e with
  | none => exact nil _
  | some e => exact single (.expr e)

theorem rows (rows : List (List Expr)) : Within (rowSizes rows) (rows.flatMap exprPhrases) :=
  flatMap (fun _ _ => rfl) exprs rows

theorem arms (list : List (Expr × Expr)) :
    Within (armSizes list) (exprPhrases (list.map Prod.fst) ++ exprPhrases (list.map Prod.snd)) := by
  induction list with
  | nil => exact nil _
  | cons arm rest ih =>
    intro p hp
    have hsize : armSizes (arm :: rest) = arm.1.size + arm.2.size + armSizes rest := rfl
    simp only [exprPhrases, List.map_cons, List.mem_append, List.mem_cons] at hp
    rcases hp with (rfl | hp) | rfl | hp
    · simp only [Phrase.size, hsize]
      omega
    · have := ih p (List.mem_append_left _ hp)
      omega
    · simp only [Phrase.size, hsize]
      omega
    · have := ih p (List.mem_append_right _ hp)
      omega

theorem orders (items : List OrderBy) : Within (orderSizes items) (orderPhrases items) :=
  map (fun o _ => by cases o; rfl) items

theorem spec (w : WindowSpec) : Within w.size w.phrases := by
  obtain ⟨partitionBy, orderBy⟩ := w
  exact (exprs partitionBy).append (orders orderBy)

theorem window (w : WindowRef) : Within w.size w.phrases := by
  cases w with
  | named name => exact nil _
  | inline w => exact spec w

theorem members (list : Members) : Within list.size list.phrases := by
  cases list with
  | exprs es => exact exprs es
  | query s => exact single (.statement s)

theorem source : (s : Source) → Within s.size s.phrases
  | .table _ => nil _
  | .derived _ s => single (.statement s)
  | .values _ _ list => rows list
  | .join _ inner condition => (source inner).append (option condition)

theorem sources (list : List Source) : Within (sourceSizes list) (sourcePhrases list) :=
  flatMap (fun _ _ => rfl) source list

theorem projections (list : List Projection) :
    Within (projectionSizes list) (projectionPhrases list) :=
  map (fun p _ => by cases p; rfl) list

theorem assignments (list : List Assignment) :
    Within (assignmentSizes list) (assignmentPhrases list) :=
  map (fun a _ => by cases a; rfl) list

theorem distinct (d : Option Distinct) : Within (distinctSize d) (distinctPhrases d) := by
  match d with
  | none => exact nil _
  | some .all => exact nil _
  | some (.on es) => exact exprs es

theorem insertSource (source : InsertSource) : Within source.size source.phrases := by
  cases source with
  | values list => exact rows list
  | query s => exact single (.statement s)
  | defaultValues => exact nil _

theorem conflict (c : Option OnConflict) : Within (conflictSize c) (conflictPhrases c) := by
  match c with
  | none => exact nil _
  | some ⟨_, .doNothing⟩ => exact nil _
  | some ⟨_, .doUpdate list⟩ => exact assignments list

end Within

/-! ## 4. Expressions -/

theorem size_limitToFirst (shape : Shape) (s : Statement) :
    (limitToFirst shape s).size = s.size := by
  unfold limitToFirst
  split
  · cases s with
    | select q | setOp q => cases q; rfl
    | _ => rfl
  · rfl

/-- An expression is larger than what it asks for. -/
theorem Expr.size_phrases {e : Expr} {p : Phrase} (hp : p ∈ e.phrases) : p.size < e.size := by
  have hbound : ∀ {n : Nat} {ps : List Phrase}, Within n ps → p ∈ ps → p.size < n + 1 :=
    fun h hp => Nat.lt_succ_of_le (h p hp)
  cases e with
  | function name es type | conditions op es | row es => exact hbound (.exprs es) hp
  | aggregate kind distinct arg filter => exact hbound ((Within.option arg).append (.option filter)) hp
  | unary op operand | unaryPredicate op operand | not operand | cast type operand =>
    exact hbound (.single (.expr operand)) hp
  | binary op left right | binaryPredicate op left right =>
    exact hbound (Within.cons (.expr left) (.single (.expr right))) hp
  | case subject arms otherwise =>
    have h := ((Within.option subject).append (.arms arms)).append (.option otherwise)
    rw [← List.append_assoc] at h
    exact hbound h hp
  | between value low high negated =>
    have h := (Within.single (.expr value)).append
      ((Within.single (.expr low)).append (.single (.expr high)))
    rw [← Nat.add_assoc] at h
    exact hbound h hp
  | member value list negated => exact hbound (Within.cons (.expr value) (.members list)) hp
  | rowsExist q negated => exact hbound (.single (.statement q)) hp
  | query s =>
    rcases List.mem_cons.1 hp with rfl | hp
    · exact Nat.lt_succ_self _
    · rw [List.mem_singleton.1 hp]
      show (limitToFirst s.shape s).size < s.size + 1
      rw [size_limitToFirst]
      exact Nat.lt_succ_self _
  | windowed e window => exact hbound (Within.cons (.expr e) (.window window)) hp
  | _ => exact absurd hp List.not_mem_nil

/-! ## 5. Statements -/

theorem exprSizes_append (es fs : List Expr) :
    exprSizes (es ++ fs) = exprSizes es + exprSizes fs := by
  induction es with
  | nil => simp [exprSizes]
  | cons e rest ih =>
    simp only [List.cons_append, exprSizes, ih]
    omega

/-- Detaching a join neither adds nor removes anything. -/
theorem size_detached (sources : List Source) :
    sourceSizes (detached sources).1 + exprSizes (detached sources).2 = sourceSizes sources := by
  match sources with
  | [] | .table _ :: _ | .derived _ _ :: _ | .values _ _ _ :: _ => rfl
  | .join kind source condition :: rest =>
    cases condition with
    | none => simp [detached, sourceSizes, Source.size, optionSize, exprSizes]
    | some e =>
      simp only [detached, sourceSizes, Source.size, optionSize, exprSizes, Option.toList]
      omega

/-- The sub-query that the further sources of a change may become. -/
theorem size_existsPhrase (sources : List Source) (predicates : List Expr) :
    (existsPhrase sources predicates).size = sourceSizes sources + exprSizes predicates + 3 := by
  have hdetached := size_detached sources
  simp only [existsPhrase, existsCondition, Phrase.size, Expr.size, Statement.size, Select.empty,
    Select.size, cteSizes, distinctSize, projectionSizes, Projection.size, exprSizes_append,
    exprSizes, optionSize, windowSizes, orderSizes]
  omega

/-- A statement is larger than what its clauses ask for, and all its windows. -/
theorem Statement.size_clausePhrases {s : Statement} {p : Phrase} (hp : p ∈ s.clausePhrases) :
    p.size + windowSizes s.windows < s.size := by
  cases s with
  | select q =>
    have h := ((((((Within.distinct q.distinct).append (.projections q.projection)).append
      (.sources q.sources)).append (.exprs q.predicates)).append (.exprs q.groupBy)).append
      (.option q.having)).append (.orders q.orderBy)
    have hle := h p hp
    simp only [Statement.size, Select.size_eq, Statement.windows]
    omega
  | setOp q =>
    have hle := Within.orders q.orderBy p hp
    simp only [Statement.size, SetOperation.size_eq, Statement.windows, windowSizes]
    omega
  | insert i =>
    have h := ((Within.insertSource i.source).append (.conflict i.onConflict)).append
      (.projections i.returning)
    have hle := h p hp
    simp only [Statement.size, Insert.size_eq, Statement.windows, windowSizes]
    omega
  | update u =>
    have h := ((((Within.assignments u.assignments).append (.sources u.sources)).append
      (.exprs u.predicates)).append (.orders u.orderBy)).append (.projections u.returning)
    simp only [Statement.size, Update.size_eq, Statement.windows, windowSizes]
    rcases List.mem_cons.1 hp with rfl | hp
    · rw [size_existsPhrase]
      omega
    · have hle := h p hp
      omega
  | delete d =>
    have h := (((Within.sources d.sources).append (.exprs d.predicates)).append
      (.orders d.orderBy)).append (.projections d.returning)
    simp only [Statement.size, Delete.size_eq, Statement.windows, windowSizes]
    rcases List.mem_cons.1 hp with rfl | hp
    · rw [size_existsPhrase]
      omega
    · have hle := h p hp
      omega

theorem NamedWindow.size_le_windowSizes {list : List NamedWindow} {w : NamedWindow} (hw : w ∈ list) :
    w.spec.size ≤ windowSizes list :=
  size_le_of_mem (f := (·.spec.size)) (fun v _ => by rw [windowSizes, v.size_eq]) hw

theorem Statement.windowSizes_lt (s : Statement) : windowSizes s.windows < s.size := by
  cases s with
  | select q =>
    simp only [Statement.size, Select.size_eq, Statement.windows]
    omega
  | setOp q => simp [Statement.size, SetOperation.size_eq, Statement.windows, windowSizes]
  | insert i => simp [Statement.size, Insert.size_eq, Statement.windows, windowSizes]
  | update u => simp [Statement.size, Update.size_eq, Statement.windows, windowSizes]
  | delete d => simp [Statement.size, Delete.size_eq, Statement.windows, windowSizes]

theorem Statement.size_ctes {s : Statement} {c : Cte} (hc : c ∈ s.ctes) :
    c.statement.size < s.size := by
  have hlist : c.statement.size ≤ cteSizes s.ctes :=
    size_le_of_mem (f := (·.statement.size)) (fun a _ => by rw [cteSizes, a.size_eq]) hc
  cases s <;> simp only [Statement.ctes, Statement.size, Select.size_eq, SetOperation.size_eq,
    Insert.size_eq, Update.size_eq, Delete.size_eq] at hlist ⊢ <;> omega

theorem SetOperation.size_branches {q : SetOperation} {s : Statement} (hs : s ∈ q.branches) :
    s.size < (Statement.setOp q).size := by
  rw [Statement.size, SetOperation.size_eq]
  rcases List.mem_cons.1 hs with rfl | hs
  · omega
  · obtain ⟨i, hi, rfl⟩ := List.mem_map.1 hs
    have hrest : i.2.size ≤ branchSizes q.rest :=
      size_le_of_mem (f := (·.2.size)) (fun _ _ => rfl) hi
    omega

end QueryPlan
