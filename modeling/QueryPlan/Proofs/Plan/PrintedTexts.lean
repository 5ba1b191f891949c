import QueryPlan.Proofs.Plan.Words

/-!
# Printed texts, phrase by phrase

`Statement.texts` collects the texts of a plan that are printed. Here they are followed down to the
phrases that the plan is made of: if something holds of all printed texts of a phrase, it holds of
the words that the phrase prints itself and of the texts of its parts, and so of all that a
compilation comes to (`Reaches.texts`).
-/

namespace QueryPlan

/-- The texts of a phrase that are printed. -/
def Phrase.texts (inPlace : Bool) : Phrase → List String
  | .expr e => e.texts inPlace
  | .statement s => s.texts inPlace

/-- The words that a phrase prints itself. Constants and parameters have words that they need not
    print. -/
def Phrase.printedWords : Phrase → List String
  | .expr (.constant _ _) => []
  | .expr (.param _ _) => []
  | p => p.ownWords

theorem exprTexts_append (b : Bool) (es fs : List Expr) :
    exprTexts b (es ++ fs) = exprTexts b es ++ exprTexts b fs := by
  induction es with
  | nil => rfl
  | cons e rest ih => rw [List.cons_append, exprTexts, ih, exprTexts, List.append_assoc]

/-- Words and phrases whose printed texts have some property. -/
structure Brings (F : String → Prop) (b : Bool) (ws : List String) (ps : List Phrase) : Prop where
  words : ∀ w ∈ ws, F w
  phrases : ∀ p ∈ ps, ∀ t ∈ p.texts b, F t

namespace Brings

variable {F : String → Prop} {b : Bool} {ws vs : List String} {ps qs : List Phrase}

/-! ## 1. Lists -/

theorem nil : Brings F b [] [] :=
  ⟨fun _ hw => absurd hw List.not_mem_nil, fun _ hp => absurd hp List.not_mem_nil⟩

theorem ofWords (h : ∀ w ∈ ws, F w) : Brings F b ws [] :=
  ⟨h, fun _ hp => absurd hp List.not_mem_nil⟩

theorem ofPhrases (h : ∀ p ∈ ps, ∀ t ∈ p.texts b, F t) : Brings F b [] ps :=
  ⟨fun _ hw => absurd hw List.not_mem_nil, h⟩

theorem single (p : Phrase) (h : ∀ t ∈ p.texts b, F t) : Brings F b [] [p] :=
  ofPhrases (List.forall_mem_singleton.2 h)

theorem append (h : Brings F b ws ps) (h' : Brings F b vs qs) :
    Brings F b (ws ++ vs) (ps ++ qs) :=
  ⟨List.forall_mem_append.2 ⟨h.words, h'.words⟩, List.forall_mem_append.2 ⟨h.phrases, h'.phrases⟩⟩

section

variable {α : Type} {all : List α → List String} {texts : α → List String}
  (hall : ∀ a rest, all (a :: rest) = texts a ++ all rest) {list : List α}
include hall

theorem flatMap {f : α → List String} {g : α → List Phrase}
    (hitem : ∀ a, (∀ t ∈ texts a, F t) → Brings F b (f a) (g a)) (h : ∀ t ∈ all list, F t) :
    Brings F b (list.flatMap f) (list.flatMap g) := by
  induction list with
  | nil => exact nil
  | cons a rest ih =>
    rw [hall, List.forall_mem_append] at h
    exact (hitem a h.1).append (ih h.2)

theorem map {f : α → String} {g : α → Phrase}
    (hitem : ∀ a, (∀ t ∈ texts a, F t) → F (f a) ∧ ∀ t ∈ (g a).texts b, F t)
    (h : ∀ t ∈ all list, F t) : Brings F b (list.map f) (list.map g) := by
  rw [List.map_eq_flatMap, List.map_eq_flatMap]
  refine flatMap hall (fun a ha => ?_) h
  exact (ofWords (List.forall_mem_singleton.2 (hitem a ha).1)).append (single (g a) (hitem a ha).2)

/-- Items without words. -/
theorem silent {g : α → List Phrase}
    (hitem : ∀ a, (∀ t ∈ texts a, F t) → Brings F b [] (g a)) (h : ∀ t ∈ all list, F t) :
    Brings F b [] (list.flatMap g) :=
  ofPhrases (flatMap hall hitem h).phrases

end

/-! ## 2. Parts of phrases -/

theorem exprs {es : List Expr} (h : ∀ t ∈ exprTexts b es, F t) :
    Brings F b [] (exprPhrases es) := by
  rw [exprPhrases, List.map_eq_flatMap]
  exact silent (fun _ _ => rfl) (fun e => single (.expr e)) h

theorem option {e : Option Expr} (h : ∀ t ∈ optionTexts b e, F t) :
    Brings F b [] (exprPhrases e.toList) := by
  cases e with
  | none => exact nil
  | some e => exact single (.expr e) h

theorem rows {rows : List (List Expr)} (h : ∀ t ∈ rowTexts b rows, F t) :
    Brings F b [] (rows.flatMap exprPhrases) :=
  silent (fun _ _ => rfl) (fun _ => exprs) h

theorem arms {list : List (Expr × Expr)} (h : ∀ t ∈ armTexts b list, F t) :
    Brings F b [] (exprPhrases (list.map Prod.fst) ++ exprPhrases (list.map Prod.snd)) := by
  have harms : ∀ arm ∈ list, (∀ t ∈ arm.1.texts b, F t) ∧ ∀ t ∈ arm.2.texts b, F t := by
    induction list with
    | nil => exact fun _ harm => absurd harm List.not_mem_nil
    | cons arm rest ih =>
      rw [armTexts, List.forall_mem_append, List.forall_mem_append] at h
      exact List.forall_mem_cons.2 ⟨h.1, ih h.2⟩
  refine ofPhrases ?_
  simp only [exprPhrases, List.forall_mem_append, List.forall_mem_map]
  exact ⟨fun arm harm => (harms arm harm).1, fun arm harm => (harms arm harm).2⟩

theorem orders {items : List OrderBy} (h : ∀ t ∈ orderTexts b items, F t) :
    Brings F b [] (orderPhrases items) := by
  rw [orderPhrases, List.map_eq_flatMap]
  exact silent (fun o _ => by cases o; rfl) (fun o => single (.expr o.expr)) h

theorem spec {w : WindowSpec} (h : ∀ t ∈ w.texts b, F t) : Brings F b [] w.phrases := by
  obtain ⟨partitionBy, orderBy⟩ := w
  obtain ⟨hpartition, horder⟩ := List.forall_mem_append.1 h
  exact (exprs hpartition).append (orders horder)

theorem source : (s : Source) → (∀ t ∈ s.texts b, F t) → Brings F b s.ownWords s.phrases
  | .table _, h => ofWords h
  | .derived label s, h => by
    obtain ⟨hlabel, hs⟩ := List.forall_mem_cons.1 h
    exact (ofWords (List.forall_mem_singleton.2 hlabel)).append (single (.statement s) hs)
  | .values label columns list, h => by
    obtain ⟨hwords, hrows⟩ := List.forall_mem_append.1 h
    have hboth := (ofWords hwords).append (rows hrows)
    rwa [List.append_nil] at hboth
  | .join _ inner condition, h => by
    obtain ⟨hinner, hcondition⟩ := List.forall_mem_append.1 h
    have hboth := (source inner hinner).append (option hcondition)
    rwa [List.append_nil] at hboth

theorem sources {list : List Source} (h : ∀ t ∈ sourceTexts b list, F t) :
    Brings F b (list.flatMap Source.ownWords) (sourcePhrases list) :=
  flatMap (fun _ _ => rfl) source h

theorem projections {list : List Projection} (h : ∀ t ∈ projectionTexts b list, F t) :
    Brings F b (list.map Projection.label) (projectionPhrases list) :=
  map (fun p _ => by cases p; rfl) (fun _ hp => List.forall_mem_cons.1 hp) h

theorem assignments {list : List Assignment} (h : ∀ t ∈ assignmentTexts b list, F t) :
    Brings F b (list.map Assignment.column) (assignmentPhrases list) :=
  map (fun a _ => by cases a; rfl) (fun _ ha => List.forall_mem_cons.1 ha) h

theorem ctes {list : List Cte} (h : ∀ t ∈ cteTexts b list, F t) :
    Brings F b (list.map Cte.label) (list.map fun c => .statement c.statement) :=
  map (fun c _ => by cases c; rfl) (fun _ hc => List.forall_mem_cons.1 hc) h

theorem windows {list : List NamedWindow} (h : ∀ t ∈ windowTexts b list, F t) :
    Brings F b (list.map NamedWindow.name) (list.flatMap fun w => w.spec.phrases) := by
  rw [List.map_eq_flatMap]
  refine flatMap (fun _ _ => rfl) (fun w hw => ?_) h
  obtain ⟨name, w⟩ := w
  obtain ⟨hname, hspec⟩ := List.forall_mem_cons.1 hw
  exact (ofWords (List.forall_mem_singleton.2 hname)).append (spec hspec)

theorem distinct {d : Option Distinct} (h : ∀ t ∈ distinctTexts b d, F t) :
    Brings F b [] (distinctPhrases d) := by
  match d with
  | none => exact nil
  | some .all => exact nil
  | some (.on es) => exact exprs h

theorem insertSource {source : InsertSource} (h : ∀ t ∈ source.texts b, F t) :
    Brings F b [] source.phrases := by
  cases source with
  | values list => exact rows h
  | query s => exact single (.statement s) h
  | defaultValues => exact nil

theorem conflict {c : Option OnConflict} (h : ∀ t ∈ conflictTexts b c, F t) :
    Brings F b (conflictWords c) (conflictPhrases c) := by
  match c with
  | none => exact nil
  | some ⟨target, .doNothing⟩ => exact ofWords (List.forall_mem_append.1 h).1
  | some ⟨target, .doUpdate list⟩ =>
    obtain ⟨htarget, hlist⟩ := List.forall_mem_append.1 h
    exact (ofWords htarget).append (assignments hlist)

/-! ## 3. Phrases -/

theorem texts_limitToFirst (shape : Shape) (s : Statement) :
    (limitToFirst shape s).texts b = s.texts b := by
  unfold limitToFirst
  split
  · cases s with
    | select q | setOp q => cases q; rfl
    | _ => rfl
  · rfl

/-- The labels of the columns of a statement are among its texts. -/
theorem labels : (s : Statement) → (∀ t ∈ s.texts b, F t) →
    ∀ w ∈ s.projection.map Projection.label, F w
  | .select ⟨_, _, _, _, _, _, _, _, _, _, _, _⟩, h => by
    simp only [Statement.texts, Select.texts, List.forall_mem_append] at h
    exact (projections h.1.1.1.1.1.1.2).words
  | .insert ⟨_, _, _, _, _, _, _, _, _⟩, h => (projections (List.forall_mem_append.1 h).2).words
  | .update ⟨_, _, _, _, _, _, _, _, _⟩, h => (projections (List.forall_mem_append.1 h).2).words
  | .delete ⟨_, _, _, _, _, _, _, _⟩, h => (projections (List.forall_mem_append.1 h).2).words
  | .setOp ⟨_, first, _, _, _, _, _⟩, h => by
    simp only [Statement.texts, SetOperation.texts, List.forall_mem_append] at h
    exact labels first h.1.1.2

theorem expr {e : Expr} (h : ∀ t ∈ e.texts b, F t) :
    Brings F b (Phrase.expr e).printedWords e.phrases := by
  have hpair : ∀ {e₁ e₂ : Expr}, (∀ t ∈ e₁.texts b ++ e₂.texts b, F t) →
      Brings F b [] [.expr e₁, .expr e₂] := fun h =>
    (single (.expr _) (List.forall_mem_append.1 h).1).append
      (single (.expr _) (List.forall_mem_append.1 h).2)
  cases e with
  | constant value type | param name type | default => exact nil
  | field source name type | raw sql | excluded column => exact ofWords h
  | function name args type =>
    obtain ⟨hname, hargs⟩ := List.forall_mem_cons.1 h
    exact (ofWords (List.forall_mem_singleton.2 hname)).append (exprs hargs)
  | aggregate kind distinct arg filter =>
    obtain ⟨harg, hfilter⟩ := List.forall_mem_append.1 h
    exact (option harg).append (option hfilter)
  | unary op operand | unaryPredicate op operand | not operand | rowsExist q negated =>
    exact single _ h
  | binary op left right | binaryPredicate op left right => exact hpair h
  | conditions op operands | row elements => exact exprs h
  | case subject list otherwise =>
    simp only [Expr.texts, List.forall_mem_append] at h
    have hall := ((option h.1.1).append (arms h.1.2)).append (option h.2)
    rw [← List.append_assoc (exprPhrases subject.toList)] at hall
    exact hall
  | cast type operand =>
    obtain ⟨htype, hoperand⟩ := List.forall_mem_append.1 h
    have hall := (ofWords htype).append (single (.expr operand) hoperand)
    rwa [List.append_nil] at hall
  | between value low high negated =>
    simp only [Expr.texts, List.forall_mem_append] at h
    exact (single (.expr value) h.1.1).append (hpair (List.forall_mem_append.2 ⟨h.1.2, h.2⟩))
  | member value list negated =>
    obtain ⟨hvalue, hlist⟩ := List.forall_mem_append.1 h
    cases list with
    | exprs es => exact (single (.expr value) hvalue).append (exprs hlist)
    | query s => exact (single (.expr value) hvalue).append (single (.statement s) hlist)
  | query s =>
    refine ⟨labels s h, List.forall_mem_cons.2 ⟨h, List.forall_mem_singleton.2 ?_⟩⟩
    rw [Phrase.texts, texts_limitToFirst]
    exact h
  | windowed e window =>
    obtain ⟨he, hwindow⟩ := List.forall_mem_append.1 h
    cases window with
    | named name => exact (ofWords hwindow).append (single (.expr e) he)
    | inline w => exact (single (.expr e) he).append (spec hwindow)

/-- The condition that some rows exist brings two more texts. -/
theorem existsPhrase (hone : F "_one") (hraw : F "1") {sources : List Source}
    (hs : ∀ t ∈ sourceTexts b sources, F t) {predicates : List Expr}
    (hp : ∀ t ∈ exprTexts b predicates, F t) :
    Brings F b [] [QueryPlan.existsPhrase sources predicates] := by
  have hdetached : (∀ t ∈ sourceTexts b (detached sources).1, F t) ∧
      ∀ t ∈ exprTexts b (detached sources).2, F t := by
    unfold detached
    split
    · next kind source condition rest =>
      simp only [sourceTexts, Source.texts, List.forall_mem_append] at hs
      refine ⟨List.forall_mem_append.2 ⟨hs.1.1, hs.2⟩, ?_⟩
      cases condition with
      | none => exact fun _ ht => absurd ht List.not_mem_nil
      | some e => exact List.forall_mem_append.2 ⟨hs.1.2, fun _ ht => absurd ht List.not_mem_nil⟩
    · exact ⟨hs, fun _ ht => absurd ht List.not_mem_nil⟩
  refine single _ fun t ht => ?_
  simp only [QueryPlan.existsPhrase, Phrase.texts, existsCondition, Select.empty, Expr.texts,
    Statement.texts, Select.texts, cteTexts, distinctTexts, projectionTexts, Projection.texts,
    exprTexts_append, exprTexts, optionTexts, windowTexts, orderTexts, List.append_nil,
    List.nil_append, List.mem_append, List.mem_cons, List.not_mem_nil, or_false] at ht
  rcases ht with ((rfl | rfl) | ht) | ht | ht
  · exact hone
  · exact hraw
  · exact hdetached.1 t ht
  · exact hdetached.2 t ht
  · exact hp t ht

theorem branches {list : List (SetOperator × Statement)} (h : ∀ t ∈ branchTexts b list, F t) :
    Brings F b [] (list.map (.statement ∘ Prod.snd)) := by
  rw [List.map_eq_flatMap]
  exact silent (fun _ _ => rfl) (fun x => single (.statement x.2)) h

theorem statement (hone : F "_one") (hraw : F "1") {s : Statement} (h : ∀ t ∈ s.texts b, F t) :
    Brings F b s.ownWords (Phrase.statement s).parts := by
  cases s
  all_goals simp only [Statement.ownWords, Statement.clauseWords, Phrase.parts, Statement.ctes,
    Statement.branches, Statement.clausePhrases, Statement.windows]
  case select q =>
    obtain ⟨_, _, _, _, _, _, _, _, _, _, _, _⟩ := q
    simp only [Statement.texts, Select.texts, List.forall_mem_append] at h
    obtain ⟨⟨⟨⟨⟨⟨⟨⟨hctes, hdistinct⟩, hprojection⟩, hsources⟩, hpredicates⟩, hgroup⟩, hhaving⟩,
      hwindows⟩, horder⟩ := h
    have hclauses := ((((((distinct hdistinct).append (projections hprojection)).append
      (sources hsources)).append (exprs hpredicates)).append (exprs hgroup)).append
      (option hhaving)).append (orders horder)
    have hall := ((ctes hctes).append hclauses).append (windows hwindows)
    simpa using hall
  case setOp q =>
    obtain ⟨_, _, _, _, _, _, _⟩ := q
    simp only [Statement.texts, SetOperation.texts, List.forall_mem_append] at h
    obtain ⟨⟨⟨hctes, hfirst⟩, hrest⟩, horder⟩ := h
    have hall := ((ctes hctes).append ((single (.statement _) hfirst).append
      (branches hrest))).append (orders horder)
    simpa [SetOperation.branches] using hall
  case insert i =>
    obtain ⟨_, _, _, _, _, _, _, _, _⟩ := i
    simp only [Statement.texts, Insert.texts, List.forall_mem_append] at h
    obtain ⟨⟨⟨⟨⟨hctes, htable⟩, hcolumns⟩, hsource⟩, hconflict⟩, hreturning⟩ := h
    have hall := ((((ctes hctes).append (ofWords htable)).append (ofWords hcolumns)).append
      (insertSource hsource)).append ((conflict hconflict).append (projections hreturning))
    simpa using hall
  case update u =>
    obtain ⟨_, _, _, _, _, _, _, _, _⟩ := u
    simp only [Statement.texts, Update.texts, List.forall_mem_append] at h
    obtain ⟨⟨⟨⟨⟨⟨hctes, htable⟩, hassignments⟩, hsources⟩, hpredicates⟩, horder⟩, hreturning⟩ := h
    have hall := (((((((ctes hctes).append (ofWords htable)).append
      (existsPhrase hone hraw hsources hpredicates)).append (assignments hassignments)).append
      (sources hsources)).append (exprs hpredicates)).append (orders horder)).append
      (projections hreturning)
    simpa using hall
  case delete d =>
    obtain ⟨_, _, _, _, _, _, _, _⟩ := d
    simp only [Statement.texts, Delete.texts, List.forall_mem_append] at h
    obtain ⟨⟨⟨⟨⟨hctes, htable⟩, hsources⟩, hpredicates⟩, horder⟩, hreturning⟩ := h
    have hall := ((((((ctes hctes).append (ofWords htable)).append
      (existsPhrase hone hraw hsources hpredicates)).append
      (sources hsources)).append (exprs hpredicates)).append (orders horder)).append
      (projections hreturning)
    simpa using hall

/-- A phrase prints nothing else. -/
theorem phrase (hone : F "_one") (hraw : F "1") {p : Phrase} (h : ∀ t ∈ p.texts b, F t) :
    Brings F b p.printedWords p.parts := by
  cases p with
  | expr e => exact expr h
  | statement s => exact statement hone hraw h

end Brings

/-- **A compilation prints no other texts** than those of its statement, except in the sub-query
    that further sources of a change may become. -/
theorem Reaches.texts {F : String → Prop} {b : Bool} (hone : F "_one") (hraw : F "1")
    {σ : Setting} {s : Statement} {p : Phrase} {k : Place} (hs : ∀ t ∈ s.texts b, F t)
    (h : Reaches σ s p k) : ∀ t ∈ p.texts b, F t :=
  h.inherit (Q := fun p => ∀ t ∈ p.texts b, F t)
    (fun _ p' hpart hp => (Brings.phrase hone hraw hp).phrases p' hpart) hs

end QueryPlan
