import QueryPlan.Compile.Output
import QueryPlan.Proofs.Compile.Run
import QueryPlan.Proofs.Lexical.Basic
import QueryPlan.Proofs.SetOperation.Chain

/-!
# Printed set operations

A set operation is printed as a chain of units and words, with the common table expressions in front
and the ordering and paging behind (`setOperation_pieces`). A unit is the text of a branch, or a
derived table of it if the branch orders, pages or declares something of its own.

`readChain` reads such a chain by the precedence of the operators, and `Lexicon.readSetText` a whole
text, by the operators that stand outside of parentheses. What is read is what the plan says exactly
if the intersections of the plan come first (`printed_rows_iff`): nothing is put between parentheses
to keep an earlier operator together.
-/

namespace QueryPlan

open Compile Renderer

variable {s : Setting} {text : String} {q : SetOperation} {depth : Nat} {c c' : Context}

/-! ## 1. Chains -/

/-- The rows of a set operation, combined from left to right, where its branches have rows. -/
def SetOperation.rows {Row : Type} [DecidableEq Row] (q : SetOperation) (ρ : Nat → Multiset Row) :
    Multiset Row :=
  ((q.rest.map Prod.fst).zipIdx 1).foldl (fun rows step => step.1.rows rows (ρ step.2)) (ρ 0)

/-- The pieces of a chain: units with words between them. -/
def chainPieces (first : String) (rest : List (SetOperator × String)) : List String :=
  first :: rest.flatMap fun step => [Worded.keyword step.1, step.2]

/-- The operator that a word stands for. -/
def SetOperator.ofKeyword? (word : String) : Option SetOperator :=
  (Named.all : List SetOperator).find? fun op => Worded.keyword op == word

/-- Reads words and units behind a first unit. Units are numbered. -/
def readOperators (position : Nat) : List String → Option (List (SetOperator × Nat))
  | [] => some []
  | [_] => none
  | word :: _ :: rest => do
    let op ← SetOperator.ofKeyword? word
    return (op, position) :: (← readOperators (position + 1) rest)

/-- Reads a chain by the precedence of its operators. -/
def readChain : List String → Option (SetTree Nat)
  | [] => none
  | _ :: rest => do
    return readGroups none (.branch 0) (← readOperators 1 rest)

theorem SetOperator.ofKeyword?_keyword (op : SetOperator) :
    ofKeyword? (Worded.keyword op) = some op := by
  cases op <;> decide +kernel

theorem readOperators_pieces (rest : List (SetOperator × String)) (position : Nat) :
    readOperators position (rest.flatMap fun step => [Worded.keyword step.1, step.2]) =
      some ((rest.map Prod.fst).zipIdx position) := by
  induction rest generalizing position with
  | nil => rfl
  | cons step rest ih =>
    rw [List.flatMap_cons, List.cons_append, List.cons_append, List.nil_append, readOperators,
      SetOperator.ofKeyword?_keyword, ih]
    rfl

theorem readChain_chainPieces (first : String) (rest : List (SetOperator × String)) :
    readChain (chainPieces first rest) =
      some (readGroups none (.branch 0) ((rest.map Prod.fst).zipIdx 1)) := by
  show (readOperators 1 _ >>= _) = _
  rw [readOperators_pieces]
  rfl

/-- **A chain is read as the plan says exactly if its intersections come first.** -/
theorem SetOperation.rows_readGroups_iff (q : SetOperation) :
    (∀ (Row : Type) [DecidableEq Row] (ρ : Nat → Multiset Row),
      (readGroups none (.branch 0) ((q.rest.map Prod.fst).zipIdx 1)).rows ρ = q.rows ρ) ↔
      intersectsFirst (q.rest.map Prod.fst) = true := by
  have hd : (0 :: ((q.rest.map Prod.fst).zipIdx 1).map Prod.snd).Nodup := by
    rw [List.zipIdx_map_snd]
    exact List.nodup_range' (s := 0) (n := (q.rest.map Prod.fst).length + 1)
  have hiff := readGroups_rows_iff hd
  rw [List.zipIdx_map_fst] at hiff
  exact hiff

/-! ## 2. Texts -/

namespace Lexicon

/-- The set operator that a word stands for. `ALL` belongs to the word in front of it. -/
def operatorAt? (chars : List Char) (rest : List Token) : Option SetOperator :=
  SetOperator.ofKeyword?
    (String.ofList chars ++ if rest.head? = some (.word "ALL".toList) then " ALL" else "")

/-- The set operators outside of parentheses, if these are closed. -/
def outerOperators : Nat → List Token → Option (List SetOperator)
  | depth, [] => if depth = 0 then some [] else none
  | depth, .symbol '(' :: rest => outerOperators (depth + 1) rest
  | depth, .symbol ')' :: rest => if depth = 0 then none else outerOperators (depth - 1) rest
  | depth, .word chars :: rest =>
    (outerOperators depth rest).map
      ((if depth = 0 then (operatorAt? chars rest).toList else []) ++ ·)
  | depth, _ :: rest => outerOperators depth rest

variable {L : Lexicon}

/-- Reads a text by the precedence of the set operators in it. -/
def readSetText (L : Lexicon) (cs : List Char) : Option (SetTree Nat) :=
  ((L.scan cs).bind (outerOperators 0)).map fun ops => readGroups none (.branch 0) (ops.zipIdx 1)

theorem operatorAt?_append (chars : List Char) (rest : List Token) {us : List Token}
    (hus : us.head? ≠ some (.word "ALL".toList)) :
    operatorAt? chars (rest ++ us) = operatorAt? chars rest := by
  cases rest with
  | nil => rw [operatorAt?, operatorAt?, List.nil_append, if_neg hus, if_neg (by simp)]
  | cons t rest => rfl

theorem outerOperators_append {ts us : List Token} {ops : List SetOperator}
    (h : outerOperators depth ts = some ops) (hus : us.head? ≠ some (.word "ALL".toList)) :
    outerOperators depth (ts ++ us) = (outerOperators 0 us).map (ops ++ ·) := by
  fun_induction outerOperators depth ts generalizing ops with
  | case1 =>
    cases h
    exact Option.map_id_apply.symm
  | case2 => cases h
  | case3 depth rest ih => exact ih h
  | case4 => cases h
  | case5 depth rest hdepth ih =>
    rw [List.cons_append, outerOperators, if_neg hdepth]
    exact ih h
  | case6 depth chars rest ih =>
    obtain ⟨others, hrest, rfl⟩ := Option.map_eq_some_iff.1 h
    rw [List.cons_append, outerOperators, operatorAt?_append chars rest hus, ih hrest,
      Option.map_map]
    exact congrArg (Option.map · _) (funext fun _ => (List.append_assoc _ _ _).symm)
  | case7 depth t rest _ _ _ ih =>
    rw [List.cons_append, outerOperators]
    · exact ih h
    all_goals assumption

/-- A text of whole tokens with these operators outside of parentheses. -/
def Offers (L : Lexicon) (text : String) (ops : List SetOperator) : Prop :=
  ∃ ts, L.Lexes text.toList ts ∧ ts.head? ≠ some (.word "ALL".toList) ∧
    outerOperators 0 ts = some ops

/-- Texts side by side offer what each of them offers. -/
theorem offers_intercalate {pieces : List (String × List SetOperator)}
    (h : ∀ piece ∈ pieces, L.Offers piece.1 piece.2) :
    L.Offers (" ".intercalate (pieces.map Prod.fst)) (pieces.flatMap Prod.snd) := by
  induction pieces with
  | nil => exact ⟨[], .nil, by simp, rfl⟩
  | cons piece rest ih =>
    obtain ⟨us, hlexes, hhead, hops⟩ := ih fun other ho => h other (List.mem_cons_of_mem _ ho)
    obtain ⟨ts, hpiece, hfirst, hown⟩ := h piece List.mem_cons_self
    refine ⟨ts ++ us, ?_, ?_, ?_⟩
    · cases rest with
      | nil =>
        rw [hlexes.eq_nil, List.append_nil]
        rwa [List.map_singleton, String.intercalate_singleton]
      | cons next rest =>
        rw [List.map_cons, List.map_cons, String.intercalate_cons_cons, String.toList_append,
          String.toList_append, List.append_assoc]
        have hblank : L.cut? " ".toList = some ([], .between) := rfl
        exact hpiece.append (.behindAll hblank (fun _ => rfl) hlexes) fun c hc => by
          rw [← Option.mem_some.1 hc]
          decide
    · cases ts with
      | nil => exact hhead
      | cons t ts => exact hfirst
    · rw [outerOperators_append hown hhead, hops]
      rfl

theorem offers_keyword (kind : DialectKind) (op : SetOperator) :
    kind.lexicon.Offers (Worded.keyword op) [op] := by
  have h : ((kind.lexicon.lexes? (Worded.keyword op).toList).any fun ts =>
      decide (ts.head? ≠ some (.word "ALL".toList) ∧ outerOperators 0 ts = some [op])) = true := by
    cases kind <;> cases op <;> decide +kernel
  obtain ⟨ts, hts, hall⟩ := (Option.any_eq_true _ _).1 h
  exact ⟨ts, .ofEq hts, of_decide_eq_true hall⟩

/-- A printed chain is read as its pieces are, if these offer no operators of their own. -/
theorem readSetText_chain (kind : DialectKind) {front tail : List String} {first : String}
    {rest : List (SetOperator × String)}
    (h : ∀ piece ∈ front ++ first :: rest.map Prod.snd ++ tail, kind.lexicon.Offers piece []) :
    kind.lexicon.readSetText (" ".intercalate (front ++ chainPieces first rest ++ tail)).toList =
      readChain (chainPieces first rest) := by
  let pieces : List (String × List SetOperator) :=
    front.map (·, []) ++ (first, []) ::
      (rest.flatMap fun step => [(Worded.keyword step.1, [step.1]), (step.2, [])]) ++
        tail.map (·, [])
  have hpieces : ∀ piece ∈ pieces, kind.lexicon.Offers piece.1 piece.2 := by
    intro piece hpiece
    simp only [pieces, List.mem_append, List.mem_map, List.mem_cons, List.mem_flatMap,
      List.not_mem_nil, or_false] at hpiece h
    rcases hpiece with (⟨t, ht, rfl⟩ | rfl | ⟨step, hstep, rfl | rfl⟩) | ⟨t, ht, rfl⟩
    · exact h t (.inl (.inl ht))
    · exact h first (.inl (.inr (.inl rfl)))
    · exact offers_keyword kind step.1
    · exact h step.2 (.inl (.inr (.inr ⟨step, hstep, rfl⟩)))
    · exact h t (.inr ht)
  have htexts : pieces.map Prod.fst = front ++ chainPieces first rest ++ tail := by
    simp [pieces, chainPieces, List.map_flatMap, Function.comp_def]
  have hall : pieces.flatMap Prod.snd = rest.map Prod.fst := by
    have hnone : ∀ texts : List String, texts.flatMap (fun _ => ([] : List SetOperator)) = [] :=
      fun _ => List.flatMap_eq_nil_iff.2 fun _ _ => rfl
    simp [pieces, List.flatMap_assoc, List.map_eq_flatMap, hnone]
  obtain ⟨ts, hlexes, -, hops⟩ := offers_intercalate hpieces
  rw [htexts] at hlexes
  rw [readSetText, hlexes.scan_eq, Option.bind_some, hops, hall, readChain_chainPieces]
  rfl

end Lexicon

/-! ## 3. Words -/

/-- Whether a key is written as its standard word. -/
def Registry.WritesWord {κ : Type} [Worded κ] (r : Registry κ) (key : κ) : Prop :=
  r.template key [] = .parse "{keyword}" ∧ r.keyword key = Worded.keyword key

theorem segments_keyword : (Template.parse "{keyword}").segments = [.slot "keyword" none] := by
  decide +kernel

theorem Registry.WritesWord.get {κ : Type} [Worded κ] {r : Registry κ} {key : κ} {strict : Bool}
    (hw : r.WritesWord key) (h : r.get key [] strict = .ok text) : text = Worded.keyword key := by
  unfold Registry.get Registry.lookup at h
  split at h
  · cases h
  · cases h
    rw [Lookup.render, hw.1, hw.2, Template.renderWith, segments_keyword]
    simp [Template.slotText, Fields.get?]

theorem Registry.WritesWord.write {κ : Type} [Worded κ] {family : Formats → Registry κ} {key : κ}
    (hw : (family s.dialect.formats).WritesWord key)
    (h : Compile.write family key [] s c = .ok (text, c')) : text = Worded.keyword key := by
  unfold Compile.write at h
  rw [bind_run dialect_run, bind_run read_run] at h
  cases hget : (family s.dialect.formats).get key [] s.strict with
  | error e =>
    rw [hget] at h
    cases h
  | ok t =>
    rw [hget] at h
    cases h
    exact hw.get hget

theorem writesWord_setOps (kind : DialectKind) (op : SetOperator) :
    kind.dialect.formats.setOps.WritesWord op := by
  cases kind <;> exact ⟨rfl, rfl⟩

theorem writesWord_keywords (kind : DialectKind) {key : Keyword}
    (h : key = .select ∨ key = .sources) : kind.dialect.formats.keywords.WritesWord key := by
  rcases h with rfl | rfl <;> cases kind <;> exact ⟨rfl, rfl⟩

/-! ## 4. Units -/

/-- The renderer of the parts of a statement. -/
def Renderer.ofDepth (depth : Nat) : Renderer :=
  ⟨Expr.renderAt depth, Statement.renderAt depth⟩

/-- A select that declares, orders and pages nothing of its own. -/
def Statement.IsPlainSelect : Statement → Prop
  | .select q => q.ctes = [] ∧ q.orderBy = [] ∧ q.limit = none ∧ q.offset = none
  | _ => False

theorem isInlineBranch_iff {s : Statement} : isInlineBranch s = true ↔ s.IsPlainSelect := by
  cases s <;> simp [isInlineBranch, Statement.IsPlainSelect, and_assoc]

/-- A text that stands for a branch in a chain: the branch itself if it is a plain select, else a
    derived table of it with a number. -/
def IsUnit (s : Setting) (branch : Statement) (unit : String) : Prop :=
  ∃ own depth c c', branch.renderAt depth s c = .ok (own, c') ∧
    (branch.IsPlainSelect ∧ unit = own ∨
      ¬branch.IsPlainSelect ∧
        ∃ n : Nat, unit = "SELECT * FROM (" ++ own ++ ") AS " ++ s.dialect.quoteIdent s!"_s{n}")

/-- A word and a unit that stand for a step of a chain. -/
def IsStep (s : Setting) (step : SetOperator × Statement) (printed : SetOperator × String) : Prop :=
  printed.1 = step.1 ∧ IsUnit s step.2 printed.2

theorem exists_map_of_forall₂ {α β γ : Type} {R : α → β → Prop} {g : β → γ} {xs : List α}
    {zs : List γ} (h : List.Forall₂ (fun x z => ∃ y, z = g y ∧ R x y) xs zs) :
    ∃ ys, zs = ys.map g ∧ List.Forall₂ R xs ys := by
  induction h with
  | nil => exact ⟨[], rfl, .nil⟩
  | cons hhead _ ih =>
    obtain ⟨y, rfl, hy⟩ := hhead
    obtain ⟨ys, rfl, hys⟩ := ih
    exact ⟨y :: ys, rfl, .cons hy hys⟩

theorem map_fst_of_isStep {steps : List (SetOperator × Statement)}
    {printed : List (SetOperator × String)} (h : List.Forall₂ (IsStep s) steps printed) :
    printed.map Prod.fst = steps.map Prod.fst := by
  induction h with
  | nil => rfl
  | cons hstep _ ih => rw [List.map_cons, List.map_cons, hstep.1, ih]

section

variable {kind : DialectKind} {s : Setting} (hs : s.dialect = kind.dialect) {depth : Nat}
  {c c' : Context}
include hs

theorem isUnit_of_branch {branch : Statement} {unit : String}
    (h : (Renderer.ofDepth depth).branch branch s c = .ok (unit, c')) : IsUnit s branch unit := by
  unfold Renderer.branch at h
  obtain ⟨own, c₁, hown, h⟩ := bind_eq_ok.1 h
  cases hinline : isInlineBranch branch with
  | true =>
    rw [if_pos hinline] at h
    cases h
    exact ⟨unit, depth, c, c', hown, .inl ⟨isInlineBranch_iff.1 hinline, rfl⟩⟩
  | false =>
    rw [if_neg (by rw [hinline]; decide)] at h
    obtain ⟨label, c₂, hlabel, h⟩ := bind_eq_ok.1 h
    obtain ⟨select, c₃, hselect, h⟩ := bind_eq_ok.1 h
    obtain ⟨sources, c₄, hsources, h⟩ := bind_eq_ok.1 h
    obtain ⟨quoted, c₅, hquoted, h⟩ := bind_eq_ok.1 h
    cases hlabel
    cases hquoted
    cases h
    have hwrapped : ¬branch.IsPlainSelect := fun h => by
      rw [isInlineBranch_iff.2 h] at hinline
      cases hinline
    refine ⟨own, depth, c, c₁, hown, .inr ⟨hwrapped, c₁.branchTables, ?_⟩⟩
    have hselect : select = "SELECT" :=
      Registry.WritesWord.write (hs ▸ writesWord_keywords kind (.inl rfl)) hselect
    have hsources : sources = "FROM" :=
      Registry.WritesWord.write (hs ▸ writesWord_keywords kind (.inr rfl)) hsources
    have hhead : ("SELECT" ++ " * " ++ "FROM" ++ " (" : String) = "SELECT * FROM (" := by decide
    rw [hselect, hsources, ← hhead]
    rfl

/-- A step of a chain is printed as a word and a unit. -/
theorem exists_isStep {step : SetOperator × Statement} {pieces : List String}
    (h : (do return [← write Formats.setOps step.1 [], ← (Renderer.ofDepth depth).branch step.2] :
      Compile (List String)) s c = .ok (pieces, c')) :
    ∃ printed : SetOperator × String, pieces = [Worded.keyword printed.1, printed.2] ∧
      IsStep s step printed := by
  obtain ⟨word, c₁, hword, h⟩ := bind_eq_ok.1 h
  obtain ⟨unit, c₂, hunit, h⟩ := bind_eq_ok.1 h
  cases h
  have hword : word = Worded.keyword step.1 :=
    Registry.WritesWord.write (hs ▸ writesWord_setOps kind step.1) hword
  exact ⟨(step.1, unit), by rw [hword], rfl, isUnit_of_branch hs hunit⟩

end

/-! ## 5. Set operations -/

/-- Whether a set operation does not order or page its rows. -/
def SetOperation.isUnordered (q : SetOperation) : Bool :=
  q.orderBy.isEmpty && q.limit.isNone && q.offset.isNone

theorem setOperationTail_run (h : q.isUnordered = true) (r : Renderer) (s : Setting) (c : Context) :
    r.setOperationTail q none s c = .ok ([], c) := by
  rw [SetOperation.isUnordered, Bool.and_eq_true, Bool.and_eq_true, List.isEmpty_iff,
    Option.isNone_iff_eq_none, Option.isNone_iff_eq_none] at h
  unfold Renderer.setOperationTail placed
  rw [bind_run dialect_run, h.1.1, h.1.2, h.2]
  cases s.dialect.selectOrder.contains Clause.orderBy <;>
    cases s.dialect.selectOrder.contains Clause.paging <;>
    cases s.dialect.selectOrder.contains Clause.forJson <;> rfl

/-- **The pieces of a printed set operation.** -/
theorem setOperation_pieces {kind : DialectKind} (hs : s.dialect = kind.dialect)
    (h : (Renderer.ofDepth depth).setOperation q s c = .ok (text, c')) :
    ∃ front first rest tail,
      text = " ".intercalate (front ++ chainPieces first rest ++ tail) ∧
      IsUnit s q.first first ∧ List.Forall₂ (IsStep s) q.rest rest ∧
      (q.ctes = [] → front = []) ∧
      (c.forJson = none → q.isUnordered = true → tail = []) := by
  unfold Renderer.setOperation at h
  obtain ⟨json, c₁, hjson, h⟩ := bind_eq_ok.1 h
  obtain ⟨ctes, c₂, hctes, h⟩ := bind_eq_ok.1 h
  obtain ⟨-, c₃, -, h⟩ := bind_eq_ok.1 h
  obtain ⟨first, c₄, hfirst, h⟩ := bind_eq_ok.1 h
  obtain ⟨steps, c₅, hsteps, h⟩ := bind_eq_ok.1 h
  obtain ⟨scope, c₆, -, h⟩ := bind_eq_ok.1 h
  obtain ⟨tail, c₇, htail, h⟩ := bind_eq_ok.1 h
  cases h
  obtain ⟨rest, rfl, hrest⟩ := exists_map_of_forall₂ ((forall₂_of_mapM hsteps).imp
    fun step pieces ⟨_, _, hstep⟩ => exists_isStep hs hstep)
  refine ⟨ctes.toList, first, rest, tail, ?_, isUnit_of_branch hs hfirst, hrest, ?_, ?_⟩
  · rw [chainPieces, List.flatMap_def]
  · intro hnone
    rw [hnone] at hctes
    cases hctes
    rfl
  · intro hnone hunordered
    obtain rfl : json = none := by
      cases hjson
      exact hnone
    rw [inScope] at htail
    obtain ⟨-, c₈, -, htail⟩ := bind_eq_ok.1 htail
    rw [bind_run (setOperationTail_run hunordered _ s c₈)] at htail
    cases htail
    rfl

theorem of_inFrame {α : Type} {part : Compile α} {a : α} (h : inFrame part s c = .ok (a, c')) :
    ∃ c₁ c₂, part s c₁ = .ok (a, c₂) ∧ c₁.forJson = c.forJson := by
  unfold inFrame at h
  obtain ⟨_, c₁, hframe, h⟩ := bind_eq_ok.1 h
  obtain ⟨own, c₂, hown, h⟩ := bind_eq_ok.1 h
  obtain ⟨-, c₃, -, h⟩ := bind_eq_ok.1 h
  cases h
  cases hframe
  exact ⟨_, c₂, hown, rfl⟩

theorem setOperation_of_renderAt (h : (Statement.setOp q).renderAt depth s c = .ok (text, c')) :
    ∃ depth c₁ c₂, (Renderer.ofDepth depth).setOperation q s c₁ = .ok (text, c₂) ∧
      c₁.forJson = c.forJson := by
  cases depth with
  | zero => cases h
  | succ depth => exact ⟨depth, of_inFrame h⟩

/-- **What is read for a printed set operation.** Every set operation that compiles is printed as a
    chain that can be read, and the same is read from its text if its pieces are made of whole
    tokens and offer no operators of their own outside of parentheses. It is read as the plan says
    exactly if the intersections of the plan come before its other operators: in every other set
    operation there are rows of the branches for which text and plan differ. -/
theorem printed_rows_iff (q : SetOperation) (o : Options) (out : Compiled)
    (h : compile (.setOp q) o = .ok out) :
    ∃ front first rest tail tree,
      let s := Setting.ofOptions o.target.dialect o
      let text := " ".intercalate (front ++ chainPieces first rest ++ tail)
      out.sql = (if o.format then layOut text else text) ∧
      IsUnit s q.first first ∧ List.Forall₂ (IsStep s) q.rest rest ∧
      (q.ctes = [] → front = []) ∧ (q.isUnordered = true → tail = []) ∧
      readChain (chainPieces first rest) = some tree ∧
      ((∀ piece ∈ front ++ first :: rest.map Prod.snd ++ tail, o.target.lexicon.Offers piece []) →
        o.target.lexicon.readSetText text.toList = some tree) ∧
      ((∀ (Row : Type) [DecidableEq Row] (ρ : Nat → Multiset Row), tree.rows ρ = q.rows ρ) ↔
        intersectsFirst (q.rest.map Prod.fst) = true) := by
  unfold compile compileWith at h
  cases hrun : (Statement.setOp q).runRender o.target.dialect o with
  | error e =>
    rw [hrun] at h
    cases h
  | ok p =>
    rw [hrun] at h
    cases h
    obtain ⟨depth, c₁, c₂, hown, hjson⟩ := setOperation_of_renderAt hrun
    obtain ⟨front, first, rest, tail, htext, hfirst, hrest, hfront, htail⟩ :=
      setOperation_pieces (show _ = o.target.dialect from rfl) hown
    refine ⟨front, first, rest, tail, _, ?_, hfirst, hrest, hfront, htail hjson,
      readChain_chainPieces first rest, ?_, ?_⟩
    · rw [← htext]
    · intro hpieces
      rw [Lexicon.readSetText_chain o.target hpieces, readChain_chainPieces]
    · rw [map_fst_of_isStep hrest]
      exact q.rows_readGroups_iff

/-- The column `x` of three tables, combined by two operators. -/
def SetOperation.ofThree (op op' : SetOperator) : SetOperation :=
  let column (name : String) : Statement :=
    .select ((Select.empty.readFrom (.table (.ofName name))).project "x" (.column "x"))
  (SetOperation.ofFirst (column "a")).combine op (column "b") |>.combine op' (column "c")

/-- A union behind an intersection keeps its meaning, and an intersection behind a union does
    not. -/
theorem printed_rows_iff_here :
    (∃ out first rest tree, compile (.setOp (.ofThree .intersect .union)) {} = .ok out ∧
      out.sql = "SELECT x FROM a INTERSECT SELECT x FROM b UNION SELECT x FROM c" ∧
      out.sql = " ".intercalate (chainPieces first rest) ∧
      readChain (chainPieces first rest) = some tree ∧
      DialectKind.generic.lexicon.readSetText out.sql.toList = some tree ∧
      ∀ (Row : Type) [DecidableEq Row] (ρ : Nat → Multiset Row),
        tree.rows ρ = ((ρ 0 ∩ ρ 1).dedup + ρ 2).dedup) ∧
    (∃ out first rest tree, compile (.setOp (.ofThree .union .intersect)) {} = .ok out ∧
      out.sql = "SELECT x FROM a UNION SELECT x FROM b INTERSECT SELECT x FROM c" ∧
      out.sql = " ".intercalate (chainPieces first rest) ∧
      readChain (chainPieces first rest) = some tree ∧
      DialectKind.generic.lexicon.readSetText out.sql.toList = some tree ∧
      ¬ ∀ (Row : Type) [DecidableEq Row] (ρ : Nat → Multiset Row),
        tree.rows ρ = ((ρ 0 + ρ 1).dedup ∩ ρ 2).dedup) := by
  constructor
  · obtain ⟨out, hout, hsql⟩ := Compiled.exists_of_sql
      (show (compile (.setOp (.ofThree .intersect .union)) {}).map Compiled.sql =
        .ok "SELECT x FROM a INTERSECT SELECT x FROM b UNION SELECT x FROM c" by decide +kernel)
    obtain ⟨front, first, rest, tail, tree, htext, -, hrest, hfront, htail, htree, -, hiff⟩ :=
      printed_rows_iff _ _ out hout
    rw [hfront rfl, htail rfl, List.nil_append, List.append_nil] at htext
    refine ⟨out, first, rest, tree, hout, hsql, htext, htree, ?_, hiff.2 (by decide)⟩
    rw [← htree, readChain_chainPieces, map_fst_of_isStep hrest, hsql]
    decide +kernel
  · obtain ⟨out, hout, hsql⟩ := Compiled.exists_of_sql
      (show (compile (.setOp (.ofThree .union .intersect)) {}).map Compiled.sql =
        .ok "SELECT x FROM a UNION SELECT x FROM b INTERSECT SELECT x FROM c" by decide +kernel)
    obtain ⟨front, first, rest, tail, tree, htext, -, hrest, hfront, htail, htree, -, hiff⟩ :=
      printed_rows_iff _ _ out hout
    rw [hfront rfl, htail rfl, List.nil_append, List.append_nil] at htext
    refine ⟨out, first, rest, tree, hout, hsql, htext, htree, ?_,
      fun h => absurd (hiff.1 h) (by decide)⟩
    rw [← htree, readChain_chainPieces, map_fst_of_isStep hrest, hsql]
    decide +kernel

end QueryPlan
