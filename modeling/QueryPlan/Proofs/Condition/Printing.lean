import QueryPlan.Dialect.BuiltIn
import QueryPlan.Proofs.Compile.Operators
import QueryPlan.Proofs.Condition.Basic
import QueryPlan.Proofs.Lexical.Words
import QueryPlan.Proofs.Plan.Sizes

/-!
# Printing conditions

What the built-in dialects print for a condition (`Formula.printed`, `render_condition`). They
differ in how they write comparisons (`BinaryPredicate.writing`): some have words of their own,
MySQL and SQLite ignore case by comparing lower case, and MySQL writes `IS DISTINCT FROM` as a
negation. SQL Server has no truth values, and writes comparisons of numbers for them. It has no
regular expressions either, and reports them in strict mode; nothing else is reported.
-/

namespace QueryPlan

open Compile

/-! ## 1. Comparisons -/

/-- The parts of the templates of tests. -/
structure TestSegments : Prop where
  lowered : (Template.parse "LOWER({left:0}) LIKE LOWER({right:0})").segments =
    [.text "LOWER(", .slot "left" (some 0), .text ") LIKE LOWER(", .slot "right" (some 0),
      .text ")"]
  loweredNot : (Template.parse "LOWER({left:0}) NOT LIKE LOWER({right:0})").segments =
    [.text "LOWER(", .slot "left" (some 0), .text ") NOT LIKE LOWER(", .slot "right" (some 0),
      .text ")"]
  distinct : (Template.parse "NOT ({left:0} <=> {right:0})").segments =
    [.text "NOT (", .slot "left" (some 0), .text " <=> ", .slot "right" (some 0), .text ")"]
  unary : (Template.parse "{operand} {keyword}").segments =
    [.slot "operand" none, .text " ", .slot "keyword" none]
  between : (Template.parse "{value} {keyword} {low} AND {high}").segments =
    [.slot "value" none, .text " ", .slot "keyword" none, .text " ", .slot "low" none,
      .text " AND ", .slot "high" none]
  member : (Template.parse "{value} {keyword} ({list})").segments =
    [.slot "value" none, .text " ", .slot "keyword" none, .text " (", .slot "list" none,
      .text ")"]
  not : (Template.parse "{keyword} {operand}").segments =
    [.slot "keyword" none, .text " ", .slot "operand" none]

theorem testSegments : TestSegments := by
  constructor <;> decide +kernel

/-- How a comparison is written. -/
inductive Writing where
  /-- With some words between the operands. -/
  | plain (words : String)
  /-- As `LIKE` between the operands in lower case, or as `NOT LIKE`. -/
  | lowered (negated : Bool)
  /-- As a negated comparison that takes nulls as values. -/
  | distinct

/-- How a dialect writes a comparison. -/
def BinaryPredicate.writing : DialectKind → BinaryPredicate → Writing
  | .mySql, .iLike => .lowered false
  | .mySql, .notILike => .lowered true
  | .mySql, .regex => .plain "REGEXP"
  | .mySql, .isDistinctFrom => .distinct
  | .mySql, .isNotDistinctFrom => .plain "<=>"
  | .sqLite, .iLike => .lowered false
  | .sqLite, .notILike => .lowered true
  | .sqLite, .regex => .plain "REGEXP"
  | .sqLite, .isDistinctFrom => .plain "IS NOT"
  | .sqLite, .isNotDistinctFrom => .plain "IS"
  | .msSql, .iLike => .plain "LIKE"
  | .msSql, .notILike => .plain "NOT LIKE"
  | _, op => .plain (Worded.keyword op)

namespace Writing

def template : Writing → String
  | plain _ => "{left} {keyword} {right}"
  | lowered false => "LOWER({left:0}) LIKE LOWER({right:0})"
  | lowered true => "LOWER({left:0}) NOT LIKE LOWER({right:0})"
  | distinct => "NOT ({left:0} <=> {right:0})"

def strength? : Writing → Option Strength
  | distinct => some notStrength
  | _ => none

def keyword (w : Writing) (op : BinaryPredicate) : String :=
  match w with
  | plain words => words
  | _ => Worded.keyword op

/-- The text of a comparison. -/
def text (w : Writing) (left right : String) : String :=
  match w with
  | plain words => left ++ " " ++ words ++ " " ++ right
  | lowered false => "LOWER(" ++ left ++ ") LIKE LOWER(" ++ right ++ ")"
  | lowered true => "LOWER(" ++ left ++ ") NOT LIKE LOWER(" ++ right ++ ")"
  | distinct => "NOT (" ++ left ++ " <=> " ++ right ++ ")"

/-- Only the negation gets another strength than comparisons have. -/
def fragment (w : Writing) (strength : Strength) (left right : String) : Fragment :=
  ⟨w.text left right, w.strength?.getD strength⟩

end Writing

/-- Whether a dialect lacks a test. -/
def ColumnTest.isLacking (kind : DialectKind) : ColumnTest → Bool
  | compare op _ _ => kind = .msSql && op = .regex
  | _ => false

section

variable {kind : DialectKind} {s : Setting} (hs : s.dialect = kind.dialect) {c : Context}

/-- The text that a template gives for two operands. -/
theorem render_writing (w : Writing) (left right word : String)
    (hword : ∀ words, w = .plain words → word = words) :
    (Template.parse w.template).render [("left", left), ("right", right), ("keyword", word)] =
      w.text left right := by
  unfold Template.render Template.renderWith
  cases w with
  | plain words =>
    rw [hword words rfl]
    simp [Writing.template, segments_operator, Writing.text, Template.slotText, Fields.get?_cons,
      String.append_assoc]
  | lowered negated =>
    cases negated with
    | false =>
      simp [Writing.template, testSegments.lowered, Writing.text, Template.slotText,
        Fields.get?_cons, String.append_assoc]
    | true =>
      simp [Writing.template, testSegments.loweredNot, Writing.text, Template.slotText,
        Fields.get?_cons, String.append_assoc]
  | distinct =>
    simp [Writing.template, testSegments.distinct, Writing.text, Template.slotText,
      Fields.get?_cons, String.append_assoc]

include hs

theorem lookup_compare (op : BinaryPredicate)
    (hop : s.strict = true → kind = .msSql → op ≠ .regex) :
    lookup Formats.binaryPredicates op [] s c =
      .ok (⟨.parse (op.writing kind).template, (op.writing kind).keyword op,
        (op.writing kind).strength?⟩, c) := by
  unfold lookup
  rw [bind_run dialect_run, bind_run read_run, hs]
  by_cases hlacks : kind = .msSql ∧ op = .regex
  · obtain ⟨rfl, rfl⟩ := hlacks
    have hlenient : s.strict = false := eq_false_of_ne_true fun h => hop h rfl rfl
    rw [hlenient]
    rfl
  · cases kind <;> cases op <;> first | rfl | exact absurd ⟨rfl, rfl⟩ hlacks

end

/-- A slot of a comparison asks for no strength of its own, or for none at all. -/
theorem slotStrength_writing (w : Writing) (slot : String) :
    (Template.parse w.template).slotStrength? slot = none ∨
      (Template.parse w.template).slotStrength? slot = some 0 := by
  unfold Template.slotStrength?
  by_cases hleft : "left" = slot
  · cases w with
    | plain words => simp [Writing.template, segments_operator]
    | lowered negated =>
      cases negated <;>
        simp [Writing.template, testSegments.lowered, testSegments.loweredNot, hleft]
    | distinct => simp [Writing.template, testSegments.distinct, hleft]
  · cases w with
    | plain words => simp [Writing.template, segments_operator]
    | lowered negated =>
      by_cases hright : "right" = slot <;> cases negated <;>
        simp [Writing.template, testSegments.lowered, testSegments.loweredNot, hleft, hright]
    | distinct =>
      by_cases hright : "right" = slot <;>
        simp [Writing.template, testSegments.distinct, hleft, hright]

theorem asOperand_atom {text : String} (htext : (Fragment.atom text).startsWithMinus = false)
    (isLeft : Bool) {parent : Strength} (hparent : parent < atomStrength)
    (associativity : Associativity) :
    (Fragment.atom text).asOperand isLeft parent associativity = .atom text := by
  have hneeds : needsParens (.atom text) isLeft parent associativity = false := by
    have hnot : ¬atomStrength < parent := Int32.lt_asymm hparent
    simp [needsParens, Fragment.atom, hnot, hparent]
  simp [Fragment.asOperand, htext, hneeds]

/-- An operand of a comparison never needs parentheses. -/
theorem operandText_writing (w : Writing) (slot : String) {text : String}
    (htext : (Fragment.atom text).startsWithMinus = false) (isLeft : Bool) {strength : Strength}
    (hstrength : strength < atomStrength) (associativity : Associativity) :
    (Template.parse w.template).operandText slot (.atom text) isLeft strength associativity =
      text := by
  have hslot : ((Template.parse w.template).slotStrength? slot).getD strength < atomStrength := by
    rcases slotStrength_writing w slot with h | h
    · rw [h]
      exact hstrength
    · rw [h, Option.getD_some]
      decide
  rw [Template.operandText, asOperand_atom htext isLeft hslot]
  rfl

/-! ## 2. Tests -/

def nullWords (negated : Bool) : String :=
  if negated then "IS NOT NULL" else "IS NULL"

def betweenWords (negated : Bool) : String :=
  if negated then "NOT BETWEEN" else "BETWEEN"

def memberWords (negated : Bool) : String :=
  if negated then "NOT IN" else "IN"

/-- What is printed for a test. -/
def ColumnTest.printed (kind : DialectKind) (ref : ColumnRef → String) : ColumnTest → Fragment
  | compare op left right => (op.writing kind).fragment op.strength (ref left) (ref right)
  | isNull column negated =>
    ⟨ref column ++ " " ++ nullWords negated, UnaryPredicate.isNull.strength⟩
  | between value low high negated =>
    ⟨ref value ++ " " ++ betweenWords negated ++ " " ++ ref low ++ " AND " ++ ref high,
      rangeStrength⟩
  | member value first rest negated =>
    ⟨ref value ++ " " ++ memberWords negated ++ " (" ++
      ", ".intercalate ((first :: rest).map ref) ++ ")", rangeStrength⟩

section

variable {kind : DialectKind} {s : Setting} (hs : s.dialect = kind.dialect) {c : Context}
include hs

omit hs in
theorem get?_nil (name : String) : Fields.get? ([] : Params) name = none :=
  rfl

/-- A keyword that all built-in dialects write in the same way. -/
theorem keyword_run {key : Keyword} {params : Params} {template word : String}
    (h : ∀ kind : DialectKind, kind.dialect.formats.keywords.lookup key params s.strict =
      .ok ⟨.parse template, word, none⟩) :
    keyword key params s c = .ok ((Template.parse template).renderWith params word, c) := by
  unfold keyword write
  rw [bind_run dialect_run, bind_run read_run, hs, Registry.get, h kind]
  rfl

theorem keyword_between (negated : Bool) (value low high : String) :
    keyword (if negated then .notBetween else .between)
        [("value", value), ("low", low), ("high", high)] s c =
      .ok (value ++ " " ++ betweenWords negated ++ " " ++ low ++ " AND " ++ high, c) := by
  have hlookup : ∀ kind : DialectKind, kind.dialect.formats.keywords.lookup
      (if negated then .notBetween else .between)
      [("value", value), ("low", low), ("high", high)] s.strict =
      .ok ⟨.parse "{value} {keyword} {low} AND {high}", betweenWords negated, none⟩ := by
    intro kind
    cases kind <;> cases negated <;> rfl
  rw [keyword_run hs hlookup, Template.renderWith, testSegments.between]
  simp [Template.slotText, Fields.get?_cons, get?_nil, String.append_assoc]

theorem keyword_member (negated : Bool) (value list : String) :
    keyword (if negated then .notMember else .member) [("value", value), ("list", list)] s c =
      .ok (value ++ " " ++ memberWords negated ++ " (" ++ list ++ ")", c) := by
  have hlookup : ∀ kind : DialectKind, kind.dialect.formats.keywords.lookup
      (if negated then .notMember else .member) [("value", value), ("list", list)] s.strict =
      .ok ⟨.parse "{value} {keyword} ({list})", memberWords negated, none⟩ := by
    intro kind
    cases kind <;> cases negated <;> rfl
  rw [keyword_run hs hlookup, Template.renderWith, testSegments.member]
  simp [Template.slotText, Fields.get?_cons, get?_nil, String.append_assoc]

theorem keyword_not (operand : String) :
    keyword .not [("operand", operand)] s c = .ok ("NOT " ++ operand, c) := by
  have hlookup : ∀ kind : DialectKind, kind.dialect.formats.keywords.lookup .not
      [("operand", operand)] s.strict = .ok ⟨.parse "{keyword} {operand}", "NOT", none⟩ := by
    intro kind
    cases kind <;> rfl
  have hword : "NOT" ++ (" " ++ operand) = "NOT " ++ operand :=
    String.append_assoc.symm
  rw [keyword_run hs hlookup, Template.renderWith, testSegments.not]
  simp [Template.slotText, Fields.get?_cons, get?_nil, hword]

theorem lookup_isNull (negated : Bool) :
    lookup Formats.unaryPredicates (if negated then .isNotNull else .isNull) [] s c =
      .ok (⟨.parse "{operand} {keyword}", nullWords negated, none⟩, c) := by
  unfold lookup
  rw [bind_run dialect_run, bind_run read_run, hs]
  cases kind <;> cases negated <;> rfl

variable {r : Renderer} {ref : ColumnRef → String}
  (hr : ∀ column : ColumnRef, r.expr column.toExpr s c = .ok (.atom (ref column), c))
  (href : ∀ column, (Fragment.atom (ref column)).startsWithMinus = false)
include hr href

omit hs in
theorem operand_run (column : ColumnRef) (isLeft : Bool) {parent : Strength}
    (hparent : parent < atomStrength) (associativity : Associativity) :
    r.operand column.toExpr isLeft parent associativity s c = .ok (.atom (ref column), c) := by
  unfold Renderer.operand
  rw [bind_run (hr column)]
  exact congrArg (fun f => Except.ok (f, c)) (asOperand_atom (href column) isLeft hparent _)

/-- What is printed for a test that the dialect has. -/
theorem test_run (test : ColumnTest) (htest : s.strict = true → test.isLacking kind = false) :
    r.renderExpr test.toExpr s c = .ok (test.printed kind ref, c) := by
  cases test with
  | compare op left right =>
    have hop : s.strict = true → kind = .msSql → op ≠ .regex := by
      rintro hstrict rfl rfl
      cases htest hstrict
    have hstrength : op.strength < atomStrength := by
      cases op <;> decide
    change r.operator Formats.binaryPredicates op op.strength .left _ s c = _
    rw [operator_run₂ (lookup_compare hs op hop) op.strength .left (hr left) (hr right)]
    simp only [operandText_writing _ _ (href _) _ hstrength]
    rw [render_writing]
    · rfl
    · rintro words hwords
      rw [hwords]
      rfl
  | isNull column negated =>
    change r.operator Formats.unaryPredicates _ _ .both _ s c = _
    have htext : (Template.parse "{operand} {keyword}").operandText "operand" (.atom (ref column))
        false UnaryPredicate.isNull.strength .both = ref column := by
      rw [Template.operandText, Template.slotStrength?, testSegments.unary]
      exact congrArg Fragment.text (asOperand_atom (href column) false (by decide) .both)
    rw [operator_run₁ (lookup_isNull hs negated) _ .both (hr column), UnaryPredicate.strength,
      ← UnaryPredicate.strength.eq_def .isNull, htext, Template.render, Template.renderWith,
      testSegments.unary]
    simp [Template.slotText, Fields.get?_cons, String.append_assoc, ColumnTest.printed]
  | between value low high negated =>
    change r.between value.toExpr low.toExpr high.toExpr negated s c = _
    unfold Renderer.between
    have hoperand : ∀ column : ColumnRef,
        r.operand column.toExpr true rangeOperandStrength .both s c =
          .ok (.atom (ref column), c) :=
      fun column => operand_run hr href column true (by decide) .both
    rw [bind_run (hoperand value), bind_run (hoperand low), bind_run (hoperand high),
      bind_run (keyword_between hs negated _ _ _)]
    rfl
  | member value first rest negated =>
    have hlist : r.list ((first :: rest).map ColumnRef.toExpr) s c =
        .ok (", ".intercalate ((first :: rest).map ref), c) := by
      have htexts : (((first :: rest).map ColumnRef.toExpr).mapM r.text) s c =
          .ok ((first :: rest).map ref, c) := by
        rw [List.mapM_map]
        refine mapM_run fun column _ => ?_
        exact bind_run (hr column)
      unfold Renderer.list
      rw [bind_run htexts]
      rfl
    change (r.operand value.toExpr true rangeOperandStrength .both >>= _) s c = _
    rw [bind_run (operand_run hr href value true (by decide) .both)]
    change (r.list ((first :: rest).map ColumnRef.toExpr) >>= _) s c = _
    rw [bind_run hlist, bind_run (keyword_member hs negated _ _)]
    rfl

omit hr href in
/-- A test that the dialect lacks is an error in strict mode. -/
theorem lacking_run {test : ColumnTest} (hstrict : s.strict = true)
    (htest : test.isLacking kind = true) :
    r.renderExpr test.toExpr s c = .error (Error.unsupported "~") := by
  cases test with
  | compare op left right =>
    obtain ⟨hkind, hop⟩ := Bool.and_eq_true_iff.1 htest
    obtain rfl := of_decide_eq_true hkind
    obtain rfl := of_decide_eq_true hop
    have hlookup : lookup Formats.binaryPredicates BinaryPredicate.regex [] s c =
        .error (Error.unsupported "~") := by
      unfold lookup
      rw [bind_run dialect_run, bind_run read_run, hs, hstrict]
      rfl
    exact bind_error hlookup
  | isNull column negated | between value low high negated | member value first rest negated =>
    cases htest

end

/-! ## 3. Formulas -/

/-- What is printed for a negation. -/
def printedNot (operand : Fragment) : Fragment :=
  ⟨"NOT " ++ (operand.asOperand false notStrength .both).text, notStrength⟩

/-- What is printed for a condition without operands. -/
def printedEmpty : DialectKind → Conjunction → Fragment
  | .msSql, .and => ⟨"1 = 1", 6⟩
  | .msSql, .or => ⟨"1 = 0", 6⟩
  | _, .and => .atom "TRUE"
  | _, .or => .atom "FALSE"

/-- What is printed for a condition. -/
def printedConditions (kind : DialectKind) (op : Conjunction) : List Fragment → Fragment
  | [] => printedEmpty kind op
  | [single] => single
  | operands =>
    ⟨(" " ++ Worded.keyword op ++ " ").intercalate
      (operands.map fun f => (f.asOperand true op.strength .both).text), op.strength⟩

/-- What is printed for a formula. -/
def Formula.printed (kind : DialectKind) (ref : ColumnRef → String) :
    Formula ColumnTest → Fragment :=
  fold (ColumnTest.printed kind ref) printedNot (printedConditions kind)

theorem Formula.printed_conditions (kind : DialectKind) (ref : ColumnRef → String)
    (op : Conjunction) (operands : List (Formula ColumnTest)) :
    (conditions op operands).printed kind ref =
      printedConditions kind op (operands.map (printed kind ref)) :=
  fold_conditions _ _ _ op operands

section

variable {kind : DialectKind} {s : Setting} (hs : s.dialect = kind.dialect) {c : Context}
  {r : Renderer}
include hs

theorem empty_run (op : Conjunction) :
    Renderer.emptyConditions op s c = .ok (printedEmpty kind op, c) := by
  unfold Renderer.emptyConditions lookup
  cases op with
  | and | or =>
    rw [bind_assoc, bind_run dialect_run, bind_assoc, bind_run read_run, hs]
    cases kind <;> rfl

theorem not_run {e : Expr} {f : Fragment} (h : r.expr e s c = .ok (f, c)) :
    r.renderExpr (.not e) s c = .ok (printedNot f, c) := by
  have hoperand : r.operand e false notStrength .both s c =
      .ok (f.asOperand false notStrength .both, c) := bind_run h
  change (r.operand e false notStrength .both >>= _) s c = _
  rw [bind_run hoperand, bind_run (keyword_not hs _)]
  rfl

theorem conditions_run (op : Conjunction) {α : Type} {list : List α} {e : α → Expr}
    {f : α → Fragment} (h : ∀ x ∈ list, r.expr (e x) s c = .ok (f x, c)) :
    r.renderExpr (.conditions op (list.map e)) s c =
      .ok (printedConditions kind op (list.map f), c) := by
  change r.conditions op (list.map e) s c = _
  cases list with
  | nil => exact empty_run hs op
  | cons x rest =>
    cases rest with
    | nil => exact h x List.mem_cons_self
    | cons y rest =>
      have htexts : (((x :: y :: rest).map e).mapM fun e =>
          return (← r.operand e true op.strength .both).text : Compile (List String)) s c =
          .ok ((x :: y :: rest).map fun x => ((f x).asOperand true op.strength .both).text, c) := by
        rw [List.mapM_map]
        refine mapM_run fun x hx => ?_
        have hoperand : r.operand (e x) true op.strength .both s c =
            .ok ((f x).asOperand true op.strength .both, c) := bind_run (h x hx)
        exact bind_run hoperand
      have hmap : ((x :: y :: rest).map fun x => ((f x).asOperand true op.strength .both).text) =
          ((x :: y :: rest).map f).map fun f => (f.asOperand true op.strength .both).text := by
        rw [List.map_map]
        rfl
      refine (bind_run htexts).trans ?_
      exact congrArg (fun texts => Except.ok (Fragment.mk
        ((" " ++ Worded.keyword op ++ " ").intercalate texts) op.strength, c)) hmap

omit hs in
/-- The first operand that fails ends a condition. -/
theorem conditions_error (op : Conjunction) {α : Type} {list : List α} {e : α → Expr}
    {error : Error}
    (h : ∀ x ∈ list, (∃ f, r.expr (e x) s c = .ok (f, c)) ∨ r.expr (e x) s c = .error error)
    (hx : ∃ x ∈ list, r.expr (e x) s c = .error error) :
    r.renderExpr (.conditions op (list.map e)) s c = .error error := by
  change r.conditions op (list.map e) s c = _
  cases list with
  | nil =>
    obtain ⟨x, hx, -⟩ := hx
    cases hx
  | cons x rest =>
    cases rest with
    | nil =>
      obtain ⟨y, hy, hfail⟩ := hx
      rw [List.mem_singleton.1 hy] at hfail
      exact hfail
    | cons y rest =>
      have htexts : (((x :: y :: rest).map e).mapM fun e =>
          return (← r.operand e true op.strength .both).text : Compile (List String)) s c =
          .error error := by
        rw [List.mapM_map]
        refine mapM_error (fun x hx => (h x hx).imp ?_ fun hx => bind_error (bind_error hx)) ?_
        · rintro ⟨f, hf⟩
          have hoperand : r.operand (e x) true op.strength .both s c =
              .ok (f.asOperand true op.strength .both, c) := bind_run hf
          exact ⟨_, bind_run hoperand⟩
        · obtain ⟨x, hx, hfail⟩ := hx
          exact ⟨x, hx, bind_error (bind_error hfail)⟩
      exact bind_error htexts

end

/-- Whether a dialect lacks a test of a formula. -/
def Formula.isLacking (kind : DialectKind) (t : Formula ColumnTest) : Bool :=
  t.leaves.any (ColumnTest.isLacking kind)

theorem Formula.isLacking_conditions {kind : DialectKind} {op : Conjunction}
    {operands : List (Formula ColumnTest)} :
    (conditions op operands).isLacking kind = true ↔ ∃ f ∈ operands, f.isLacking kind = true := by
  simp only [isLacking, List.any_eq_true, mem_leaves_conditions]
  constructor
  · rintro ⟨test, ⟨f, hf, htest⟩, hlacks⟩
    exact ⟨f, hf, test, htest, hlacks⟩
  · rintro ⟨f, hf, test, htest, hlacks⟩
    exact ⟨test, ⟨f, hf, htest⟩, hlacks⟩

section

variable {kind : DialectKind} {s : Setting} (hs : s.dialect = kind.dialect) {c : Context}
  (hc : c.NamesByPaths s.dialect)
include hs hc

omit hs hc in
theorem column_run (column : ColumnRef) {depth : Nat} (hdepth : 0 < depth) :
    column.toExpr.renderAt depth s c = .ok (.atom (columnText s c column), c) := by
  cases depth with
  | zero => cases hdepth
  | succ depth => exact bind_run (field_run s c column)

theorem renderAt_condition (t : Formula ColumnTest) : ∀ depth, t.toExpr.size ≤ depth →
    t.toExpr.renderAt depth s c =
      if s.strict && t.isLacking kind then .error (Error.unsupported "~")
      else .ok (t.printed kind (columnText s c), c) := by
  have hminus : ∀ column, (Fragment.atom (columnText s c column)).startsWithMinus = false := by
    intro column
    exact (kind.startsPlain_path (hs ▸ isPath_columnText hc column)).startsWithMinus
  induction t with
  | leaf test =>
    intro depth hdepth
    have hsize : 1 < test.toExpr.size := by
      cases test <;> simp only [ColumnTest.toExpr, ColumnRef.toExpr, Expr.size] <;> omega
    cases depth with
    | zero => exact absurd (Nat.lt_of_lt_of_le hsize hdepth) (by decide)
    | succ depth =>
      have hcolumn := fun column : ColumnRef => column_run (s := s) (c := c) column
        (Nat.lt_of_succ_lt_succ (Nat.lt_of_lt_of_le hsize hdepth))
      have hlacks : (Formula.leaf test).isLacking kind = test.isLacking kind := Bool.or_false _
      rw [hlacks]
      split
      · next h =>
        obtain ⟨hstrict, htest⟩ := Bool.and_eq_true_iff.1 h
        exact lacking_run hs hstrict htest
      · next h =>
        refine test_run hs hcolumn hminus test fun hstrict => ?_
        simpa [hstrict] using h
  | not operand ih =>
    intro depth hdepth
    cases depth with
    | zero => cases hdepth
    | succ depth =>
      have hoperand := ih depth (Nat.le_of_succ_le_succ hdepth)
      have hlacks : operand.not.isLacking kind = operand.isLacking kind := rfl
      rw [hlacks]
      split
      · next h =>
        rw [if_pos h] at hoperand
        exact bind_error (bind_error hoperand)
      · next h =>
        rw [if_neg h] at hoperand
        exact not_run hs hoperand
  | conditions op operands ih =>
    intro depth hdepth
    rw [Formula.toExpr_conditions] at hdepth ⊢
    have hsize : ∀ f ∈ operands, f.toExpr.size < depth := by
      intro f hf
      have hmem :
          Phrase.expr f.toExpr ∈ (Expr.conditions op (operands.map Formula.toExpr)).phrases :=
        List.mem_map_of_mem (List.mem_map_of_mem hf)
      exact Nat.lt_of_lt_of_le (Expr.size_phrases hmem) hdepth
    cases depth with
    | zero => cases hdepth
    | succ depth =>
      have hoperand := fun f hf => ih f hf depth (Nat.le_of_lt_succ (hsize f hf))
      split
      · next h =>
        obtain ⟨hstrict, hlacks⟩ := Bool.and_eq_true_iff.1 h
        obtain ⟨f, hf, hlacks⟩ := Formula.isLacking_conditions.1 hlacks
        refine conditions_error op (fun g hg => ?_) ⟨f, hf, ?_⟩
        · have hrun := hoperand g hg
          split at hrun
          · exact .inr hrun
          · exact .inl ⟨_, hrun⟩
        · have hrun := hoperand f hf
          rwa [if_pos (by rw [hstrict, hlacks]; rfl)] at hrun
      · next h =>
        rw [Formula.printed_conditions]
        refine conditions_run hs op fun f hf => ?_
        have hrun := hoperand f hf
        rwa [if_neg fun hf' => h ?_] at hrun
        obtain ⟨hstrict, hlacks⟩ := Bool.and_eq_true_iff.1 hf'
        rw [hstrict, Formula.isLacking_conditions.2 ⟨f, hf, hlacks⟩]
        rfl

/-- **What the compiler prints for a condition**, unless the dialect lacks one of its tests and has
    to report it. -/
theorem render_condition (t : Formula ColumnTest) :
    t.toExpr.render s c =
      if s.strict && t.isLacking kind then .error (Error.unsupported "~")
      else .ok (t.printed kind (columnText s c), c) :=
  renderAt_condition hs hc t _ (Nat.le_of_lt t.toExpr.size_lt_depthBound)

end

end QueryPlan
