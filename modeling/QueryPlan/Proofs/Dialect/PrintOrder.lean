import QueryPlan.Dialect.BuiltIn
import QueryPlan.Proofs.Compile.Orderly

/-!
# The built-in dialects print in order

Whether formats print in order can be computed (`Formats.inOrder`), as each registry has finitely
many keys and each key finitely many templates. The built-in dialects pass the test
(`DialectKind.orderly`).
-/

namespace QueryPlan

open Edges

/-! ## 1. Registries -/

namespace Registry

variable {κ : Type} [Worded κ]

/-- All templates that a key can be written with. -/
def templates (r : Registry κ) (key : κ) : List Template :=
  (r.entry key).cascade.map Prod.snd ++ [(r.entry key).format.getD r.fallback]

omit [Worded κ] in
theorem template_mem_templates (r : Registry κ) (key : κ) (params : Params) :
    r.template key params ∈ r.templates key := by
  unfold template templates
  dsimp only
  split
  · next rule hfind =>
    exact List.mem_append_left _ (List.mem_map_of_mem (List.mem_of_find?_eq_some hfind))
  · exact List.mem_append_right _ List.mem_cons_self

/-- Whether a key has a firm keyword, and templates that print the slots of some names in order. -/
def inOrderAt (r : Registry κ) (names : List String) (key : κ) : Bool :=
  decide (firm.Fits (r.keyword key)) && (r.templates key).all fun t => t.inOrder names

theorem orderlyAt_of_inOrderAt {r : Registry κ} {names : List String} {key : κ}
    (h : r.inOrderAt names key = true) : r.OrderlyAt names key := by
  obtain ⟨hword, htemplates⟩ := Bool.and_eq_true_iff.1 h
  exact ⟨of_decide_eq_true hword, fun params =>
    List.all_eq_true.1 htemplates _ (r.template_mem_templates key params)⟩

/-- Whether all keys have firm keywords, and templates that print the slots of their names in
    order. -/
def inOrder (r : Registry κ) (names : κ → List String) : Bool :=
  (Named.all : List κ).all fun key => r.inOrderAt (names key) key

/-- Keywords and templates can be tested one after the other. -/
theorem inOrder_of_parts {r : Registry κ} {names : κ → List String}
    (hwords : ((Named.all : List κ).all fun key => decide (firm.Fits (r.keyword key))) = true)
    (htemplates : ((Named.all : List κ).all fun key =>
      (r.templates key).all fun t => t.inOrder (names key)) = true) : r.inOrder names = true := by
  rw [List.all_eq_true] at hwords htemplates
  refine List.all_eq_true.2 fun key hkey => ?_
  rw [inOrderAt, hwords key hkey, htemplates key hkey, Bool.and_self]

theorem orderly_of_inOrder {r : Registry κ} {names : κ → List String}
    (h : r.inOrder names = true) : r.Orderly names :=
  fun key => orderlyAt_of_inOrderAt (List.all_eq_true.1 h key (Named.mem_all key))

/-! ## 2. Registries whose slots depend on what is given -/

/-- The names of the first rule that holds, else those of none. -/
def namesFor (rules : List (Condition × List String)) (others : List String) (params : Params) :
    List String :=
  match rules.find? fun (condition, _) => condition.holds params with
  | some (_, names) => names
  | none => others

/-- Whether a list of templates has the conditions of some rules and each template prints the slots
    of its rule in order. -/
def cascadeInOrder : List (Condition × Template) → List (Condition × List String) → Bool
  | [], [] => true
  | (c, t) :: cascade, (d, names) :: rules =>
    decide (c = d) && t.inOrder names && cascadeInOrder cascade rules
  | _, _ => false

def inOrderBy (r : Registry κ) (rules : List (Condition × List String)) (others : List String) :
    Bool :=
  (Named.all : List κ).all fun key =>
    decide (firm.Fits (r.keyword key)) && cascadeInOrder (r.entry key).cascade rules &&
      ((r.entry key).format.getD r.fallback).inOrder others

/-- The first template that applies belongs to the first rule that holds. -/
theorem inOrder_of_cascadeInOrder {cascade : List (Condition × Template)}
    {rules : List (Condition × List String)} (h : cascadeInOrder cascade rules = true)
    {last : Template} {others : List String} (hlast : last.inOrder others = true)
    (params : Params) :
    Template.inOrder
      (match cascade.find? fun (condition, _) => condition.holds params with
        | some (_, template) => template
        | none => last)
      (namesFor rules others params) = true := by
  unfold namesFor
  fun_induction cascadeInOrder cascade rules with
  | case1 => exact hlast
  | case2 c t cascade d names rules ih =>
    simp only [Bool.and_eq_true, decide_eq_true_eq] at h
    obtain ⟨⟨rfl, ht⟩, hrest⟩ := h
    rw [List.find?_cons, List.find?_cons]
    dsimp only
    cases c.holds params with
    | true => exact ht
    | false => exact ih hrest
  | case3 => cases h

section

variable {r : Registry κ} {rules : List (Condition × List String)} {others : List String}

theorem keyword_of_inOrderBy (h : r.inOrderBy rules others = true) (key : κ) :
    firm.Fits (r.keyword key) := by
  have hkey := List.all_eq_true.1 h key (Named.mem_all key)
  simp only [Bool.and_eq_true, decide_eq_true_eq] at hkey
  exact hkey.1.1

theorem template_of_inOrderBy (h : r.inOrderBy rules others = true) (key : κ) (params : Params) :
    (r.template key params).inOrder (namesFor rules others params) = true := by
  have hkey := List.all_eq_true.1 h key (Named.mem_all key)
  simp only [Bool.and_eq_true, decide_eq_true_eq] at hkey
  exact inOrder_of_cascadeInOrder hkey.1.2 hkey.2 params

end

end Registry

/-! ## 3. Formats -/

namespace Formats

/-- The slots of an aggregate by the way in which its filter is given. -/
def aggregateRules : List (Condition × List String) :=
  [(.present "filter", ["arg", "filter"]), (.present "filter_case", ["filter_case", "arg"])]

/-- The slots of a join with a condition. -/
def joinRules : List (Condition × List String) :=
  [(.present "condition", ["source", "condition"])]

/-- Whether operators print their operands in order. -/
def operatorsInOrder (f : Formats) : Bool :=
  ((Named.all : List UnaryOperator).all fun op => f.unaryOps.inOrderAt ["operand"] op ||
    f.unaryOps.keyword op == "-" && (f.unaryOps.template op []).isSigned) &&
  (Named.all : List BinaryOperator).all fun op => f.binaryOps.inOrderAt ["left", "right"] op ||
    decide (plain.Fits (f.binaryOps.keyword op)) &&
      (f.binaryOps.template op []).inOrder ["left", "keyword", "right"]

/-- Whether formats print what is rendered in the order in which it is rendered. -/
def inOrder (f : Formats) : Bool :=
  f.operatorsInOrder && f.unaryPredicates.inOrder (fun _ => ["operand"]) &&
    f.binaryPredicates.inOrder (fun _ => ["left", "right"]) &&
    f.keywords.inOrder Keyword.slots && f.literals.inOrder LiteralKind.slots &&
    f.types.inOrder (fun _ => []) && f.setOps.inOrder (fun _ => []) &&
    f.json.inOrder (fun _ => []) && (f.json.templates .nested).all (·.inOrder ["value"]) &&
    f.aggregates.inOrderBy aggregateRules ["arg"] && f.joins.inOrderBy joinRules ["source"]

theorem orderly_of_inOrder {f : Formats} (h : f.inOrder = true) : f.Orderly := by
  simp only [inOrder, operatorsInOrder, Bool.and_eq_true] at h
  obtain ⟨⟨⟨⟨⟨⟨⟨⟨⟨⟨⟨hunary, hbinary⟩, hunaryPred⟩, hbinaryPred⟩, hkeywords⟩, hliterals⟩, htypes⟩,
    hsetOps⟩, hjson⟩, hnested⟩, haggregates⟩, hjoins⟩ := h
  refine
    { unaryOps := fun op => ?_
      binaryOps := fun op => ?_
      unaryPredicates := Registry.orderly_of_inOrder hunaryPred
      binaryPredicates := Registry.orderly_of_inOrder hbinaryPred
      keywords := Registry.orderly_of_inOrder hkeywords
      literals := Registry.orderly_of_inOrder hliterals
      types := Registry.orderly_of_inOrder htypes
      setOps := Registry.orderly_of_inOrder hsetOps
      json := Registry.orderly_of_inOrder hjson
      jsonNested := fun params =>
        List.all_eq_true.1 hnested _ (f.json.template_mem_templates .nested params)
      aggregateKeyword := Registry.keyword_of_inOrderBy haggregates
      aggregate := ?_
      aggregateFilter := ?_
      aggregateCase := ?_
      joinKeyword := Registry.keyword_of_inOrderBy hjoins
      join := ?_
      joinCondition := ?_ }
  · have hop := List.all_eq_true.1 hunary op (Named.mem_all op)
    simp only [Bool.or_eq_true, Bool.and_eq_true, beq_iff_eq] at hop
    exact hop.imp Registry.orderlyAt_of_inOrderAt id
  · have hop := List.all_eq_true.1 hbinary op (Named.mem_all op)
    simp only [Bool.or_eq_true, Bool.and_eq_true, decide_eq_true_eq] at hop
    exact hop.imp Registry.orderlyAt_of_inOrderAt id
  · intro key params hfilter hcase
    simpa [Registry.namesFor, aggregateRules, Condition.holds, hfilter, hcase] using
      Registry.template_of_inOrderBy haggregates key params
  · intro key params hfilter
    simpa [Registry.namesFor, aggregateRules, Condition.holds, hfilter] using
      Registry.template_of_inOrderBy haggregates key params
  · intro key params hfilter hcase
    simpa [Registry.namesFor, aggregateRules, Condition.holds, hfilter, hcase] using
      Registry.template_of_inOrderBy haggregates key params
  all_goals
    intro key params hcondition
    simpa [Registry.namesFor, joinRules, Condition.holds, hcondition] using
      Registry.template_of_inOrderBy hjoins key params

theorem inOrder_of_mem {f : Formats}
    (hf : f ∈ [.generic, Dialect.postgres.formats, Dialect.mySql.formats, Dialect.msSql.formats,
      Dialect.sqLite.formats]) : f.inOrder = true := by
  have hall : ∀ p : Formats → Bool,
      [.generic, Dialect.postgres.formats, Dialect.mySql.formats, Dialect.msSql.formats,
        Dialect.sqLite.formats].all p = true → p f = true :=
    fun _ h => List.all_eq_true.1 h f hf
  -- The formats are evaluated together, as they share most templates, but one family of keys after
  -- the other.
  have hoperators := hall operatorsInOrder (by decide +kernel)
  have hunaryPredicates := hall (·.unaryPredicates.inOrder fun _ => ["operand"])
    (by decide +kernel)
  have hbinaryPredicates := hall (·.binaryPredicates.inOrder fun _ => ["left", "right"])
    (by decide +kernel)
  have hwords := hall (fun f => (Named.all : List Keyword).all fun key =>
    decide (firm.Fits (f.keywords.keyword key))) (by decide +kernel)
  have hkeywords := hall (fun f => (Named.all : List Keyword).all fun key =>
    (f.keywords.templates key).all fun t => t.inOrder key.slots) (by decide +kernel)
  have hliterals := hall (·.literals.inOrder LiteralKind.slots) (by decide +kernel)
  have htypes := hall (·.types.inOrder fun _ => []) (by decide +kernel)
  have hsetOps := hall (·.setOps.inOrder fun _ => []) (by decide +kernel)
  have hjson := hall (·.json.inOrder fun _ => []) (by decide +kernel)
  have hnested := hall (fun f => (f.json.templates .nested).all (·.inOrder ["value"]))
    (by decide +kernel)
  have haggregates := hall (·.aggregates.inOrderBy aggregateRules ["arg"]) (by decide +kernel)
  have hjoins := hall (·.joins.inOrderBy joinRules ["source"]) (by decide +kernel)
  simp only [inOrder, hoperators, hunaryPredicates, hbinaryPredicates,
    Registry.inOrder_of_parts hwords hkeywords, hliterals, htypes, hsetOps, hjson, hnested,
    haggregates, hjoins, Bool.and_self]

end Formats

/-! ## 4. Dialects -/

theorem DialectKind.orderly_formats (kind : DialectKind) : kind.dialect.formats.Orderly := by
  refine Formats.orderly_of_inOrder (Formats.inOrder_of_mem ?_)
  cases kind with
  | generic => exact .head _
  | postgres => exact .tail _ (.head _)
  | mySql => exact .tail _ (.tail _ (.head _))
  | msSql => exact .tail _ (.tail _ (.tail _ (.head _)))
  | sqLite => exact .tail _ (.tail _ (.tail _ (.tail _ (.head _))))

theorem DialectKind.orderly_conventions (kind : DialectKind) :
    kind.dialect.conventions.Orderly := by
  cases kind with
  | mySql => exact Conventions.orderly_mySql
  | _ =>
    -- The others differ from standard SQL in what is not text.
    exact { Conventions.orderly_standard with }

/-- **The built-in dialects print in order.** -/
theorem DialectKind.orderly (kind : DialectKind) : kind.dialect.Orderly where
  quoteOpen := by cases kind <;> decide
  quoteClose := by cases kind <;> decide
  conventions := kind.orderly_conventions
  formats := kind.orderly_formats
  selectOrder := by cases kind <;> rfl
  insertOrder := by cases kind <;> rfl
  updateOrder := by cases kind <;> rfl
  deleteOrder := by cases kind <;> rfl

theorem Dialect.Orderly.withFeatures {d : Dialect} (h : d.Orderly) (features : FeatureSet) :
    (d.withFeatures features).Orderly :=
  { h with }

end QueryPlan
