import QueryPlan.Format.Registry
import QueryPlan.Plan.Operator
import QueryPlan.Proofs.Compile.PairedText

/-!
# Registries as their last writes

A registry is made by a sequence of calls. Each call writes some attributes of some keys
(`Call.write`), and what a registry answers for a key depends on the last write of each attribute
of this key alone (`answers_are_last_writes`). Calls that do not name the key can therefore be left
out, and two calls that write different attributes of a key can be exchanged.

One call is described once, for all attributes together (`entry_apply`, `supported_apply`); a
sequence on any registry follows by induction (`entry_applyAll`, `supported_applyAll`).
-/

namespace QueryPlan

namespace Registry

variable {κ : Type}

/-! ## 1. Calls and what they write -/

/-- A call that changes a registry. -/
inductive Call (κ : Type) where
  | setFormat (key : κ) (template : String)
  | setFormatWithStrength (key : κ) (template : String) (strength : Strength)
  | respell (key : κ) (keyword : String)
  | setCascading (key : κ) (rules : List (String × String))
  | setUnsupported (keys : List κ)
  | setSupported (keys : List κ)

/-- What can be written for a key. -/
inductive Attribute where
  | keyword
  | format
  | rules
  | strength
  | support

/-- The values of an attribute: keywords, sources of templates, rules with such sources, strengths
    and whether a key is supported. -/
abbrev Attribute.Value : Attribute → Type
  | keyword => String
  | format => String
  | rules => List (String × String)
  | strength => Strength
  | support => Bool

variable [DecidableEq κ]

def apply (r : Registry κ) : Call κ → Registry κ
  | .setFormat key template => r.setFormat key template
  | .setFormatWithStrength key template strength => r.setFormatWithStrength key template strength
  | .respell key keyword => r.respell key keyword
  | .setCascading key rules => r.setCascading key rules
  | .setUnsupported keys => r.setUnsupported keys
  | .setSupported keys => r.setSupported keys

/-- The registry after some calls. -/
def applyAll (r : Registry κ) (calls : List (Call κ)) : Registry κ :=
  calls.foldl apply r

/-- Whether a call is one on a key. -/
def Call.names (k : κ) : Call κ → Bool
  | setFormat key _ => key = k
  | setFormatWithStrength key _ _ => key = k
  | respell key _ => key = k
  | setCascading key _ => key = k
  | setUnsupported keys => k ∈ keys
  | setSupported keys => k ∈ keys

/-- What a call writes for an attribute of a key, if it does. -/
def Call.write (k : κ) : (a : Attribute) → Call κ → Option a.Value
  | .keyword, respell key keyword => if key = k then some keyword else none
  | .format, setFormat key template => if key = k then some template else none
  | .format, setFormatWithStrength key template _ => if key = k then some template else none
  | .strength, setFormatWithStrength key _ strength => if key = k then some strength else none
  | .rules, setCascading key rules => if key = k then some rules else none
  | .support, setUnsupported keys => if k ∈ keys then some false else none
  | .support, setSupported keys => if k ∈ keys then some true else none
  | _, _ => none

/-- The last value that was written for an attribute of a key. -/
def lastWrite (k : κ) (a : Attribute) (calls : List (Call κ)) : Option a.Value :=
  (calls.filterMap (Call.write k a)).getLast?

/-! ## 2. Choosing and filling a template -/

/-- Whether a rule applies: it has no condition, or its slot is given a text that is not empty. -/
def ruleApplies (params : Params) (rule : String × String) : Bool :=
  rule.1 == "*" || (Fields.get? params rule.1).any (· != "")

/-- The source of the template of a key: the first rule of the last list that applies, else the last
    template that was set, else the one for all keys. -/
def chosenSource (default : String) (calls : List (Call κ)) (k : κ) (params : Params) : String :=
  match ((lastWrite k .rules calls).getD []).find? (ruleApplies params) with
  | some rule => rule.2
  | none => (lastWrite k .format calls).getD default

/-- The templates of rules, with their conditions. -/
def cascadeOf (rules : List (String × String)) : List (Condition × Template) :=
  rules.map fun rule => (conditionOf rule.1, Template.parse rule.2)

end Registry

namespace Template

/-- A text that a template is filled to: each slot is replaced by what is given for it, by the
    keyword where nothing is given for the slot of that name, and else by nothing. -/
inductive Fills (params : Params) (word : String) : List Segment → String → Prop where
  | nil : Fills params word [] ""
  | text {t s : String} {rest : List Segment} (h : Fills params word rest s) :
    Fills params word (.text t :: rest) (t ++ s)
  | given {name value s : String} {strength : Option Strength} {rest : List Segment}
    (hvalue : Fields.get? params name = some value) (h : Fills params word rest s) :
    Fills params word (.slot name strength :: rest) (value ++ s)
  | keyword {s : String} {strength : Option Strength} {rest : List Segment}
    (hvalue : Fields.get? params "keyword" = none) (h : Fills params word rest s) :
    Fills params word (.slot "keyword" strength :: rest) (word ++ s)
  | absent {name s : String} {strength : Option Strength} {rest : List Segment}
    (hvalue : Fields.get? params name = none) (hname : name ≠ "keyword")
    (h : Fills params word rest s) : Fills params word (.slot name strength :: rest) s

variable {params : Params} {word : String}

theorem fills_slot {name s : String} {strength : Option Strength} {rest : List Segment} :
    Fills params word (.slot name strength :: rest) s ↔
      ∃ behind, Fills params word rest behind ∧ s = slotText params word name ++ behind := by
  unfold slotText
  constructor
  · intro h
    cases h with
    | given hvalue h => exact ⟨_, h, by rw [hvalue]⟩
    | keyword hvalue h => exact ⟨_, h, by rw [hvalue]; rfl⟩
    | absent hvalue hname h =>
      refine ⟨_, h, ?_⟩
      simp [hvalue, hname]
  · rintro ⟨behind, h, rfl⟩
    cases hvalue : Fields.get? params name with
    | some value => exact .given hvalue h
    | none =>
      by_cases hname : name = "keyword"
      · subst hname
        exact .keyword hvalue h
      · simp only [beq_iff_eq, hname, if_false, String.empty_append]
        exact .absent hvalue hname h

/-- A template is filled to one text, the rendered one. -/
theorem fills_iff {t : Template} {s : String} :
    Fills params word t.segments s ↔ s = t.renderWith params word := by
  rw [renderWith_eq]
  generalize t.segments = segments
  induction segments generalizing s with
  | nil =>
    constructor
    · rintro ⟨⟩
      rfl
    · rintro rfl
      exact .nil
  | cons segment rest ih =>
    rw [List.map_cons, String.join_cons]
    cases segment with
    | text t =>
      constructor
      · intro h
        cases h with
        | text h =>
          rw [ih.1 h]
          rfl
      · rintro rfl
        exact .text (ih.2 rfl)
    | slot name strength =>
      rw [fills_slot]
      constructor
      · rintro ⟨behind, h, rfl⟩
        rw [ih.1 h]
        rfl
      · rintro rfl
        exact ⟨_, ih.2 rfl, rfl⟩

end Template

namespace Registry

/-! ## 3. One call -/

variable {κ : Type} [DecidableEq κ] {r : Registry κ} {k : κ} {calls : List (Call κ)}

theorem entry_modifyEntry (key : κ) (change : Entry → Entry) :
    (r.modifyEntry key change).entry k = if key = k then change (r.entry k) else r.entry k := by
  simp only [modifyEntry, eq_comm (a := key)]

/-- What a call makes of the entry of a key: the attributes that it writes are replaced. -/
theorem entry_apply (c : Call κ) : (r.apply c).entry k =
    { keyword := (c.write k .keyword).or (r.entry k).keyword
      format := ((c.write k .format).map Template.parse).or (r.entry k).format
      cascade := ((c.write k .rules).map cascadeOf).getD (r.entry k).cascade
      strength := (c.write k .strength).or (r.entry k).strength } := by
  cases c with
  | setFormat key template =>
    rw [apply, setFormat, entry_modifyEntry]
    by_cases h : key = k <;> simp [Call.write, h]
  | setFormatWithStrength key template strength =>
    rw [apply, setFormatWithStrength, entry_modifyEntry]
    by_cases h : key = k <;> simp [Call.write, h]
  | respell key keyword =>
    rw [apply, respell, entry_modifyEntry]
    by_cases h : key = k <;> simp [Call.write, h]
  | setCascading key rules =>
    rw [apply, setCascading, entry_modifyEntry]
    by_cases h : key = k <;> simp [Call.write, h, cascadeOf]
  | setUnsupported keys | setSupported keys => rfl

/-- What a call makes of the support of a key. -/
theorem supported_apply (c : Call κ) :
    (r.apply c).supported k = (c.write k .support).getD (r.supported k) := by
  cases c with
  | setUnsupported keys =>
    simp only [apply, setUnsupported, Call.write]
    split <;> rfl
  | setSupported keys =>
    simp only [apply, setSupported, Call.write]
    split <;> rfl
  | _ => rfl

theorem fallback_apply (c : Call κ) : (r.apply c).fallback = r.fallback := by
  cases c <;> rfl

theorem write_of_not_names {c : Call κ} (h : c.names k = false) (a : Attribute) :
    c.write k a = none := by
  cases c <;> cases a <;> simp_all [Call.names, Call.write]

/-- A call on a key is on this key alone, or about its support. -/
theorem names_cases {c : Call κ} (h : c.names k = true) :
    (∀ j, c.names j = true → j = k) ∨ ∃ b, c.write k .support = some b := by
  cases c with
  | setUnsupported keys => exact .inr ⟨false, if_pos (of_decide_eq_true h)⟩
  | setSupported keys => exact .inr ⟨true, if_pos (of_decide_eq_true h)⟩
  | _ =>
    refine .inl fun j hj => ?_
    exact (of_decide_eq_true hj).symm.trans (of_decide_eq_true h)

/-! ## 4. Sequences of calls -/

theorem lastWrite_cons (a : Attribute) (c : Call κ) :
    lastWrite k a (c :: calls) = (lastWrite k a calls).or (c.write k a) := by
  rw [lastWrite, lastWrite, List.filterMap_cons]
  cases c.write k a with
  | none => simp
  | some value => simp [List.getLast?_cons]

theorem applyAll_cons (c : Call κ) : r.applyAll (c :: calls) = (r.apply c).applyAll calls :=
  rfl

/-- What calls make of the entry of a key: each attribute has the value that was written last. -/
theorem entry_applyAll : (r.applyAll calls).entry k =
    { keyword := (lastWrite k .keyword calls).or (r.entry k).keyword
      format := ((lastWrite k .format calls).map Template.parse).or (r.entry k).format
      cascade := ((lastWrite k .rules calls).map cascadeOf).getD (r.entry k).cascade
      strength := (lastWrite k .strength calls).or (r.entry k).strength } := by
  induction calls generalizing r with
  | nil => rfl
  | cons c calls ih =>
    rw [applyAll_cons, ih, entry_apply]
    simp only [lastWrite_cons, Option.map_or, Option.or_assoc, Option.getD_or]

theorem supported_applyAll :
    (r.applyAll calls).supported k = (lastWrite k .support calls).getD (r.supported k) := by
  induction calls generalizing r with
  | nil => rfl
  | cons c calls ih =>
    rw [applyAll_cons, ih, supported_apply, lastWrite_cons]
    cases lastWrite k .support calls <;> rfl

theorem fallback_applyAll : (r.applyAll calls).fallback = r.fallback := by
  induction calls generalizing r with
  | nil => rfl
  | cons c calls ih =>
    rw [applyAll_cons, ih, fallback_apply]

/-- A call that writes nothing to an attribute can be exchanged with the next one. -/
theorem lastWrite_swap {a : Attribute} {before after : List (Call κ)} {c e : Call κ}
    (h : c.write k a = none ∨ e.write k a = none) :
    lastWrite k a (before ++ c :: e :: after) = lastWrite k a (before ++ e :: c :: after) := by
  rcases h with h | h <;> simp [lastWrite, List.filterMap_cons, h]

/-- Calls that do not name the key write nothing to it. -/
theorem lastWrite_filter (a : Attribute) :
    lastWrite k a (calls.filter (Call.names k)) = lastWrite k a calls := by
  rw [lastWrite, lastWrite, List.filterMap_filter]
  congr 2
  funext c
  cases hnames : c.names k with
  | true => rfl
  | false => exact (write_of_not_names hnames a).symm

/-- Two calls on a key that write different attributes of it write different attributes of any
    key. -/
theorem write_eq_none_of_names {c e : Call κ} (hc : c.names k = true) (he : e.names k = true)
    (h : ∀ a, c.write k a = none ∨ e.write k a = none) (j : κ) (a : Attribute) :
    c.write j a = none ∨ e.write j a = none := by
  by_cases hj : j = k
  · rw [hj]
    exact h a
  -- One of the calls is not about support, and so names no other key.
  rcases names_cases hc with hone | ⟨b, hb⟩
  · exact .inl (write_of_not_names (Bool.eq_false_iff.2 fun hnames => hj (hone j hnames)) a)
  rcases names_cases he with hone | ⟨b', hb'⟩
  · exact .inr (write_of_not_names (Bool.eq_false_iff.2 fun hnames => hj (hone j hnames)) a)
  · rcases h .support with hnone | hnone
    · rw [hnone] at hb
      cases hb
    · rw [hnone] at hb'
      cases hb'

/-- Calls that write the same make the same of a registry. -/
theorem applyAll_congr {calls' : List (Call κ)}
    (h : ∀ j a, lastWrite j a calls = lastWrite j a calls') :
    r.applyAll calls = r.applyAll calls' := by
  have hentry : (r.applyAll calls).entry = (r.applyAll calls').entry := by
    funext j
    simp only [entry_applyAll, h]
  have hsupported : (r.applyAll calls).supported = (r.applyAll calls').supported := by
    funext j
    rw [supported_applyAll, supported_applyAll, h]
  have hfallback : (r.applyAll calls).fallback = (r.applyAll calls').fallback := by
    rw [fallback_applyAll, fallback_applyAll]
  exact (Registry.mk.injEq _ _ _ _ _ _).symm ▸ ⟨hfallback, hentry, hsupported⟩

/-! ## 5. Answers -/

/-- The registry that calls make of a new one. -/
def ofCalls (default : String) (calls : List (Call κ)) : Registry κ :=
  (ofDefault default).applyAll calls

variable {default : String}

theorem holds_conditionOf (params : Params) (rule : String × String) :
    (conditionOf rule.1).holds params = ruleApplies params rule := by
  unfold conditionOf ruleApplies
  cases hstar : rule.1 == "*" with
  | true => rfl
  | false =>
    simp only [Bool.false_eq_true, if_false, Bool.false_or, Condition.holds, Params.isPresent]
    cases Fields.get? params rule.1 <;> rfl

theorem template_ofCalls (params : Params) :
    (ofCalls default calls).template k params =
      Template.parse (chosenSource default calls k params) := by
  have hcascade : ((lastWrite k .rules calls).map cascadeOf).getD [] =
      cascadeOf ((lastWrite k .rules calls).getD []) := by
    cases lastWrite k .rules calls <;> rfl
  have hfind : ∀ rules, (cascadeOf rules).find? (fun entry => entry.1.holds params) =
      (rules.find? (ruleApplies params)).map fun rule =>
        (conditionOf rule.1, Template.parse rule.2) := by
    intro rules
    rw [cascadeOf, List.find?_map]
    congr 2
    funext rule
    exact holds_conditionOf params rule
  unfold template chosenSource ofCalls
  simp only [entry_applyAll, fallback_applyAll, ofDefault, Option.or_none, hcascade]
  rw [hfind]
  cases ((lastWrite k .rules calls).getD []).find? (ruleApplies params) with
  | some rule => rfl
  | none => cases lastWrite k .format calls <;> rfl

variable [Worded κ]

theorem keyword_ofCalls : (ofCalls default calls).keyword k =
    (lastWrite k .keyword calls).getD (Worded.keyword k) := by
  rw [keyword, ofCalls, entry_applyAll]
  simp only [ofDefault, Option.or_none]

omit [Worded κ] in
theorem strength?_ofCalls : (ofCalls default calls).strength? k = lastWrite k .strength calls := by
  rw [strength?, ofCalls, entry_applyAll]
  simp only [ofDefault, Option.or_none]

theorem lookup_ofCalls (params : Params) (strict : Bool) :
    (ofCalls default calls).lookup k params strict =
      if strict = true ∧ lastWrite k .support calls = some false then
        .error (Error.unsupported (featureName k))
      else .ok ⟨Template.parse (chosenSource default calls k params),
        (lastWrite k .keyword calls).getD (Worded.keyword k), lastWrite k .strength calls⟩ := by
  have hsupported : (ofCalls default calls).supported k =
      (lastWrite k .support calls).getD true := by
    rw [ofCalls, supported_applyAll]
    rfl
  rw [lookup, template_ofCalls, keyword_ofCalls, strength?_ofCalls, hsupported]
  by_cases h : strict = true ∧ lastWrite k .support calls = some false
  · rw [if_pos h, h.1, h.2]
    rfl
  · rw [if_neg h]
    cases strict with
    | false =>
      rw [Bool.and_false]
      rfl
    | true =>
      cases hlast : lastWrite k .support calls with
      | none => rfl
      | some supported =>
        cases supported with
        | true => rfl
        | false => exact absurd ⟨rfl, hlast⟩ h

omit [DecidableEq κ] in
/-- A key written out is the template of its look-up, filled. -/
theorem get_eq_ok_iff {r : Registry κ} {params : Params} {strict : Bool} {s : String} :
    r.get k params strict = .ok s ↔ ∃ l, r.lookup k params strict = .ok l ∧
      Template.Fills params l.keyword l.template.segments s := by
  rw [get]
  cases r.lookup k params strict with
  | error e =>
    constructor
    · intro h
      cases h
    · rintro ⟨l, h, -⟩
      cases h
  | ok l =>
    constructor
    · intro h
      cases h
      exact ⟨l, rfl, Template.fills_iff.2 rfl⟩
    · rintro ⟨l', h, hfills⟩
      cases h
      rw [Template.fills_iff.1 hfills]
      rfl

omit [DecidableEq κ] in
theorem get_eq_error_iff {r : Registry κ} {params : Params} {strict : Bool} {e : Error} :
    r.get k params strict = .error e ↔ r.lookup k params strict = .error e := by
  rw [get]
  cases r.lookup k params strict with
  | error e' =>
    constructor
    all_goals
      intro h
      cases h
      rfl
  | ok l =>
    constructor
    · intro h
      cases h
    · intro h
      cases h

/-- Two registries answer alike for a key. -/
structure Alike (k : κ) (r r' : Registry κ) : Prop where
  keyword : r.keyword k = r'.keyword k
  strength : r.strength? k = r'.strength? k
  lookup : ∀ params strict, r.lookup k params strict = r'.lookup k params strict
  get : ∀ params strict, r.get k params strict = r'.get k params strict

/-- Calls that write the same to a key make registries that answer alike for it. -/
theorem alike_of_lastWrite {calls' : List (Call κ)}
    (h : ∀ a, lastWrite k a calls = lastWrite k a calls') :
    Alike k (ofCalls default calls) (ofCalls default calls') := by
  have hlookup : ∀ params strict, (ofCalls default calls).lookup k params strict =
      (ofCalls default calls').lookup k params strict := by
    intro params strict
    simp only [lookup_ofCalls, chosenSource, h]
  refine ⟨?_, ?_, hlookup, fun params strict => ?_⟩
  · rw [keyword_ofCalls, keyword_ofCalls, h]
  · rw [strength?_ofCalls, strength?_ofCalls, h]
  · rw [get, get, hlookup]

/-- **A registry is its last writes.** For every sequence of calls and every key: the keyword and
    the strength are the last that were written; the look-up fails, with the error for the key, only
    in strict mode and if the key was last marked as not supported, and else finds the template of
    the source that the last writes choose; the key is written out by filling that template. Calls
    that do not name the key can be left out, and neighbours among the calls that write different
    attributes of the key can be exchanged. -/
theorem answers_are_last_writes (default : String) (calls : List (Call κ)) (k : κ) :
    (ofCalls default calls).keyword k = (lastWrite k .keyword calls).getD (Worded.keyword k) ∧
    (ofCalls default calls).strength? k = lastWrite k .strength calls ∧
    (∀ params strict, (ofCalls default calls).lookup k params strict =
      if strict = true ∧ lastWrite k .support calls = some false then
        .error (Error.unsupported (featureName k))
      else .ok ⟨Template.parse (chosenSource default calls k params),
        (lastWrite k .keyword calls).getD (Worded.keyword k), lastWrite k .strength calls⟩) ∧
    (∀ params strict,
      (∀ s, (ofCalls default calls).get k params strict = .ok s ↔
        ∃ l, (ofCalls default calls).lookup k params strict = .ok l ∧
          Template.Fills params l.keyword l.template.segments s) ∧
      ∀ e, (ofCalls default calls).get k params strict = .error e ↔
        (ofCalls default calls).lookup k params strict = .error e) ∧
    Alike k (ofCalls default calls) (ofCalls default (calls.filter (Call.names k))) ∧
    ∀ before c e after, c.names k = true → e.names k = true →
      (∀ a, c.write k a = none ∨ e.write k a = none) →
      ofCalls default (before ++ c :: e :: after) =
        ofCalls default (before ++ e :: c :: after) := by
  refine ⟨keyword_ofCalls, strength?_ofCalls, lookup_ofCalls,
    fun params strict => ⟨fun s => get_eq_ok_iff, fun e => get_eq_error_iff⟩,
    alike_of_lastWrite fun a => (lastWrite_filter a).symm, ?_⟩
  intro before c e after hc he hwrite
  exact applyAll_congr fun j a => lastWrite_swap (write_eq_none_of_names hc he hwrite j a)

/-- A keyword and the support of a key, together with that of another, are written in either
    order. -/
theorem answers_are_last_writes_here :
    ofCalls "{left} {keyword} {right}" [.respell BinaryOperator.concat "+",
      .setUnsupported [.add, .concat], .setSupported [.add]] =
    ofCalls "{left} {keyword} {right}" [.setUnsupported [.add, .concat],
      .respell BinaryOperator.concat "+", .setSupported [.add]] := by
  refine (answers_are_last_writes "{left} {keyword} {right}" [] BinaryOperator.concat).2.2.2.2.2
    [] (.respell .concat "+") (.setUnsupported [.add, .concat]) [.setSupported [.add]] rfl rfl ?_
  intro a
  cases a with
  | keyword => exact .inr rfl
  | _ => exact .inl rfl

end Registry

end QueryPlan
