import QueryPlan.Error
import QueryPlan.Format.Template
import QueryPlan.Named

/-!
# Registries of templates

A registry says for each key of a family how it is written: one template for all, and for single
keys a keyword, a template, a list of templates of which the first that applies is taken, and the
strength with which the result binds. A key can be marked as one that the target does not have.
-/

namespace QueryPlan

/-- When a template of a list applies. -/
inductive Condition where
  | always
  /-- A slot has a text that is not empty. -/
  | present (slot : String)
  deriving DecidableEq

def Condition.holds (params : Params) : Condition → Bool
  | always => true
  | present slot => params.isPresent slot

/-- What a registry has for a key of its own. -/
structure Entry where
  keyword : Option String := none
  format : Option Template := none
  cascade : List (Condition × Template) := []
  strength : Option Strength := none
  deriving DecidableEq

/-- The templates of a family. -/
structure Registry (κ : Type) where
  fallback : Template
  entry : κ → Entry
  supported : κ → Bool

/-- The template that a key is written with, and what goes with it. -/
structure Lookup where
  template : Template
  keyword : String
  strength : Option Strength
  deriving DecidableEq

def Lookup.render (l : Lookup) (params : Params) : String :=
  l.template.renderWith params l.keyword

namespace Registry

variable {κ : Type}

/-! ## 1. Writing -/

/-- A registry in which all keys are written with one template. -/
def ofDefault (template : String) : Registry κ :=
  { fallback := Template.parse template
    entry := fun _ => {}
    supported := fun _ => true }

variable [DecidableEq κ]

/-- Changes the entry of one key. -/
def modifyEntry (r : Registry κ) (key : κ) (change : Entry → Entry) : Registry κ :=
  { r with entry := fun k => if k = key then change (r.entry k) else r.entry k }

def setFormat (r : Registry κ) (key : κ) (template : String) : Registry κ :=
  let format := some (Template.parse template)
  r.modifyEntry key fun e => { e with format }

/-- Sets a template whose result binds in another way than the key usually does. -/
def setFormatWithStrength (r : Registry κ) (key : κ) (template : String) (strength : Strength) :
    Registry κ :=
  let format := some (Template.parse template)
  r.modifyEntry key fun e => { e with format, strength := some strength }

/-- Replaces the keyword of a key. -/
def respell (r : Registry κ) (key : κ) (keyword : String) : Registry κ :=
  r.modifyEntry key fun e => { e with keyword := some keyword }

/-- The condition that a name stands for: the presence of that slot, or `*` for none. -/
def conditionOf (name : String) : Condition :=
  if name == "*" then .always else .present name

/-- Sets the list of templates of which the first that applies is taken. -/
def setCascading (r : Registry κ) (key : κ) (rules : List (String × String)) : Registry κ :=
  let cascade := rules.map fun (name, template) => (conditionOf name, Template.parse template)
  r.modifyEntry key fun e => { e with cascade }

def setUnsupported (r : Registry κ) (keys : List κ) : Registry κ :=
  { r with supported := fun k => if k ∈ keys then false else r.supported k }

def setSupported (r : Registry κ) (keys : List κ) : Registry κ :=
  { r with supported := fun k => if k ∈ keys then true else r.supported k }

/-! ## 2. Looking up -/

omit [DecidableEq κ]

/-- The template of a key: the first of its list that applies, its own, or that of all keys. -/
def template (r : Registry κ) (key : κ) (params : Params) : Template :=
  let e := r.entry key
  match e.cascade.find? fun (condition, _) => condition.holds params with
  | some (_, template) => template
  | none => e.format.getD r.fallback

def strength? (r : Registry κ) (key : κ) : Option Strength :=
  (r.entry key).strength

variable [Worded κ]

def keyword (r : Registry κ) (key : κ) : String :=
  (r.entry key).keyword.getD (Worded.keyword key)

/-- The name of a key in errors: its standard keyword, or its own name if it has none. -/
def featureName (key : κ) : String :=
  if Worded.keyword key == "" then Named.name key else Worded.keyword key

/-- How a key is written. In strict mode a key that is not supported is an error. -/
def lookup (r : Registry κ) (key : κ) (params : Params) (strict : Bool) : Except Error Lookup :=
  if !r.supported key && strict then throw (Error.unsupported (featureName key))
  else pure ⟨r.template key params, r.keyword key, r.strength? key⟩

/-- A key written out. -/
def get (r : Registry κ) (key : κ) (params : Params) (strict : Bool) : Except Error String :=
  return (← r.lookup key params strict).render params

end Registry

end QueryPlan
