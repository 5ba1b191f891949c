import QueryPlan.Fields
import QueryPlan.Number.Numeral
import QueryPlan.Text.Blank

/-!
# Templates

A template is text with named slots in braces, such as `left keyword right` with each word in
braces. A slot may say how strongly its argument has to bind, behind a colon. A doubled brace stands
for one brace; anything else that is no slot is text, so that every source is a template.
-/

namespace QueryPlan

/-- How strongly an operator binds its operands. -/
abbrev Strength := Int32

/-- A piece of a template. -/
inductive Segment where
  | text (text : String)
  | slot (name : String) (strength : Option Strength)
  deriving DecidableEq

/-- A template with the source that it was read from. -/
structure Template where
  source : String
  segments : List Segment
  deriving DecidableEq

/-! ## 1. Reading -/

namespace Template

def isNameChar (c : Char) : Bool :=
  c.isAlphanum || c == '_'

/-- The strength behind the colon of a slot; blanks around it are skipped. -/
def strength? (cs : List Char) : Option Strength :=
  (Numeral.integerIn? minInt32 maxInt32 (Text.trim cs)).map Int32.ofInt

/-- The slot that the characters between two braces make. -/
def slot? (body : List Char) : Option Segment := do
  let name := body.takeWhile (· != ':')
  let strength ←
    match body.dropWhile (· != ':') with
    | [] => some none
    | _ :: behind => (strength? behind).map some
  if !name.isEmpty && name.all isNameChar then some (.slot (String.ofList name) strength) else none

/-- The slot that starts behind an opening brace, and the number of characters up to and with its
    closing brace. -/
def slotAt? (cs : List Char) : Option (Segment × Nat) :=
  let body := cs.takeWhile (· != '\x7d')
  if body.length < cs.length then (slot? body).map fun slot => (slot, body.length + 1) else none

/-- A text segment, unless there is no text. The characters are in reverse. -/
def flush (text : List Char) (rest : List Segment) : List Segment :=
  if text.isEmpty then rest else .text (String.ofList text.reverse) :: rest

/-- Reads segments. `skip` counts characters that have been read already, and `text` holds, in
    reverse, the text in front. -/
def scan : (skip : Nat) → (text : List Char) → List Char → List Segment
  | _, text, [] => flush text []
  | skip + 1, text, _ :: cs => scan skip text cs
  | 0, text, c :: cs =>
    if c = '\x7b' then
      if cs.head? = some '\x7b' then scan 1 (c :: text) cs
      else
        match slotAt? cs with
        | some (slot, length) => flush text (slot :: scan length [] cs)
        | none => scan 0 (c :: text) cs
    else if c = '\x7d' ∧ cs.head? = some '\x7d' then scan 1 (c :: text) cs
    else scan 0 (c :: text) cs

/-- The template of a source. -/
def parse (source : String) : Template :=
  ⟨source, scan 0 [] source.toList⟩

/-! ## 2. Slots -/

/-- The names of the slots, in order. -/
def slots (t : Template) : List String :=
  t.segments.filterMap fun
    | .slot name _ => some name
    | .text _ => none

def hasSlot (t : Template) (name : String) : Bool :=
  t.slots.contains name

/-- The first strength that a slot of a name asks for. -/
def slotStrength? (t : Template) (name : String) : Option Strength :=
  t.segments.findSome? fun
    | .slot other strength => if other == name then strength else none
    | .text _ => none

end Template

/-! ## 3. Rendering -/

/-- The texts of slots, by name. -/
abbrev Params := List (String × String)

/-- Whether a slot has a text that is not empty. -/
def Params.isPresent (params : Params) (name : String) : Bool :=
  match Fields.get? params name with
  | some text => text != ""
  | none => false

namespace Template

/-- The text of a slot: what is given for it, the keyword for the slot of that name, or nothing. -/
def slotText (params : Params) (keyword name : String) : String :=
  match Fields.get? params name with
  | some text => text
  | none => if name == "keyword" then keyword else ""

/-- Puts texts into all slots. -/
def renderWith (t : Template) (params : Params) (keyword : String) : String :=
  String.join (t.segments.map fun
    | .text text => text
    | .slot name _ => slotText params keyword name)

/-- Puts texts into all slots. A slot without a text is left out. -/
def render (t : Template) (params : Params) : String :=
  t.renderWith params ""

end Template

end QueryPlan
