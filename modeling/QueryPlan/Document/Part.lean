import QueryPlan.Json.Reader

/-!
# Parts of documents

A document is read part by part. One that is given as a value is as readable as that value. In a
text every part has to be well formed, but only the parts that are read have to stand for something:
a field that nobody knows may hold a lone surrogate, a number that is too large, or values nested to
any depth. Such a part is `unreadable`.

A text that is a JSON value has the parts of that value; any other text is looked at part by part.
-/

namespace QueryPlan

/-- A part of a document. -/
inductive Part where
  /-- What is well formed, but stands for no value. -/
  | unreadable
  | null
  | bool (b : Bool)
  | number (n : JsonNumber)
  | text (s : String)
  /-- An array, and whether it stands in a text. -/
  | array (items : List Part) (inText : Bool)
  | object (fields : List (String × Part))
  deriving Inhabited

namespace Part

mutual

/-- The parts of a value, which stands in a text or is given as it is. -/
def ofJson (inText : Bool) : Json → Part
  | .null => null
  | .bool b => bool b
  | .number n => number n
  | .text s => text s
  | .array items => array (ofItems inText items) inText
  | .object fields => object (ofFields inText fields)

def ofItems (inText : Bool) : List Json → List Part
  | [] => []
  | item :: rest => ofJson inText item :: ofItems inText rest

def ofFields (inText : Bool) : List (String × Json) → List (String × Part)
  | [] => []
  | (name, value) :: rest => (name, ofJson inText value) :: ofFields inText rest

end

mutual

/-- The value of a part, all of which has to be readable. -/
def toJson? : Part → Option Json
  | unreadable => none
  | null => some .null
  | bool b => some (.bool b)
  | number n => some (.number n)
  | text s => some (.text s)
  | array items _ => (toItems? items).map .array
  | object fields => (toFields? fields).map .object

def toItems? : List Part → Option (List Json)
  | [] => some []
  | item :: rest => do
    let item ← item.toJson?
    let rest ← toItems? rest
    some (item :: rest)

def toFields? : List (String × Part) → Option (List (String × Json))
  | [] => some []
  | (name, value) :: rest => do
    let value ← value.toJson?
    let rest ← toFields? rest
    some ((name, value) :: rest)

end

mutual

/-- The number of parts that a part is made of. -/
def weight : Part → Nat
  | array items _ => weightItems items + 1
  | object fields => weightFields fields + 1
  | _ => 1

def weightItems : List Part → Nat
  | [] => 0
  | item :: rest => weight item + weightItems rest

def weightFields : List (String × Part) → Nat
  | [] => 0
  | (_, value) :: rest => weight value + weightFields rest

end

def isNull : Part → Bool
  | null => true
  | _ => false

/-- The value of a name in an object. -/
def get? : Part → String → Option Part
  | object fields, name => Fields.get? fields name
  | _, _ => none

/-! ## 1. What is passed over -/

/-- What is left behind an escape of any code unit; its backslash has been read. -/
def behindEscape? : List Char → Option (List Char)
  | 'u' :: rest => (Json.readHex rest).toOption.map Prod.snd
  | c :: rest => if "\"\\/bfnrt".toList.contains c then some rest else none
  | [] => none

/-- What is left behind the closing quote of a string. -/
def behindString? : (steps : Nat) → List Char → Option (List Char)
  | 0, _ => none
  | _, [] => none
  | steps + 1, c :: rest =>
    if c = '"' then some rest
    else if c = '\\' then (behindEscape? rest).bind (behindString? steps)
    else if c.toNat < 0x20 then none
    else behindString? steps rest

/-- What is left behind one digit or more. -/
def behindDigits? (cs : List Char) : Option (List Char) :=
  let (digits, rest) := Numeral.spanDigits cs
  if digits.isEmpty then none else some rest

/-- What is left behind a number of any size; its minus sign has been read. -/
def behindNumber? (cs : List Char) : Option (List Char) := do
  let whole ←
    match cs with
    | '0' :: rest => if (rest.head?.map Numeral.isDigit).getD false then none else some rest
    | cs => behindDigits? cs
  let fraction ←
    match whole with
    | '.' :: rest => behindDigits? rest
    | rest => some rest
  match fraction with
  | c :: rest =>
    if c = 'e' ∨ c = 'E' then behindDigits? (Numeral.splitSign rest).2 else some fraction
  | [] => some fraction

/-- What is left behind a string or a number. -/
def behindLeaf? : List Char → Option (List Char)
  | '"' :: rest => behindString? (rest.length + 1) rest
  | '-' :: rest => behindNumber? rest
  | cs => behindNumber? cs

/-! ## 2. Parts of a text -/

/-- A value that holds no others. -/
def readLeaf? (cs : List Char) : Option (Part × List Char) :=
  match Json.readValue 1 0 cs with
  | .ok (j, rest) => some (ofJson true j, rest)
  | .error _ => (behindLeaf? cs).map fun rest => (unreadable, rest)

/-- A name whose opening quote has been read; nothing if it cannot be read. -/
def readName? (cs : List Char) : Option (Option String × List Char) :=
  match Json.readText cs with
  | .ok (name, rest) => some (some name, rest)
  | .error _ => (behindString? (cs.length + 1) cs).map fun rest => (none, rest)

/-- An object, which is readable if all its names are. -/
def ofNames (fields : List (Option String × Part)) : Part :=
  match fields.mapM fun (name, part) => name.map fun name => (name, part) with
  | some fields => object fields
  | none => unreadable

mutual

/-- A part, blanks in front of it included. `depth` readable parts may still be opened inside each
    other. -/
def readPart? : (steps depth : Nat) → List Char → Option (Part × List Char)
  | 0, _, _ => none
  | steps + 1, depth, cs =>
    match Json.skipSpace cs with
    | '[' :: rest => do
      let (items, rest) ← readItems? steps (depth - 1) true rest
      some (if depth = 0 then unreadable else array items true, rest)
    | '\x7b' :: rest => do
      let (fields, rest) ← readFields? steps (depth - 1) true rest
      some (if depth = 0 then unreadable else ofNames fields, rest)
    | cs => readLeaf? cs

/-- The items of an array up to its end; `first` says that none has been read yet. -/
def readItems? : (steps depth : Nat) → (first : Bool) → List Char →
    Option (List Part × List Char)
  | 0, _, _, _ => none
  | steps + 1, depth, first, cs =>
    match first, Json.skipSpace cs with
    | _, ']' :: rest => some ([], rest)
    | true, cs => readItem? steps depth cs
    | false, ',' :: rest => readItem? steps depth rest
    | false, _ => none

/-- An item of an array and all that follow it. -/
def readItem? : (steps depth : Nat) → List Char → Option (List Part × List Char)
  | 0, _, _ => none
  | steps + 1, depth, cs => do
    let (item, rest) ← readPart? steps depth cs
    let (items, rest) ← readItems? steps depth false rest
    some (item :: items, rest)

/-- The fields of an object up to its end; `first` says that none has been read yet. -/
def readFields? : (steps depth : Nat) → (first : Bool) → List Char →
    Option (List (Option String × Part) × List Char)
  | 0, _, _, _ => none
  | steps + 1, depth, first, cs =>
    match first, Json.skipSpace cs with
    | _, '\x7d' :: rest => some ([], rest)
    | true, cs => readField? steps depth cs
    | false, ',' :: rest => readField? steps depth (Json.skipSpace rest)
    | false, _ => none

/-- A field and all that follow it. -/
def readField? : (steps depth : Nat) → List Char →
    Option (List (Option String × Part) × List Char)
  | 0, _, _ => none
  | _, _, [] => none
  | steps + 1, depth, c :: cs => do
    if c ≠ '"' then none
    let (name, rest) ← readName? cs
    match Json.skipSpace rest with
    | ':' :: rest =>
      let (part, rest) ← readPart? steps depth rest
      let (fields, rest) ← readFields? steps depth false rest
      some ((name, part) :: fields, rest)
    | _ => none

end

/-- The parts of a text. -/
def ofText? (s : String) : Option Part :=
  match Json.read s with
  | .ok j => some (ofJson true j)
  | .error _ => do
    let cs := s.toList
    let (part, rest) ← readPart? (3 * cs.length + 3) Json.maxDepth cs
    if (Json.skipSpace rest).isEmpty then some part else none

end Part

end QueryPlan
