import QueryPlan.Layout.Token
import QueryPlan.Text.Split
import QueryPlan.Text.Utf8

/-!
# Layout of SQL

Lays a statement out on several lines. A clause begins on a line of its own, with its content
indented below it; a set operator has a line of its own; conditions and joins begin new lines; a
comma ends a line. What stands in parentheses stays on its line if it is short and holds no clause,
and else is an indented block.
-/

namespace QueryPlan

namespace Layout

/-! ## 1. Pages -/

/-- A level of indentation. -/
inductive Level where
  | clause
  | block
  deriving DecidableEq

/-- What is laid out so far. -/
structure Page where
  /-- The text in reverse. -/
  text : List Char
  /-- Innermost first. -/
  levels : List Level
  /-- The number of open parentheses that stay on their line. -/
  inlineDepth : Nat
  /-- The last word with a role. -/
  noted : List Char
  /-- The token in front. -/
  previous : Option Token

namespace Page

def empty : Page := ⟨[], [], 0, [], none⟩

def trimEnd (p : Page) : Page :=
  { p with text := p.text.dropWhile fun c => c == ' ' || c == '\t' }

def put (p : Page) (cs : List Char) : Page :=
  { p with text := cs.reverse ++ p.text }

def putSpaced (p : Page) (cs : List Char) : Page :=
  (p.put cs).put [' ']

/-- The blanks that a line begins with. -/
def indent (p : Page) : List Char :=
  List.replicate (2 * p.levels.length) ' '

def newLine (p : Page) : Page :=
  let p := p.trimEnd
  let p := if p.text.head? = some '\n' then p else p.put ['\n']
  p.put p.indent

def note (p : Page) (t : Token) : Page :=
  { p with noted := t.text }

/-- Leaves the clause that is open, if one is. -/
def leaveClause (p : Page) : Page :=
  match p.levels with
  | .clause :: levels => { p with levels }
  | _ => p

/-- Leaves the innermost block with the clauses inside it. -/
def leaveBlock (p : Page) : Page :=
  { p with levels := (p.levels.dropWhile (· == .clause)).tail }

def enter (p : Page) (level : Level) : Page :=
  { p with levels := level :: p.levels }

end Page

/-! ## 2. Tokens on a page -/

/-- The greatest number of bytes of what stays on its line in parentheses. -/
def maxInline : Nat := 50

/-- Whether the parenthesis in front of some tokens stays on its line. -/
def fits (width depth : Nat) : List Token → Bool
  | [] => false
  | t :: rest =>
    let width := width + Text.utf8Width t.text
    if maxInline < width then false
    else
      match t.kind with
      | .opening => fits width (depth + 1) rest
      | .closing => if depth ≤ 1 then true else fits width (depth - 1) rest
      | .clause | .lineStart | .lineComment | .blockComment => false
      | _ => if t.text = [';'] then false else fits width depth rest

/-- The words of a phrase with one blank between them. -/
def squeeze (cs : List Char) : List Char :=
  List.intercalate [' '] (Text.words cs)

/-- A line of a comment behind its first: its indentation is that of the page. -/
def commentLine (p : Page) (line : List Char) : List Char :=
  let isIndent (c : Char) := c == ' ' || c == '\t'
  if (line.head?.map isIndent).getD false then p.indent ++ ' ' :: line.dropWhile isIndent else line

/-- A comment of several lines. -/
def commentText (p : Page) (cs : List Char) : List Char :=
  match Text.splitOn '\n' cs with
  | [] => []
  | line :: lines => List.intercalate ['\n'] (line :: lines.map (commentLine p))

/-- Whether a comment that began a line begins one again, by what is in front of it and behind. -/
def startsLine (previous : Option Token) (behind : List Token) : Bool :=
  (previous.map fun t => t.text.contains '\n').getD false &&
    match behind with
    | blank :: next :: _ => blank.kind == .blank && next.kind != .operator
    | _ => false

/-- Whether a blank in front of an opening parenthesis stays. -/
def keepsBlank (previous : Option Token) : Bool :=
  let keeps (t : Token) := t.kind == .blank || t.kind == .opening || t.kind == .lineComment
  (previous.map keeps).getD false

/-- Lays out a token that is no word with a role, no comment and no parenthesis. -/
def placePlain (p : Page) (t : Token) : Page :=
  match t.text with
  | [','] =>
    let q := p.trimEnd.putSpaced t.text
    if 0 < p.inlineDepth ∨ p.noted.map Char.toUpper = "LIMIT".toList then q else q.newLine
  | ['.'] => p.trimEnd.put t.text
  | [':'] => p.trimEnd.putSpaced t.text
  | [';'] => ({ p.trimEnd with levels := [] }).put [';', '\n']
  | text => p.putSpaced text

/-- Lays out a token; `behind` are the tokens behind it. -/
def place (p : Page) (t : Token) (behind : List Token) : Page :=
  match t.kind with
  | .blank => p
  | .lineComment => ((if startsLine p.previous behind then p.newLine else p).put t.text).newLine
  | .blockComment => (p.newLine.put (commentText p t.text)).newLine
  | .clause => ((((p.leaveClause.newLine).enter .clause).put (squeeze t.text)).newLine).note t
  | .separator => ((p.leaveClause.newLine.put (squeeze t.text)).newLine).note t
  | .lineStart => (p.newLine.putSpaced (squeeze t.text)).note t
  | .reserved => (p.putSpaced (squeeze t.text)).note t
  | .opening =>
    let p := (if keepsBlank p.previous then p else p.trimEnd).put t.text
    if 0 < p.inlineDepth ∨ fits 0 0 (t :: behind) then { p with inlineDepth := p.inlineDepth + 1 }
    else (p.enter .block).newLine
  | .closing =>
    if 0 < p.inlineDepth then
      { p.trimEnd.putSpaced t.text with inlineDepth := p.inlineDepth - 1 }
    else p.leaveBlock.newLine.putSpaced t.text
  | .placeholder => p.putSpaced t.text
  | .quoted | .number | .word | .operator => placePlain p t

def placeAll (p : Page) : List Token → Page
  | [] => p
  | t :: rest => placeAll { place p t rest with previous := some t } rest

end Layout

/-- A statement laid out on several lines. -/
def layOut (sql : String) : String :=
  let cs := sql.toList
  let page := Layout.placeAll .empty (Layout.tokens cs.length .nothing cs)
  String.ofList (Text.trim page.text.reverse)

end QueryPlan
