import QueryPlan.Layout.Vocabulary
import QueryPlan.Number.Numeral
import QueryPlan.Text.Blank
import QueryPlan.Text.WordChar

/-!
# Tokens of SQL

A text is cut into tokens from its beginning on: blanks, comments, quoted texts, parentheses,
placeholders, numbers, words with a role, other words, and operators. What nothing else takes is an
operator of one character, so that every text has tokens. A quote that is not closed is such an
operator.

The functions named `behind` give what is left behind a piece of text, or nothing if the piece does
not stand there.
-/

namespace QueryPlan.Layout

/-- What a token is. -/
inductive Kind where
  | blank
  | lineComment
  | blockComment
  | quoted
  | opening
  | closing
  | placeholder
  | number
  /-- The head of a clause. -/
  | clause
  /-- A word that begins a line. -/
  | lineStart
  /-- A word with a line of its own. -/
  | separator
  | reserved
  | word
  | operator
  deriving DecidableEq

structure Token where
  kind : Kind
  text : List Char

/-- A token of a kind, with what is left behind it. -/
abbrev Cut := Kind × List Char

/-! ## 1. Comments and quoted texts -/

def behindBlanks? (cs : List Char) : Option (List Char) :=
  if (cs.head?.map Text.isBlank).getD false then some (Text.trimFront cs) else none

/-- A comment ends in front of the end of its line. -/
def behindLine? (cs : List Char) : Option (List Char) :=
  match cs.dropWhile fun c => c != '\n' && c != '\r' with
  | '\r' :: '\n' :: rest => some ('\r' :: '\n' :: rest)
  | '\r' :: _ => none
  | rest => some rest

def behindLineComment? : List Char → Option (List Char)
  | '#' :: rest => behindLine? rest
  | '-' :: '-' :: rest => behindLine? rest
  | _ => none

/-- What is left behind the end of a comment that has been opened; one that is not closed takes
    all. -/
def behindBlockEnd : List Char → List Char
  | [] => []
  | '*' :: '/' :: rest => rest
  | _ :: rest => behindBlockEnd rest

def behindBlockComment? : List Char → Option (List Char)
  | '/' :: '*' :: rest => some (behindBlockEnd rest)
  | _ => none

/-- What is left behind a closing quote. A quote behind one of the `escapes` belongs to the
    text. -/
def behindQuote? (close : Char) (escapes : List Char) : List Char → Option (List Char)
  | [] => none
  | [c] => if c = close then some [] else none
  | c :: d :: rest =>
    if c ∈ escapes ∧ d = close then behindQuote? close escapes rest
    else if c = close then some (d :: rest)
    else behindQuote? close escapes (d :: rest)

/-- What is left behind a quoted text. Of the letters that may stand before a quote only `N` and `E`
    belong to the text; any other, as in `X'00'`, is a word of its own. -/
def behindQuoted? : List Char → Option (List Char)
  | '\x60' :: rest => behindQuote? '\x60' ['\x60'] rest
  | '[' :: rest => behindQuote? ']' [']'] rest
  | '"' :: rest => behindQuote? '"' ['"', '\\'] rest
  | '\x27' :: rest => behindQuote? '\x27' ['\x27', '\\'] rest
  | c :: '\x27' :: rest =>
    if c = 'N' ∨ c = 'E' then behindQuote? '\x27' ['\x27', '\\'] rest else none
  | _ => none

/-! ## 2. Placeholders and numbers -/

/-- What is left behind one digit or more. -/
def behindDigits? (cs : List Char) : Option (List Char) :=
  let (digits, rest) := Numeral.spanDigits cs
  if digits.isEmpty then none else some rest

/-- What is left behind one character of a name or more. -/
def behindName? (cs : List Char) : Option (List Char) :=
  let isNameChar (c : Char) := Text.isAlphanumeric c || c == '.' || c == '_' || c == '$'
  if (cs.head?.map isNameChar).getD false then some (cs.dropWhile isNameChar) else none

def behindPlaceholder? : List Char → Option (List Char)
  | '?' :: rest => behindDigits? rest <|> some rest
  | '$' :: rest => behindDigits? rest <|> behindName? rest
  | '@' :: rest => behindName? rest <|> behindQuoted? rest
  | ':' :: rest => behindName? rest <|> behindQuoted? rest
  | _ => none

/-- What is left behind an exponent. -/
def behindExponent? : List Char → Option (List Char)
  | 'e' :: '-' :: rest => behindDigits? rest
  | 'e' :: '+' :: rest => behindDigits? rest
  | 'e' :: rest => behindDigits? rest
  | _ => none

/-- A number may have a sign, a point, digits behind it and an exponent. -/
def behindNumber? (cs : List Char) : Option (List Char) := do
  let unsigned := if cs.head? = some '-' then cs.tail else cs
  let whole ← behindDigits? unsigned
  let fraction :=
    match whole with
    | '.' :: rest => rest.dropWhile Numeral.isDigit
    | _ => whole
  some ((behindExponent? fraction).getD fraction)

/-! ## 3. Words -/

/-- Whether no word goes on here. -/
def endsWord (cs : List Char) : Bool :=
  !(cs.head?.map Text.isWordChar).getD false

/-- What is left behind a word in any case of its letters. -/
def behindWord? (word : String) (cs : List Char) : Option (List Char) :=
  let rest := cs.drop word.length
  if (cs.take word.length).map Char.toUpper = word.toList ∧ endsWord rest then some rest else none

/-- What is left behind the words of a phrase, with blanks between them. -/
def behindPhrase? : List String → List Char → Option (List Char)
  | [], cs => some cs
  | [word], cs => behindWord? word cs
  | word :: words, cs =>
    (behindWord? word cs).bind fun rest => behindPhrase? words (Text.trimFront rest)

def behindPhrases? (phrases : List (List String)) (cs : List Char) : Option (List Char) :=
  phrases.findSome? fun phrase => behindPhrase? phrase cs

/-- The word that begins a text. -/
def leadingWord (cs : List Char) : List Char :=
  cs.takeWhile Text.isWordChar

def behindReserved? (cs : List Char) : Option (List Char) :=
  let word := leadingWord cs
  if reservedWords.contains (String.ofList (word.map Char.toUpper)) then some (cs.drop word.length)
  else none

def behindPlainWord? (cs : List Char) : Option (List Char) :=
  if endsWord cs then none else some (cs.dropWhile Text.isWordChar)

/-- What the tokens in front say about a word. -/
structure Seen where
  /-- The token in front is a dot. -/
  dot : Bool
  /-- The last reserved word. -/
  reserved : List Char
  /-- The last head of a clause. -/
  clause : List Char

def Seen.nothing : Seen := ⟨false, [], []⟩

def Seen.next (s : Seen) (t : Token) : Seen :=
  { dot := t.text = ['.']
    reserved := if t.kind = .reserved then t.text else s.reserved
    clause := if t.kind = .clause then t.text else s.clause }

/-- A word with a role. Behind a dot there is none. The `AND` of a `BETWEEN` begins no line, and an
    `EXCEPT` among the columns of a `SELECT` no clause. -/
def roleWord? (s : Seen) (cs : List Char) : Option Cut :=
  let reservedIf (p : Bool) (kind : Kind) : Kind := if p then .reserved else kind
  let isWord (word : String) (rest : List Char) :=
    cs.take (cs.length - rest.length) = word.toList
  if s.dot then none
  else
    ((behindPhrases? clauses cs).map fun rest =>
      (reservedIf (isWord "EXCEPT" rest && s.clause = "SELECT".toList) .clause, rest)) <|>
    ((behindPhrases? lineStarts cs).map fun rest =>
      (reservedIf (isWord "AND" rest && s.reserved = "BETWEEN".toList) .lineStart, rest)) <|>
    ((behindPhrases? separators cs).map fun rest => (.separator, rest)) <|>
    ((behindPhrases? reservedPairs cs <|> behindReserved? cs).map fun rest => (.reserved, rest))

/-! ## 4. Texts -/

def behindOpening? : List Char → Option (List Char)
  | '(' :: rest => some rest
  | cs => behindWord? "CASE" cs

def behindClosing? : List Char → Option (List Char)
  | ')' :: rest => some rest
  | cs => behindWord? "END" cs

def behindOperator? (cs : List Char) : Option (List Char) :=
  (operators.find? fun operator => operator.toList.isPrefixOf cs).map fun operator =>
    cs.drop operator.length

/-- The first token of a text that is not empty. -/
def firstCut (s : Seen) (c : Char) (rest : List Char) : Cut :=
  let cs := c :: rest
  let cut (kind : Kind) (left : Option (List Char)) : Option Cut :=
    left.map fun left => (kind, left)
  let found :=
    cut .blank (behindBlanks? cs) <|>
    cut .lineComment (behindLineComment? cs) <|>
    cut .blockComment (behindBlockComment? cs) <|>
    cut .quoted (behindQuoted? cs) <|>
    cut .opening (behindOpening? cs) <|>
    cut .closing (behindClosing? cs) <|>
    cut .placeholder (behindPlaceholder? cs) <|>
    cut .number (behindNumber? cs) <|>
    roleWord? s cs <|>
    cut .word (behindPlainWord? cs) <|>
    cut .operator (behindOperator? cs)
  found.getD (.operator, rest)

/-- The tokens of a text. Each has a character at least, so that the length bounds their number. -/
def tokens : (bound : Nat) → Seen → List Char → List Token
  | 0, _, _ => []
  | _, _, [] => []
  | bound + 1, s, c :: rest =>
    let (kind, left) := firstCut s c rest
    let token : Token := ⟨kind, (c :: rest).take (rest.length + 1 - left.length)⟩
    token :: tokens bound (s.next token) left

end QueryPlan.Layout
