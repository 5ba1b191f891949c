/-!
# White space

The white space of the Unicode standard (property `White_Space`), and the two cuts that are made
along it: the text without the blanks at its ends (`trim`) and its words (`words`).

All functions work on the characters of a text; `String.trimBlank` is the one form on strings.
-/

namespace QueryPlan.Text

/-- The characters with the property `White_Space`. -/
def isBlank (c : Char) : Bool :=
  let n := c.toNat
  (9 ≤ n && n ≤ 13) || n == 0x20 || n == 0x85 || n == 0xA0 || n == 0x1680 ||
    (0x2000 ≤ n && n ≤ 0x200A) || n == 0x2028 || n == 0x2029 || n == 0x202F || n == 0x205F ||
    n == 0x3000

/-- The characters without the blanks in front. -/
def trimFront (cs : List Char) : List Char :=
  cs.dropWhile isBlank

/-- The characters without the blanks behind. -/
def trimBack (cs : List Char) : List Char :=
  (cs.reverse.dropWhile isBlank).reverse

/-- The characters without the blanks at either end. -/
def trim (cs : List Char) : List Char :=
  trimBack (trimFront cs)

/-- The words of a text: its longest runs without blanks. The word that is being read is kept in
    reverse. -/
def wordsFrom (word : List Char) : List Char → List (List Char)
  | [] => if word.isEmpty then [] else [word.reverse]
  | c :: cs =>
    if isBlank c then
      if word.isEmpty then wordsFrom [] cs else word.reverse :: wordsFrom [] cs
    else wordsFrom (c :: word) cs

/-- The words of a text, in order. -/
def words (cs : List Char) : List (List Char) :=
  wordsFrom [] cs

end QueryPlan.Text

namespace QueryPlan

/-- The text without the blanks at either end. -/
def trimBlank (s : String) : String :=
  String.ofList (Text.trim s.toList)

end QueryPlan
