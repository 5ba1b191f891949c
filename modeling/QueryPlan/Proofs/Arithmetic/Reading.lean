import QueryPlan.Proofs.Arithmetic.Basic

/-!
# Reading arithmetic by precedence

`readArith` reads a text of columns, signs, operators and parentheses the way an engine does: an
operator that binds more strongly takes its operands first, operators that bind equally are taken
from left to right, and parentheses come before both.

A text is cut into tokens first (`tokensOf`). A word is an operator or a column, whichever can stand
at its place, and a minus is an operator or a sign. The tokens are then read from left to right with
a stack of what is still open: a sign, a left operand with its operator, or a parenthesis. An
operator ends everything on the stack that binds at least as strongly (`settle`).
-/

namespace QueryPlan

/-! ## 1. Tokens -/

/-- A piece of a text. -/
inductive ArithToken where
  | word (text : String)
  | minus
  | opening
  | closing
  deriving DecidableEq

/-- A word in front of tokens, unless there is no word. The characters are in reverse. -/
def flushWord (word : List Char) (rest : List ArithToken) : List ArithToken :=
  if word.isEmpty then rest else .word (String.ofList word.reverse) :: rest

/-- Reads tokens. `word` holds, in reverse, the word in front, and `quoted` says whether it ends
    inside quotes, where every character belongs to it. -/
def readTokens : (quoted : Bool) → (word : List Char) → List Char → List ArithToken
  | _, word, [] => flushWord word []
  | true, word, c :: cs => readTokens (c != '"') (c :: word) cs
  | false, word, c :: cs =>
    if c = ' ' then flushWord word (readTokens false [] cs)
    else if c = '-' then flushWord word (.minus :: readTokens false [] cs)
    else if c = '(' then flushWord word (.opening :: readTokens false [] cs)
    else if c = ')' then flushWord word (.closing :: readTokens false [] cs)
    else readTokens (c == '"') (c :: word) cs

def tokensOf (text : String) : List ArithToken :=
  readTokens false [] text.toList

/-- The operator that a word stands for. -/
def ArithOp.ofKeyword? (word : String) : Option ArithOp :=
  ArithOp.all.find? fun op => op.keyword == word

/-! ## 2. Reading tokens -/

/-- Something that is still open. -/
inductive Pending where
  /-- An operator with its left operand. -/
  | operator (left : Arith String) (op : ArithOp)
  | sign
  | paren

/-- Ends the operators and signs that bind at least as strongly as the next operator. -/
def settle (next : Strength) : List Pending → Arith String → List Pending × Arith String
  | .operator left op :: stack, t =>
    if next ≤ op.strength then settle next stack (.binary op left t)
    else (.operator left op :: stack, t)
  | .sign :: stack, t =>
    if next ≤ signStrength then settle next stack (.neg t) else (.sign :: stack, t)
  | stack, t => (stack, t)

/-- Ends everything up to the last parenthesis, and the parenthesis. -/
def closeParen : List Pending → Arith String → Option (List Pending × Arith String)
  | .operator left op :: stack, t => closeParen stack (.binary op left t)
  | .sign :: stack, t => closeParen stack (.neg t)
  | .paren :: stack, t => some (stack, t)
  | [], _ => none

/-- Ends everything, where no parenthesis is open. -/
def finish : List Pending → Arith String → Option (Arith String)
  | .operator left op :: stack, t => finish stack (.binary op left t)
  | .sign :: stack, t => finish stack (.neg t)
  | .paren :: _, _ => none
  | [], t => some t

/-- An operator behind an operand: what it takes as its left operand goes on the stack. -/
def pushOperator (op : ArithOp) (stack : List Pending) (t : Arith String) : List Pending :=
  let (stack, t) := settle op.strength stack t
  .operator t op :: stack

/-- Reads tokens. `operand` is the operand in front, or nothing where one has to follow. -/
def readFrom (stack : List Pending) : (operand : Option (Arith String)) → List ArithToken →
    Option (Arith String)
  | none, .word w :: rest => readFrom stack (some (.column w)) rest
  | none, .minus :: rest => readFrom (.sign :: stack) none rest
  | none, .opening :: rest => readFrom (.paren :: stack) none rest
  | some t, .word w :: rest =>
    match ArithOp.ofKeyword? w with
    | some op => readFrom (pushOperator op stack t) none rest
    | none => none
  | some t, .minus :: rest => readFrom (pushOperator .sub stack t) none rest
  | some t, .closing :: rest =>
    match closeParen stack t with
    | some (stack, t) => readFrom stack (some t) rest
    | none => none
  | some t, [] => finish stack t
  | _, _ => none

/-- **The tree that a text stands for**, if it is one of arithmetic. -/
def readArith (text : String) : Option (Arith String) :=
  readFrom [] none (tokensOf text)

example : readArith "a - b * -c - d" =
    some (.binary .sub (.binary .sub (.column "a") (.binary .mul (.column "b")
      (.neg (.column "c")))) (.column "d")) := by decide
example : readArith "a * (b + \"x y\".c)" =
    some (.binary .mul (.column "a") (.binary .add (.column "b") (.column "\"x y\".c"))) := by
  decide

/-! ## 3. The stack -/

theorem closeParen_settle (p : Strength) (stack : List Pending) (t : Arith String) :
    closeParen (settle p stack t).1 (settle p stack t).2 = closeParen stack t := by
  induction stack generalizing t with
  | nil => rfl
  | cons top stack ih =>
    cases top with
    | operator left op | sign =>
      rw [settle]
      split
      · rw [ih, closeParen]
      · rfl
    | paren => rfl

theorem finish_settle (p : Strength) (stack : List Pending) (t : Arith String) :
    finish (settle p stack t).1 (settle p stack t).2 = finish stack t := by
  induction stack generalizing t with
  | nil => rfl
  | cons top stack ih =>
    cases top with
    | operator left op | sign =>
      rw [settle]
      split
      · rw [ih, finish]
      · rfl
    | paren => rfl

end QueryPlan
