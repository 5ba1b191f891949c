import QueryPlan.Format.Template
import QueryPlan.Plan.Operator

/-!
# Fragments and parentheses

A fragment is the text of an expression with the strength of its outermost operator. An operand gets
parentheses if its operator binds less than the one around it, or as much on a side to which that
one does not associate. An operand that begins with a minus sign gets them too, unless it stands on
the left: behind another minus sign it would begin a comment.
-/

namespace QueryPlan

/-- The text of an expression, and how strongly its outermost operator binds. -/
structure Fragment where
  text : String
  strength : Strength
  deriving DecidableEq

/-- The strength of calls, literals and column references. -/
def atomStrength : Strength := 20

/-- The strength of what stands in parentheses. -/
def parenStrength : Strength := 100

/-- The strength of a sign. -/
def signStrength : Strength := 13

namespace Fragment

def atom (text : String) : Fragment := ⟨text, atomStrength⟩

def parenthesize (f : Fragment) : Fragment := ⟨"(" ++ f.text ++ ")", parenStrength⟩

def startsWithMinus (f : Fragment) : Bool :=
  f.text.toList.head? == some '-'

/-- A number. A negative one binds like a sign. -/
def number (text : String) : Fragment :=
  let f := atom text
  if f.startsWithMinus then { f with strength := signStrength } else f

end Fragment

/-- To which side an operator associates. -/
inductive Associativity where
  | left
  /-- To either side, like a sum. -/
  | both
  deriving DecidableEq

/-- Whether an operand of an operator with a strength and an associativity needs parentheses. -/
def needsParens (f : Fragment) (isLeft : Bool) (parent : Strength) (associativity : Associativity) :
    Bool :=
  if f.strength < parent then true
  else if parent < f.strength then false
  else
    match associativity with
    | .both => false
    | .left => !isLeft

/-- An operand as it is printed. -/
def Fragment.asOperand (f : Fragment) (isLeft : Bool) (parent : Strength)
    (associativity : Associativity) : Fragment :=
  if (!isLeft && f.startsWithMinus) || needsParens f isLeft parent associativity then f.parenthesize
  else f

/-! ## Strengths of operators -/

namespace BinaryOperator

def strength : BinaryOperator → Strength
  | mul => 11
  | div => 11
  | mod => 11
  | add => 10
  | sub => 10
  | _ => 9

def associativity : BinaryOperator → Associativity
  | sub => .left
  | div => .left
  | mod => .left
  | _ => .both

end BinaryOperator

def UnaryOperator.strength (_ : UnaryOperator) : Strength := signStrength

def UnaryPredicate.strength (_ : UnaryPredicate) : Strength := 5

def BinaryPredicate.strength : BinaryPredicate → Strength
  | like => 7
  | notLike => 7
  | iLike => 7
  | notILike => 7
  | regex => 7
  | isDistinctFrom => 5
  | isNotDistinctFrom => 5
  | _ => 6

/-- The strength of `BETWEEN` and `IN`. -/
def rangeStrength : Strength := 7

/-- What `BETWEEN` and `IN` ask of their operands. -/
def rangeOperandStrength : Strength := 8

def notStrength : Strength := 4

def Conjunction.strength : Conjunction → Strength
  | and => 3
  | or => 2

end QueryPlan
