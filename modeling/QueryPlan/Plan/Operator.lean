import QueryPlan.Named

/-!
# Operators and other closed families of a plan

The operators, predicates and kinds that plans are made of. Each has its name in plan documents,
and those that a dialect may spell in its own way have the keyword of standard SQL.
-/

namespace QueryPlan

/-! ## 1. Operators -/

inductive UnaryOperator where
  | neg
  | bitNot
  deriving DecidableEq

instance : Worded UnaryOperator where
  all := [.neg, .bitNot]
  name
    | .neg => "Neg"
    | .bitNot => "BitNot"
  find_name k := by cases k <;> decide +kernel
  keyword
    | .neg => "-"
    | .bitNot => "~"

inductive BinaryOperator where
  | add
  | sub
  | mul
  | div
  | mod
  | concat
  | bitAnd
  | bitOr
  | bitXor
  | jsonGet
  | jsonGetText
  deriving DecidableEq

instance : Worded BinaryOperator where
  all := [.add, .sub, .mul, .div, .mod, .concat, .bitAnd, .bitOr, .bitXor, .jsonGet, .jsonGetText]
  name
    | .add => "Add"
    | .sub => "Sub"
    | .mul => "Mul"
    | .div => "Div"
    | .mod => "Mod"
    | .concat => "Concat"
    | .bitAnd => "BitAnd"
    | .bitOr => "BitOr"
    | .bitXor => "BitXor"
    | .jsonGet => "JsonGet"
    | .jsonGetText => "JsonGetText"
  find_name k := by cases k <;> decide +kernel
  keyword
    | .add => "+"
    | .sub => "-"
    | .mul => "*"
    | .div => "/"
    | .mod => "%"
    | .concat => "||"
    | .bitAnd => "&"
    | .bitOr => "|"
    | .bitXor => "^"
    | .jsonGet => "->"
    | .jsonGetText => "->>"

/-! ## 2. Predicates -/

inductive UnaryPredicate where
  | isNull
  | isNotNull
  | isTrue
  | isFalse
  deriving DecidableEq

instance : Worded UnaryPredicate where
  all := [.isNull, .isNotNull, .isTrue, .isFalse]
  name
    | .isNull => "IsNull"
    | .isNotNull => "IsNotNull"
    | .isTrue => "IsTrue"
    | .isFalse => "IsFalse"
  find_name k := by cases k <;> decide +kernel
  keyword
    | .isNull => "IS NULL"
    | .isNotNull => "IS NOT NULL"
    | .isTrue => "IS TRUE"
    | .isFalse => "IS FALSE"

inductive BinaryPredicate where
  | eq
  | ne
  | lt
  | lte
  | gt
  | gte
  | like
  | notLike
  | iLike
  | notILike
  | regex
  | isDistinctFrom
  | isNotDistinctFrom
  deriving DecidableEq

instance : Worded BinaryPredicate where
  all := [.eq, .ne, .lt, .lte, .gt, .gte, .like, .notLike, .iLike, .notILike, .regex,
    .isDistinctFrom, .isNotDistinctFrom]
  name
    | .eq => "Eq"
    | .ne => "Ne"
    | .lt => "Lt"
    | .lte => "Lte"
    | .gt => "Gt"
    | .gte => "Gte"
    | .like => "Like"
    | .notLike => "NotLike"
    | .iLike => "ILike"
    | .notILike => "NotILike"
    | .regex => "Regex"
    | .isDistinctFrom => "IsDistinctFrom"
    | .isNotDistinctFrom => "IsNotDistinctFrom"
  find_name k := by cases k <;> decide +kernel
  keyword
    | .eq => "="
    | .ne => "<>"
    | .lt => "<"
    | .lte => "<="
    | .gt => ">"
    | .gte => ">="
    | .like => "LIKE"
    | .notLike => "NOT LIKE"
    | .iLike => "ILIKE"
    | .notILike => "NOT ILIKE"
    | .regex => "~"
    | .isDistinctFrom => "IS DISTINCT FROM"
    | .isNotDistinctFrom => "IS NOT DISTINCT FROM"

/-- How a list of conditions is joined. -/
inductive Conjunction where
  | and
  | or
  deriving DecidableEq

instance : Worded Conjunction where
  all := [.and, .or]
  name
    | .and => "And"
    | .or => "Or"
  find_name k := by cases k <;> decide +kernel
  keyword
    | .and => "AND"
    | .or => "OR"

/-! ## 3. Aggregates, joins and set operations -/

inductive AggregateKind where
  | count
  | sum
  | avg
  | min
  | max
  | boolAnd
  | boolOr
  | stdDev
  | variance
  deriving DecidableEq

instance : Worded AggregateKind where
  all := [.count, .sum, .avg, .min, .max, .boolAnd, .boolOr, .stdDev, .variance]
  name
    | .count => "Count"
    | .sum => "Sum"
    | .avg => "Avg"
    | .min => "Min"
    | .max => "Max"
    | .boolAnd => "BoolAnd"
    | .boolOr => "BoolOr"
    | .stdDev => "StdDev"
    | .variance => "Variance"
  find_name k := by cases k <;> decide +kernel
  keyword
    | .count => "COUNT"
    | .sum => "SUM"
    | .avg => "AVG"
    | .min => "MIN"
    | .max => "MAX"
    | .boolAnd => "BOOL_AND"
    | .boolOr => "BOOL_OR"
    | .stdDev => "STDDEV_SAMP"
    | .variance => "VAR_SAMP"

inductive JoinKind where
  | inner
  | left
  | right
  | full
  | cross
  deriving DecidableEq

instance : Worded JoinKind where
  all := [.inner, .left, .right, .full, .cross]
  name
    | .inner => "Inner"
    | .left => "Left"
    | .right => "Right"
    | .full => "Full"
    | .cross => "Cross"
  find_name k := by cases k <;> decide +kernel
  keyword
    | .inner => "INNER JOIN"
    | .left => "LEFT JOIN"
    | .right => "RIGHT JOIN"
    | .full => "FULL OUTER JOIN"
    | .cross => "CROSS JOIN"

inductive SetOperator where
  | union
  | unionAll
  | intersect
  | intersectAll
  | except
  | exceptAll
  deriving DecidableEq

instance : Worded SetOperator where
  all := [.union, .unionAll, .intersect, .intersectAll, .except, .exceptAll]
  name
    | .union => "Union"
    | .unionAll => "UnionAll"
    | .intersect => "Intersect"
    | .intersectAll => "IntersectAll"
    | .except => "Except"
    | .exceptAll => "ExceptAll"
  find_name k := by cases k <;> decide +kernel
  keyword
    | .union => "UNION"
    | .unionAll => "UNION ALL"
    | .intersect => "INTERSECT"
    | .intersectAll => "INTERSECT ALL"
    | .except => "EXCEPT"
    | .exceptAll => "EXCEPT ALL"

/-! ## 4. Ordering, result shapes and insert priorities -/

inductive Direction where
  | asc
  | desc
  deriving DecidableEq, Inhabited

instance : Worded Direction where
  all := [.asc, .desc]
  name
    | .asc => "Asc"
    | .desc => "Desc"
  find_name k := by cases k <;> decide +kernel
  keyword
    | .asc => "ASC"
    | .desc => "DESC"

/-- Where an ordering puts nulls. -/
inductive Nulls where
  | first
  | last
  deriving DecidableEq

instance : Named Nulls where
  all := [.first, .last]
  name
    | .first => "First"
    | .last => "Last"
  find_name k := by cases k <;> decide +kernel

/-- What the result of a statement is decoded to. -/
inductive Shape where
  /-- A list of rows. -/
  | rows
  /-- The first row. -/
  | first
  /-- The first column of the first row. -/
  | value
  /-- The list of the first column's values. -/
  | list
  deriving DecidableEq, Inhabited

instance : Named Shape where
  all := [.rows, .first, .value, .list]
  name
    | .rows => "Rows"
    | .first => "First"
    | .value => "Value"
    | .list => "List"
  find_name k := by cases k <;> decide +kernel

/-- The word for a shape in messages. -/
def Shape.word : Shape → String
  | .rows => "rows"
  | .first => "first"
  | .value => "value"
  | .list => "list"

inductive InsertPriority where
  | low
  | delayed
  | high
  deriving DecidableEq

instance : Named InsertPriority where
  all := [.low, .delayed, .high]
  name
    | .low => "Low"
    | .delayed => "Delayed"
    | .high => "High"
  find_name k := by cases k <;> decide +kernel

end QueryPlan
