import QueryPlan.Named

/-!
# Data types

The types that columns, parameters and casts are declared with. `TypeKind` is the type without its
arguments; it is what a dialect has a name for.
-/

namespace QueryPlan

/-- A declared type. -/
inductive DataType where
  | boolean
  | smallInt
  | integer
  | bigInt
  | unsignedInteger
  | unsignedBigInt
  | real
  | double
  | decimal (precision scale : Option UInt8)
  | text
  | varchar (length : Option UInt32)
  | bytes
  | uuid
  | date
  | time
  | timestamp
  | timestampTz
  | interval
  | json
  | point
  | array (element : DataType)
  | custom (name : String)
  deriving DecidableEq, Inhabited

/-- A type without its arguments. -/
inductive TypeKind where
  | boolean
  | smallInt
  | integer
  | bigInt
  | unsignedInteger
  | unsignedBigInt
  | real
  | double
  | decimal
  | text
  | varchar
  | bytes
  | uuid
  | date
  | time
  | timestamp
  | timestampTz
  | interval
  | json
  | point
  | array
  | custom
  deriving DecidableEq

instance : Worded TypeKind where
  all := [.boolean, .smallInt, .integer, .bigInt, .unsignedInteger, .unsignedBigInt, .real, .double,
    .decimal, .text, .varchar, .bytes, .uuid, .date, .time, .timestamp, .timestampTz, .interval,
    .json, .point, .array, .custom]
  name
    | .boolean => "Boolean"
    | .smallInt => "SmallInt"
    | .integer => "Integer"
    | .bigInt => "BigInt"
    | .unsignedInteger => "UnsignedInteger"
    | .unsignedBigInt => "UnsignedBigInt"
    | .real => "Real"
    | .double => "Double"
    | .decimal => "Decimal"
    | .text => "Text"
    | .varchar => "Varchar"
    | .bytes => "Bytes"
    | .uuid => "Uuid"
    | .date => "Date"
    | .time => "Time"
    | .timestamp => "Timestamp"
    | .timestampTz => "TimestampTz"
    | .interval => "Interval"
    | .json => "Json"
    | .point => "Point"
    | .array => "Array"
    | .custom => "Custom"
  find_name k := by cases k <;> decide +kernel
  keyword
    | .boolean => "BOOLEAN"
    | .smallInt => "SMALLINT"
    | .integer => "INTEGER"
    | .bigInt => "BIGINT"
    | .unsignedInteger => "INTEGER UNSIGNED"
    | .unsignedBigInt => "BIGINT UNSIGNED"
    | .real => "REAL"
    | .double => "DOUBLE PRECISION"
    | .decimal => "DECIMAL"
    | .text => "TEXT"
    | .varchar => "VARCHAR"
    | .bytes => "BYTEA"
    | .uuid => "UUID"
    | .date => "DATE"
    | .time => "TIME"
    | .timestamp => "TIMESTAMP"
    | .timestampTz => "TIMESTAMP WITH TIME ZONE"
    | .interval => "INTERVAL"
    | .json => "JSON"
    | .point => "POINT"
    | .array => "ARRAY"
    | .custom => ""

namespace DataType

/-- The type without its arguments. -/
def kind : DataType → TypeKind
  | boolean => .boolean
  | smallInt => .smallInt
  | integer => .integer
  | bigInt => .bigInt
  | unsignedInteger => .unsignedInteger
  | unsignedBigInt => .unsignedBigInt
  | real => .real
  | double => .double
  | decimal _ _ => .decimal
  | text => .text
  | varchar _ => .varchar
  | bytes => .bytes
  | uuid => .uuid
  | date => .date
  | time => .time
  | timestamp => .timestamp
  | timestampTz => .timestampTz
  | interval => .interval
  | json => .json
  | point => .point
  | array _ => .array
  | custom _ => .custom

def isUnsigned : DataType → Bool
  | unsignedInteger => true
  | unsignedBigInt => true
  | _ => false

def isNumeric : DataType → Bool
  | smallInt => true
  | integer => true
  | bigInt => true
  | unsignedInteger => true
  | unsignedBigInt => true
  | real => true
  | double => true
  | decimal _ _ => true
  | _ => false

/-- A signed type that holds all values of an unsigned one. -/
def signedFallback? : DataType → Option DataType
  | unsignedInteger => some bigInt
  | unsignedBigInt => some (decimal (some 20) (some 0))
  | _ => none

end DataType

end QueryPlan
