import QueryPlan.Named

/-!
# Clauses, keywords and literal forms

The families that dialects arrange and spell beside the operators of plans.
-/

namespace QueryPlan

/-- The clauses of statements, which each dialect puts in order. -/
inductive Clause where
  | ctes
  | select
  | distinct
  | top
  | projection
  | sources
  | joins
  | filter
  | groupBy
  | having
  | windows
  | orderBy
  | paging
  | forJson
  | insert
  | values
  | upsert
  | update
  | assign
  | delete
  | using
  | output
  | returning
  deriving DecidableEq

instance : Named Clause where
  all := [.ctes, .select, .distinct, .top, .projection, .sources, .joins, .filter, .groupBy,
    .having, .windows, .orderBy, .paging, .forJson, .insert, .values, .upsert, .update, .assign,
    .delete, .using, .output, .returning]
  name
    | .ctes => "With"
    | .select => "Select"
    | .distinct => "Distinct"
    | .top => "Top"
    | .projection => "Projection"
    | .sources => "From"
    | .joins => "Joins"
    | .filter => "Where"
    | .groupBy => "GroupBy"
    | .having => "Having"
    | .windows => "Windows"
    | .orderBy => "OrderBy"
    | .paging => "Paging"
    | .forJson => "ForJson"
    | .insert => "Insert"
    | .values => "Values"
    | .upsert => "Upsert"
    | .update => "Update"
    | .assign => "Set"
    | .delete => "Delete"
    | .using => "Using"
    | .output => "Output"
    | .returning => "Returning"
  find_name k := by cases k <;> decide +kernel

/-- Keywords and clause templates. -/
inductive Keyword where
  | ctes
  | recursiveCtes
  | select
  | distinct
  | distinctOn
  | top
  | sources
  | filter
  | groupBy
  | having
  | window
  | orderBy
  | limit
  | offset
  | fetch
  /-- The ordering that paging needs where a statement has none. -/
  | fetchOrder
  | forJson
  | insert
  | insertIgnore
  | lowPriority
  | delayed
  | highPriority
  | values
  | defaultValues
  | onConflict
  | onDuplicateKey
  | excluded
  | update
  | assign
  | delete
  | using
  | returning
  | output
  /-- The pseudo table of new values in an output clause. -/
  | inserted
  /-- The pseudo table of old values in an output clause. -/
  | deleted
  | cast
  | not
  | default
  | rowsExist
  | noRowsExist
  | member
  | notMember
  | between
  | notBetween
  | row
  | windowed
  | partitionBy
  | nullsFirst
  | nullsLast
  /-- A row of a source given in place. -/
  | valuesRow
  /-- A conjunction of no conditions. -/
  | truePredicate
  /-- A disjunction of no conditions. -/
  | falsePredicate
  deriving DecidableEq

instance : Worded Keyword where
  all := [.ctes, .recursiveCtes, .select, .distinct, .distinctOn, .top, .sources, .filter, .groupBy,
    .having, .window, .orderBy, .limit, .offset, .fetch, .fetchOrder, .forJson, .insert,
    .insertIgnore, .lowPriority, .delayed, .highPriority, .values, .defaultValues, .onConflict,
    .onDuplicateKey, .excluded, .update, .assign, .delete, .using, .returning, .output, .inserted,
    .deleted, .cast, .not, .default, .rowsExist, .noRowsExist, .member, .notMember, .between,
    .notBetween, .row, .windowed, .partitionBy, .nullsFirst, .nullsLast, .valuesRow, .truePredicate,
    .falsePredicate]
  name
    | .ctes => "With"
    | .recursiveCtes => "WithRecursive"
    | .select => "Select"
    | .distinct => "Distinct"
    | .distinctOn => "DistinctOn"
    | .top => "Top"
    | .sources => "From"
    | .filter => "Where"
    | .groupBy => "GroupBy"
    | .having => "Having"
    | .window => "Window"
    | .orderBy => "OrderBy"
    | .limit => "Limit"
    | .offset => "Offset"
    | .fetch => "Fetch"
    | .fetchOrder => "FetchOrder"
    | .forJson => "ForJson"
    | .insert => "Insert"
    | .insertIgnore => "InsertIgnore"
    | .lowPriority => "LowPriority"
    | .delayed => "Delayed"
    | .highPriority => "HighPriority"
    | .values => "Values"
    | .defaultValues => "DefaultValues"
    | .onConflict => "OnConflict"
    | .onDuplicateKey => "OnDuplicateKey"
    | .excluded => "Excluded"
    | .update => "Update"
    | .assign => "Set"
    | .delete => "Delete"
    | .using => "Using"
    | .returning => "Returning"
    | .output => "Output"
    | .inserted => "Inserted"
    | .deleted => "Deleted"
    | .cast => "Cast"
    | .not => "Not"
    | .default => "Default"
    | .rowsExist => "Exists"
    | .noRowsExist => "NotExists"
    | .member => "In"
    | .notMember => "NotIn"
    | .between => "Between"
    | .notBetween => "NotBetween"
    | .row => "Row"
    | .windowed => "Over"
    | .partitionBy => "PartitionBy"
    | .nullsFirst => "NullsFirst"
    | .nullsLast => "NullsLast"
    | .valuesRow => "ValuesRow"
    | .truePredicate => "TruePredicate"
    | .falsePredicate => "FalsePredicate"
  find_name k := by cases k <;> decide +kernel
  keyword
    | .ctes => "WITH"
    | .recursiveCtes => "WITH RECURSIVE"
    | .select => "SELECT"
    | .distinct => "DISTINCT"
    | .distinctOn => "DISTINCT ON"
    | .top => "TOP"
    | .sources => "FROM"
    | .filter => "WHERE"
    | .groupBy => "GROUP BY"
    | .having => "HAVING"
    | .window => "WINDOW"
    | .orderBy => "ORDER BY"
    | .limit => "LIMIT"
    | .offset => "OFFSET"
    | .fetch => "FETCH"
    | .fetchOrder => "ORDER BY"
    | .forJson => "FOR JSON"
    | .insert => "INSERT"
    | .insertIgnore => "IGNORE"
    | .lowPriority => "LOW_PRIORITY"
    | .delayed => "DELAYED"
    | .highPriority => "HIGH_PRIORITY"
    | .values => "VALUES"
    | .defaultValues => "DEFAULT VALUES"
    | .onConflict => "ON CONFLICT"
    | .onDuplicateKey => "ON DUPLICATE KEY UPDATE"
    | .excluded => "EXCLUDED"
    | .update => "UPDATE"
    | .assign => "SET"
    | .delete => "DELETE"
    | .using => "USING"
    | .returning => "RETURNING"
    | .output => "OUTPUT"
    | .inserted => "inserted"
    | .deleted => "deleted"
    | .cast => "CAST"
    | .not => "NOT"
    | .default => "DEFAULT"
    | .rowsExist => "EXISTS"
    | .noRowsExist => "NOT EXISTS"
    | .member => "IN"
    | .notMember => "NOT IN"
    | .between => "BETWEEN"
    | .notBetween => "NOT BETWEEN"
    | .row => "ROW"
    | .windowed => "OVER"
    | .partitionBy => "PARTITION BY"
    | .nullsFirst => "NULLS FIRST"
    | .nullsLast => "NULLS LAST"
    | .valuesRow => "ROW"
    | .truePredicate => "TRUE"
    | .falsePredicate => "FALSE"

/-- The forms of literals, by the kind of value. -/
inductive LiteralKind where
  | null
  | true
  | false
  | text
  | bytes
  | date
  | time
  | timestamp
  | timestampTz
  | interval
  | point
  | json
  | array
  deriving DecidableEq

instance : Worded LiteralKind where
  all := [.null, .true, .false, .text, .bytes, .date, .time, .timestamp, .timestampTz, .interval,
    .point, .json, .array]
  name
    | .null => "Null"
    | .true => "True"
    | .false => "False"
    | .text => "Text"
    | .bytes => "Bytes"
    | .date => "Date"
    | .time => "Time"
    | .timestamp => "Timestamp"
    | .timestampTz => "TimestampTz"
    | .interval => "Interval"
    | .point => "Point"
    | .json => "Json"
    | .array => "Array"
  find_name k := by cases k <;> decide +kernel
  keyword
    | .null => "NULL"
    | .true => "TRUE"
    | .false => "FALSE"
    | .text => ""
    | .bytes => ""
    | .date => "DATE"
    | .time => "TIME"
    | .timestamp => "TIMESTAMP"
    | .timestampTz => "TIMESTAMP WITH TIME ZONE"
    | .interval => "INTERVAL"
    | .point => "POINT"
    | .json => "JSON"
    | .array => "ARRAY"

/-- The pieces that nest the rows of a sub-query as JSON. -/
inductive JsonKey where
  /-- An object made of pairs. -/
  | object
  /-- A key and its value in an object. -/
  | pair
  /-- The array of a value over all rows, empty if there are none. -/
  | rows
  /-- A column that holds JSON, embedded as JSON and not as text. -/
  | nested
  /-- A column that holds a geometry. -/
  | geometry
  /-- A column that holds bytes. -/
  | binary
  deriving DecidableEq

instance : Worded JsonKey where
  all := [.object, .pair, .rows, .nested, .geometry, .binary]
  name
    | .object => "Object"
    | .pair => "Pair"
    | .rows => "Rows"
    | .nested => "Nested"
    | .geometry => "Geometry"
    | .binary => "Binary"
  find_name k := by cases k <;> decide +kernel
  keyword
    | .object => "JSON_OBJECT"
    | .pair => ""
    | .rows => "JSON_ARRAYAGG"
    | .nested => ""
    | .geometry => ""
    | .binary => ""

end QueryPlan
