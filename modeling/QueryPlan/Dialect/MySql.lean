import QueryPlan.Dialect.Basic

/-!
# The dialect of MySQL
-/

namespace QueryPlan.Dialect

def mySql : Dialect :=
  { base .mySql .mySql with
    features := .ofList [.unsigned, .rowConstructor, .insertPriority, .insertIgnore,
      .upsertOnDuplicate, .limitOffset, .namedWindows, .jsonFunctions, .multiTableMutation]
    quoteOpen := '\x60'
    quoteClose := '\x60'
    updateOrder := [.ctes, .update, .assign, .filter, .orderBy, .paging]
    deleteOrder := [.ctes, .delete, .filter, .orderBy, .paging]
    formats :=
      let f := Formats.generic
      { f with
        binaryOps := f.binaryOps
          |>.setFormatWithStrength .concat "CONCAT({left:0}, {right:0})" 100
        binaryPredicates := f.binaryPredicates
          |>.respell .regex "REGEXP"
          |>.respell .isNotDistinctFrom "<=>"
          |>.setFormatWithStrength .isDistinctFrom "NOT ({left:0} <=> {right:0})" 4
          |>.setFormat .iLike "LOWER({left:0}) LIKE LOWER({right:0})"
          |>.setFormat .notILike "LOWER({left:0}) NOT LIKE LOWER({right:0})"
        aggregates := f.aggregates
          |>.respell .boolAnd "MIN"
          |>.respell .boolOr "MAX"
        joins := f.joins.setUnsupported [.full]
        keywords := f.keywords
          |>.respell .defaultValues "VALUES ()"
          |>.setFormat .excluded "VALUES({column})"
          |>.setFormat .valuesRow "{keyword}({elements})"
          |>.setCascading .offset
            [("unbounded", "LIMIT 18446744073709551615 {keyword} {offset}")]
          |>.setCascading .delete [("target", "{keyword} {target} FROM {table}")]
        literals := f.literals
          |>.respell .timestampTz "TIMESTAMP"
          |>.setFormat .point "ST_GeomFromText('POINT({x} {y})')"
          |>.setUnsupported [.array]
        types := f.types
          |>.respell .boolean "SIGNED"
          |>.respell .smallInt "SIGNED"
          |>.respell .integer "SIGNED"
          |>.respell .bigInt "SIGNED"
          |>.respell .unsignedInteger "UNSIGNED"
          |>.respell .unsignedBigInt "UNSIGNED"
          |>.respell .real "FLOAT"
          |>.respell .double "DOUBLE"
          |>.respell .text "CHAR"
          |>.respell .varchar "CHAR"
          |>.respell .bytes "BINARY"
          |>.setFormat .uuid "CHAR(36)"
          |>.respell .timestamp "DATETIME"
          |>.respell .timestampTz "DATETIME"
          |>.setUnsupported [.interval, .array]
        json := f.json
          |>.setFormat .pair "{key}, {value}"
          |>.setFormat .geometry "ST_AsGeoJSON({value})"
          |>.setFormat .binary "HEX({value})" } }

end QueryPlan.Dialect
