import QueryPlan.Dialect.Basic

/-!
# The dialect of SQLite

The engine keeps dates and times as text.
-/

namespace QueryPlan.Dialect

def sqLite : Dialect :=
  { base .sqLite .sqLite with
    features := .ofList [.aggregateFilter, .onConflict, .insertIgnore, .returning, .limitOffset,
      .nullsOrdering, .namedWindows, .jsonFunctions, .updateFrom]
    deleteOrder := [.ctes, .delete, .filter, .returning]
    formats :=
      let f := Formats.generic
      { f with
        binaryPredicates := f.binaryPredicates
          |>.setFormat .iLike "LOWER({left:0}) LIKE LOWER({right:0})"
          |>.setFormat .notILike "LOWER({left:0}) NOT LIKE LOWER({right:0})"
          |>.respell .regex "REGEXP"
          |>.respell .isDistinctFrom "IS NOT"
          |>.respell .isNotDistinctFrom "IS"
        aggregates := f.aggregates
          |>.respell .boolAnd "MIN"
          |>.respell .boolOr "MAX"
          |>.setUnsupported [.stdDev, .variance]
        setOps := f.setOps.setUnsupported [.intersectAll, .exceptAll]
        keywords := f.keywords
          |>.respell .insertIgnore "OR IGNORE"
          |>.respell .excluded "excluded"
          |>.setCascading .offset [("unbounded", "LIMIT -1 {keyword} {offset}")]
        literals := f.literals
          |>.setFormat .date "{value}"
          |>.setFormat .time "{value}"
          |>.setFormat .timestamp "{value}"
          |>.setFormat .timestampTz "{value}"
          |>.setFormat .json "json({value})"
          |>.setUnsupported [.interval, .point, .array]
        types := f.types
          |>.respell .boolean "INTEGER"
          |>.respell .smallInt "INTEGER"
          |>.respell .bigInt "INTEGER"
          |>.respell .double "REAL"
          |>.respell .decimal "NUMERIC"
          |>.respell .varchar "TEXT"
          |>.respell .uuid "TEXT"
          |>.respell .date "TEXT"
          |>.respell .time "TEXT"
          |>.respell .timestamp "TEXT"
          |>.respell .timestampTz "TEXT"
          |>.respell .json "TEXT"
          |>.respell .bytes "BLOB"
          |>.setUnsupported [.interval, .point, .array]
        json := f.json
          |>.respell .object "json_object"
          |>.setFormat .pair "{key}, {value}"
          |>.setFormat .rows "coalesce(json_group_array({value}), json_array())"
          |>.setFormat .nested "json({value})"
          |>.setFormat .binary "hex({value})" } }

end QueryPlan.Dialect
