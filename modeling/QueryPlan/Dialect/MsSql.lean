import QueryPlan.Dialect.Basic

/-!
# The dialect of SQL Server

The engine has no truth values in conditions, so that a conjunction or disjunction of nothing is
written as a comparison.
-/

namespace QueryPlan.Dialect

def msSql : Dialect :=
  { base .msSql .msSql with
    features := .ofList [.top, .returning, .updateFrom, .deleteUsing]
    quoteOpen := '['
    quoteClose := ']'
    placeholder := .named
    selectOrder := [.ctes, .select, .distinct, .top, .projection, .sources, .joins, .filter,
      .groupBy, .having, .orderBy, .paging, .forJson]
    insertOrder := [.ctes, .insert, .output, .values]
    updateOrder := [.ctes, .update, .assign, .output, .sources, .filter]
    deleteOrder := [.ctes, .delete, .output, .using, .filter]
    formats :=
      let f := Formats.generic
      { f with
        binaryOps := f.binaryOps
          |>.respell .concat "+"
          |>.setUnsupported [.jsonGet, .jsonGetText]
        unaryPredicates := f.unaryPredicates
          |>.setFormatWithStrength .isTrue "{operand} = 1" 6
          |>.setFormatWithStrength .isFalse "{operand} = 0" 6
        binaryPredicates := f.binaryPredicates
          |>.respell .iLike "LIKE"
          |>.respell .notILike "NOT LIKE"
          |>.setUnsupported [.regex]
        aggregates := f.aggregates
          |>.respell .stdDev "STDEV"
          |>.respell .variance "VAR"
          |>.respell .boolAnd "MIN"
          |>.respell .boolOr "MAX"
        setOps := f.setOps.setUnsupported [.intersectAll, .exceptAll]
        keywords := f.keywords
          |>.respell .recursiveCtes "WITH"
          |>.respell .using "FROM"
          |>.setFormatWithStrength .truePredicate "1 = 1" 6
          |>.setFormatWithStrength .falsePredicate "1 = 0" 6
        literals := f.literals
          |>.respell .true "1"
          |>.respell .false "0"
          |>.setFormat .text "N{value}"
          |>.setFormat .date "CAST({value} AS DATE)"
          |>.setFormat .time "CAST({value} AS TIME)"
          |>.setFormat .timestamp "CAST({value} AS DATETIME2)"
          |>.setFormat .timestampTz "CAST({value} AS DATETIMEOFFSET)"
          |>.setFormat .point "geometry::Point({x}, {y}, 0)"
          |>.setFormat .json "{value}"
          |>.setFormat .bytes "0x{hex}"
          |>.setUnsupported [.interval, .array]
        types := f.types
          |>.respell .boolean "BIT"
          |>.respell .double "FLOAT"
          |>.setFormat .text "NVARCHAR(MAX)"
          |>.respell .varchar "NVARCHAR"
          |>.setFormat .bytes "VARBINARY(MAX)"
          |>.respell .uuid "UNIQUEIDENTIFIER"
          |>.respell .timestamp "DATETIME2"
          |>.respell .timestampTz "DATETIMEOFFSET"
          |>.setFormat .json "NVARCHAR(MAX)"
          |>.respell .point "GEOMETRY"
          |>.setUnsupported [.interval, .array]
        json := f.json
          |>.setFormat .nested "JSON_QUERY({value})"
          |>.setFormat .geometry "{value}.STAsText()"
          |>.setFormat .binary "CONVERT(VARCHAR(MAX), {value}, 2)" } }

end QueryPlan.Dialect
