import QueryPlan.Dialect.Basic

/-!
# The dialect of PostgreSQL
-/

namespace QueryPlan.Dialect

def postgres : Dialect :=
  { base .postgres .standard with
    features := .ofList [.aggregateFilter, .distinctOn, .rowConstructor, .onConflict, .returning,
      .limitOffset, .nullsOrdering, .namedWindows, .jsonFunctions, .updateFrom, .deleteUsing,
      .mutationCte]
    placeholder := .numbered
    formats :=
      let f := Formats.generic
      { f with
        binaryOps := f.binaryOps.respell .bitXor "#"
        literals := f.literals
          |>.respell .timestampTz "TIMESTAMPTZ"
          |>.setFormat .interval "{keyword} {value}"
          |>.setFormat .point "point({x}, {y})"
          |>.setFormat .bytes "decode('{hex}', 'hex')"
          |>.setFormat .json "{value}::json"
        types := f.types
          |>.respell .timestampTz "TIMESTAMPTZ"
          |>.respell .bytes "BYTEA"
          |>.setFormat .array "{element}[]"
        json := f.json
          |>.respell .object "json_build_object"
          |>.setFormat .pair "{key}, {value}"
          |>.setFormat .rows "coalesce(json_agg({value}), '[]')" } }

end QueryPlan.Dialect
