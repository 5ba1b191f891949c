import QueryPlan.Dialect.Basic
import QueryPlan.Document.Value
import QueryPlan.Json.Printer

/-!
# Options

What a caller decides about compiling and decoding. A detector gives a column without a declared
type another value; it sees the name of the column and the value that came.
-/

namespace QueryPlan

/-- Gives another value for a column, or nothing if it does not know the value. -/
abbrev Detector := (column : String) → Value → Option Value

/-- How columns without a declared type are decoded. -/
structure DetectOptions where
  /-- Text that looks like a JSON object or array is read as JSON. -/
  json : Bool := false
  /-- Text that looks like a date or a timestamp is read as one. -/
  date : Bool := false
  /-- Tried in order before anything else. -/
  custom : List Detector := []

structure Options where
  /-- The built-in dialect to compile for. -/
  target : DialectKind := .generic
  /-- Lays the SQL out on several lines. -/
  format : Bool := false
  /-- Reports what the dialect lacks, and does not make do without it. -/
  strict : Bool := true
  /-- Turns constants into parameters. -/
  constantsAsParams : Bool := true
  /-- Leaves out the qualifier of a column where the column is clear without it. -/
  simplifyReferences : Bool := true
  /-- Gives rows as they are. -/
  raw : Bool := false
  /-- Decodes rows to arrays and not to objects. -/
  arrayMode : Bool := false
  /-- Gives the number of affected rows beside the result. -/
  affectedCount : Bool := false
  detect : DetectOptions := {}

namespace Options

open Document

def toDocument (o : Options) : Json :=
  .object [("target", ofNamed o.target), ("format", .bool o.format),
    ("throw_error", .bool o.strict), ("constants_as_params", .bool o.constantsAsParams),
    ("simplify_references", .bool o.simplifyReferences), ("raw", .bool o.raw),
    ("array_mode", .bool o.arrayMode), ("affected_count", .bool o.affectedCount),
    ("detect", .object [("json", .bool o.detect.json), ("date", .bool o.detect.date)])]

/-- Detectors are no part of documents. -/
def detectOfDocument? (j : Part) : Option DetectOptions := do
  match ← recordFields? ["json", "date"] j with
  | [json, date] => some { json := ← needed bool? json, date := ← needed bool? date }
  | _ => none

def ofDocument? (j : Part) : Option Options := do
  match ← recordFields? ["target", "format", "throw_error", "constants_as_params",
    "simplify_references", "raw", "array_mode", "affected_count", "detect"] j with
  | [target, format, strict, constantsAsParams, simplifyReferences, raw, arrayMode,
      affectedCount, detect] =>
    some
      { target := ← needed named? target
        format := ← needed bool? format
        strict := ← needed bool? strict
        constantsAsParams := ← needed bool? constantsAsParams
        simplifyReferences := ← needed bool? simplifyReferences
        raw := ← needed bool? raw
        arrayMode := ← needed bool? arrayMode
        affectedCount := ← needed bool? affectedCount
        detect := ← needed detectOfDocument? detect }
  | _ => none

/-- The options of a document given as text. -/
def ofDocumentText? (text : String) : Option Options :=
  (Part.ofText? text).bind ofDocument?

end Options

end QueryPlan
