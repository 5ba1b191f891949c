import QueryPlan.Dialect.Conventions
import QueryPlan.Dialect.Feature
import QueryPlan.Dialect.Keyword
import QueryPlan.Dialect.Reserved
import QueryPlan.Format.Registry
import QueryPlan.Plan.Operator
import QueryPlan.Value.DataType

/-!
# Dialects

A dialect says how plans are written for one engine: a registry of templates for each family, its
features, how identifiers are quoted, how parameters are marked, and the order of the clauses of
each statement. Dialects start from the generic one and change what their engine lacks or spells in
another way; `generic` stands here, since every dialect is built on it.
-/

namespace QueryPlan

/-! ## 1. Types -/

/-- The built-in dialects. -/
inductive DialectKind where
  | generic
  | postgres
  | mySql
  | msSql
  | sqLite
  deriving DecidableEq, Inhabited

instance : Worded DialectKind where
  all := [.generic, .postgres, .mySql, .msSql, .sqLite]
  name
    | .generic => "Generic"
    | .postgres => "Postgres"
    | .mySql => "MySql"
    | .msSql => "MsSql"
    | .sqLite => "SQLite"
  find_name k := by cases k <;> rfl
  keyword
    | .generic => "generic"
    | .postgres => "postgres"
    | .mySql => "mysql"
    | .msSql => "mssql"
    | .sqLite => "sqlite"

/-- The kind with a lower case name. -/
def DialectKind.ofWord? (word : String) : Option DialectKind :=
  (Named.all : List DialectKind).find? fun k => Worded.keyword k == word

/-- How parameters are marked. -/
inductive PlaceholderStyle where
  /-- A question mark for each use. -/
  | positional
  /-- A dollar sign and a number, which the uses of one name share. -/
  | numbered
  /-- An at sign and a name; constants are named `p1`, `p2` and so on. -/
  | named
  deriving DecidableEq

instance : Named PlaceholderStyle where
  all := [.positional, .numbered, .named]
  name
    | .positional => "Positional"
    | .numbered => "Numbered"
    | .named => "Named"
  find_name k := by cases k <;> rfl

/-- The registries of a dialect. -/
structure Formats where
  unaryOps : Registry UnaryOperator
  binaryOps : Registry BinaryOperator
  unaryPredicates : Registry UnaryPredicate
  binaryPredicates : Registry BinaryPredicate
  aggregates : Registry AggregateKind
  joins : Registry JoinKind
  setOps : Registry SetOperator
  keywords : Registry Keyword
  literals : Registry LiteralKind
  types : Registry TypeKind
  json : Registry JsonKey

/-- How plans are written for an engine. -/
structure Dialect where
  kind : DialectKind
  features : FeatureSet
  /-- Further reserved words, in lower case. -/
  reserved : List String
  quoteOpen : Char
  quoteClose : Char
  placeholder : PlaceholderStyle
  formats : Formats
  selectOrder : List Clause
  insertOrder : List Clause
  updateOrder : List Clause
  deleteOrder : List Clause
  conventions : Conventions

/-! ## 2. Identifiers -/

/-- Characters that a plain identifier can start with. -/
def isIdentStart (c : Char) : Bool :=
  ('a' ≤ c && c ≤ 'z') || c == '_' || c == '$'

/-- Characters that a plain identifier can go on with. -/
def isIdentRest (c : Char) : Bool :=
  isIdentStart c || ('0' ≤ c && c ≤ '9')

/-- Plain identifiers: a lower case name, or `*`. -/
def isPlainIdent : List Char → Bool
  | [] => false
  | c :: cs => (c == '*' && cs.isEmpty) || (isIdentStart c && cs.all isIdentRest)

/-- An identifier between quotes, with the closing quote doubled inside. -/
def quoteChars (quoteOpen quoteClose : Char) (ident : List Char) : List Char :=
  quoteOpen :: ident.flatMap (fun c => if c = quoteClose then [c, c] else [c]) ++ [quoteClose]

namespace Dialect

def has (d : Dialect) (f : Feature) : Bool :=
  d.features.has f

def isReserved (d : Dialect) (word : String) : Bool :=
  isReservedWord word || d.reserved.contains (lowerAscii word)

/-- An identifier as it is written: plain if it is a lower case name that is not reserved, else
    between quotes. -/
def quoteIdent (d : Dialect) (ident : String) : String :=
  if isPlainIdent ident.toList && !d.isReserved ident then ident
  else String.ofList (quoteChars d.quoteOpen d.quoteClose ident.toList)

end Dialect

/-! ## 3. The generic dialect -/

namespace Formats

/-- The templates of aggregates. A filter is given as `filter` where the dialect has filters, and
    as `filter_case` where it has none. -/
def genericAggregates : Registry AggregateKind :=
  (Named.all : List AggregateKind).foldl
    (fun r kind => r.setCascading kind
      [("filter", "{keyword}({distinct}{arg}) FILTER (WHERE {filter})"),
        ("filter_case", "{keyword}({distinct}CASE WHEN {filter_case} THEN {arg} END)")])
    (.ofDefault "{keyword}({distinct}{arg})")

def genericJoins : Registry JoinKind :=
  (Named.all : List JoinKind).foldl
    (fun r kind => r.setCascading kind [("condition", "{keyword} {source} ON {condition}")])
    (.ofDefault "{keyword} {source}")

def genericKeywords : Registry Keyword :=
  (.ofDefault "{keyword}" : Registry Keyword)
    |>.setFormat .distinctOn "{keyword} ({exprs})"
    |>.setFormat .top "{keyword} ({limit})"
    |>.setFormat .limit "{keyword} {limit}"
    |>.setFormat .offset "{keyword} {offset}"
    |>.setCascading .fetch
      [("limit", "OFFSET {offset} ROWS FETCH NEXT {limit} ROWS ONLY"),
        ("*", "OFFSET {offset} ROWS")]
    |>.setFormat .fetchOrder "{keyword} (SELECT NULL)"
    |>.setCascading .forJson
      [("single", "{keyword} PATH, INCLUDE_NULL_VALUES, WITHOUT_ARRAY_WRAPPER"),
        ("*", "{keyword} PATH, INCLUDE_NULL_VALUES")]
    |>.setFormat .insert "{keyword}{modifiers} INTO {table}{columns}"
    |>.setFormat .onConflict "{keyword}{target} {action}"
    |>.setFormat .onDuplicateKey "{keyword} {assignments}"
    |>.setFormat .excluded "{keyword}.{column}"
    |>.setFormat .update "{keyword} {table}"
    |>.setFormat .assign "{keyword} {assignments}"
    |>.setFormat .delete "{keyword} FROM {table}"
    |>.setFormat .cast "{keyword}({operand:0} AS {type})"
    |>.setFormat .not "{keyword} {operand}"
    |>.setFormat .rowsExist "{keyword} ({query})"
    |>.setFormat .noRowsExist "{keyword} ({query})"
    |>.setFormat .member "{value} {keyword} ({list})"
    |>.setFormat .notMember "{value} {keyword} ({list})"
    |>.setFormat .between "{value} {keyword} {low} AND {high}"
    |>.setFormat .notBetween "{value} {keyword} {low} AND {high}"
    |>.setFormat .row "{keyword}({elements})"
    |>.setFormat .valuesRow "({elements})"
    |>.setFormat .windowed "{expr} {keyword} {window}"

def genericLiterals : Registry LiteralKind :=
  (.ofDefault "{keyword} {value}" : Registry LiteralKind)
    |>.setFormat .null "{keyword}"
    |>.setFormat .true "{keyword}"
    |>.setFormat .false "{keyword}"
    |>.setFormat .text "{value}"
    |>.setFormat .bytes "X'{hex}'"
    |>.setFormat .point "{keyword}({x}, {y})"
    |>.setFormat .json "CAST({value} AS {keyword})"
    |>.setFormat .array "{keyword}[{elements}]"

def genericTypes : Registry TypeKind :=
  (.ofDefault "{keyword}{args}" : Registry TypeKind)
    |>.setFormat .custom "{name}{args}"
    |>.setFormat .array "{element} {keyword}"

def genericJson : Registry JsonKey :=
  (.ofDefault "{keyword}({args})" : Registry JsonKey)
    |>.setFormat .object "{keyword}({pairs})"
    |>.setFormat .pair "{key} VALUE {value}"
    |>.setFormat .rows "COALESCE({keyword}({value}), JSON_ARRAY())"
    |>.setFormat .nested "{value}"
    |>.setFormat .geometry "{value}"
    |>.setFormat .binary "{value}"

def generic : Formats :=
  { unaryOps := .ofDefault "{keyword}{operand}"
    binaryOps := .ofDefault "{left} {keyword} {right}"
    unaryPredicates := .ofDefault "{operand} {keyword}"
    binaryPredicates := .ofDefault "{left} {keyword} {right}"
    aggregates := genericAggregates
    joins := genericJoins
    setOps := .ofDefault "{keyword}"
    keywords := genericKeywords
    literals := genericLiterals
    types := genericTypes
    json := genericJson }

end Formats

namespace Dialect

/-- The dialect that others start from, with the kind and the conventions of one of them. -/
def base (kind : DialectKind) (conventions : Conventions) : Dialect :=
  { kind
    features := .ofList [.aggregateFilter, .rowConstructor, .nullsOrdering, .namedWindows,
      .jsonFunctions]
    reserved := []
    quoteOpen := '"'
    quoteClose := '"'
    placeholder := .positional
    formats := .generic
    selectOrder := [.ctes, .select, .distinct, .projection, .sources, .joins, .filter, .groupBy,
      .having, .windows, .orderBy, .paging]
    insertOrder := [.ctes, .insert, .values, .upsert, .returning]
    updateOrder := [.ctes, .update, .assign, .sources, .filter, .returning]
    deleteOrder := [.ctes, .delete, .using, .filter, .returning]
    conventions }

def generic : Dialect :=
  base .generic .standard

/-! ## 4. Derived dialects -/

def withFeatures (d : Dialect) (features : FeatureSet) : Dialect := { d with features }

def addSupport (d : Dialect) (features : FeatureSet) : Dialect :=
  { d with features := d.features.union features }

def removeSupport (d : Dialect) (features : FeatureSet) : Dialect :=
  { d with features := d.features.diff features }

def withQuotes (d : Dialect) (quoteOpen quoteClose : Char) : Dialect :=
  { d with quoteOpen, quoteClose }

def withPlaceholder (d : Dialect) (placeholder : PlaceholderStyle) : Dialect :=
  { d with placeholder }

/-- Adds words that have to be quoted as identifiers, in any case. -/
def reserve (d : Dialect) (words : List String) : Dialect :=
  { d with reserved := d.reserved ++ words.map lowerAscii }

def withFormats (d : Dialect) (change : Formats → Formats) : Dialect :=
  { d with formats := change d.formats }

end Dialect

end QueryPlan
