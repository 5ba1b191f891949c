import QueryPlan.Named

/-!
# Features of dialects

What a dialect can say beyond the common core. A set of features is kept as one bit for each, in the
order of `Feature`.
-/

namespace QueryPlan

inductive Feature where
  | unsigned
  /-- An aggregate with `FILTER (WHERE …)`. -/
  | aggregateFilter
  | distinctOn
  /-- A row as `ROW(a, b)`. -/
  | rowConstructor
  /-- `INSERT` with a priority. -/
  | insertPriority
  | insertIgnore
  /-- `ON DUPLICATE KEY UPDATE`. -/
  | upsertOnDuplicate
  /-- `ON CONFLICT (…) DO …`. -/
  | onConflict
  | returning
  /-- Paging as `LIMIT n OFFSET m` and not as `OFFSET m ROWS FETCH NEXT n ROWS ONLY`. -/
  | limitOffset
  /-- `SELECT TOP (n)`. -/
  | top
  | nullsOrdering
  /-- `WINDOW w AS (…)`. -/
  | namedWindows
  /-- Functions that build JSON, by which sub-queries are nested. -/
  | jsonFunctions
  | updateFrom
  | deleteUsing
  /-- Joins inside `UPDATE` and `DELETE`. -/
  | multiTableMutation
  /-- Changes of tables inside `WITH`. -/
  | mutationCte
  deriving DecidableEq

instance : Named Feature where
  all := [.unsigned, .aggregateFilter, .distinctOn, .rowConstructor, .insertPriority, .insertIgnore,
    .upsertOnDuplicate, .onConflict, .returning, .limitOffset, .top, .nullsOrdering, .namedWindows,
    .jsonFunctions, .updateFrom, .deleteUsing, .multiTableMutation, .mutationCte]
  name
    | .unsigned => "UNSIGNED"
    | .aggregateFilter => "AGGREGATE_FILTER"
    | .distinctOn => "DISTINCT_ON"
    | .rowConstructor => "ROW_CONSTRUCTOR"
    | .insertPriority => "INSERT_PRIORITY"
    | .insertIgnore => "INSERT_IGNORE"
    | .upsertOnDuplicate => "UPSERT_ON_DUPLICATE"
    | .onConflict => "ON_CONFLICT"
    | .returning => "RETURNING"
    | .limitOffset => "LIMIT_OFFSET"
    | .top => "TOP"
    | .nullsOrdering => "NULLS_ORDERING"
    | .namedWindows => "NAMED_WINDOWS"
    | .jsonFunctions => "JSON_FUNCTIONS"
    | .updateFrom => "UPDATE_FROM"
    | .deleteUsing => "DELETE_USING"
    | .multiTableMutation => "MULTI_TABLE_MUTATION"
    | .mutationCte => "MUTATION_CTE"
  find_name k := by cases k <;> decide +kernel

/-- The place of a feature's bit. -/
def Feature.position : Feature → Nat
  | .unsigned => 0
  | .aggregateFilter => 1
  | .distinctOn => 2
  | .rowConstructor => 3
  | .insertPriority => 4
  | .insertIgnore => 5
  | .upsertOnDuplicate => 6
  | .onConflict => 7
  | .returning => 8
  | .limitOffset => 9
  | .top => 10
  | .nullsOrdering => 11
  | .namedWindows => 12
  | .jsonFunctions => 13
  | .updateFrom => 14
  | .deleteUsing => 15
  | .multiTableMutation => 16
  | .mutationCte => 17

/-- A set of features, one bit for each. -/
structure FeatureSet where
  bits : BitVec 18
  deriving DecidableEq

namespace FeatureSet

def empty : FeatureSet := ⟨0⟩

def all : FeatureSet := ⟨BitVec.allOnes 18⟩

def single (f : Feature) : FeatureSet := ⟨BitVec.twoPow 18 f.position⟩

def union (s t : FeatureSet) : FeatureSet := ⟨s.bits ||| t.bits⟩

def inter (s t : FeatureSet) : FeatureSet := ⟨s.bits &&& t.bits⟩

def diff (s t : FeatureSet) : FeatureSet := ⟨s.bits &&& ~~~t.bits⟩

def compl (s : FeatureSet) : FeatureSet := all.diff s

/-- Whether a set has all features of another. -/
def contains (s t : FeatureSet) : Bool := s.bits &&& t.bits == t.bits

def has (s : FeatureSet) (f : Feature) : Bool := s.contains (single f)

def ofList (features : List Feature) : FeatureSet :=
  features.foldl (fun s f => s.union (single f)) empty

/-- The features of a set, in order. -/
def toList (s : FeatureSet) : List Feature :=
  (Named.all : List Feature).filter s.has

/-- The names of the features, in order. -/
def names (s : FeatureSet) : List String :=
  s.toList.map Named.name

/-- A set in one line. -/
def render (s : FeatureSet) : String :=
  "Features(" ++ " | ".intercalate s.names ++ ")"

end FeatureSet

end QueryPlan
