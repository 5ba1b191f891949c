/-!
# Closed families of names

Operators, join kinds, clauses and the like are finite types whose members have a name: the word
that stands for them in plan documents. A family that is also written into SQL has a keyword beside
it, which a dialect may replace.
-/

namespace QueryPlan

/-- A finite type with a name for each member. -/
class Named (κ : Type) where
  /-- All members, in order. -/
  all : List κ
  name : κ → String
  /-- Looking for the name of a member finds that member. -/
  find_name : ∀ k, all.find? (fun other => name other == name k) = some k

namespace Named

variable {κ : Type} [Named κ]

/-- The member with a name. -/
def ofName? (s : String) : Option κ :=
  (all : List κ).find? fun k => name k == s

@[simp] theorem ofName?_name (k : κ) : ofName? (name k) = some k :=
  find_name k

theorem mem_all (k : κ) : k ∈ (all : List κ) :=
  List.mem_of_find?_eq_some (find_name k)

end Named

/-- A family whose members are written into SQL. -/
class Worded (κ : Type) extends Named κ where
  keyword : κ → String

end QueryPlan
