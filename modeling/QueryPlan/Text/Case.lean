/-!
# Letter case

Letters beyond ASCII keep their case.
-/

namespace QueryPlan

/-- The ASCII letters of a text in lower case. -/
def lowerAscii (s : String) : String :=
  String.ofList (s.toList.map Char.toLower)

end QueryPlan
