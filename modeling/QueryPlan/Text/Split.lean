/-!
# Pieces of a text
-/

namespace QueryPlan.Text

/-- The pieces of a text between marks. -/
def splitOn (mark : Char) : List Char → List (List Char)
  | [] => [[]]
  | c :: cs =>
    match splitOn mark cs with
    | piece :: pieces => if c == mark then [] :: piece :: pieces else (c :: piece) :: pieces
    | [] => [[]]

end QueryPlan.Text
