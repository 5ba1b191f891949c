import QueryPlan.Value.Basic

/-!
# Arrays as text

A one-dimensional array in text is a list in braces with commas between the items. An item may stand
in double quotes, in which a backslash takes the next character as it is. `NULL` without quotes is a
null; every other item is a text.
-/

namespace QueryPlan.ArrayText

/-- An item, given by its characters and whether any of it was in quotes. -/
def item (cs : List Char) (wasQuoted : Bool) : Value :=
  if !wasQuoted && cs.map Char.toLower == "null".toList then .null else .text (String.ofList cs)

/-- Reads the items that follow. `current` is what is read of the item so far, in reverse;
    `quoted` says whether it goes on in quotes, `wasQuoted` whether it had any. -/
def items? (current : List Char) (quoted wasQuoted : Bool) : List Char → Option (List Value)
  | [] => if quoted then none else some [item current.reverse wasQuoted]
  | '"' :: rest => items? current (!quoted) true rest
  | '\\' :: c :: rest =>
    if quoted then items? (c :: current) quoted wasQuoted rest
    else items? ('\\' :: current) quoted wasQuoted (c :: rest)
  | ['\\'] => if quoted then none else some [item ('\\' :: current).reverse wasQuoted]
  | c :: rest =>
    if c = ',' ∧ !quoted then
      (items? [] false false rest).map (item current.reverse wasQuoted :: ·)
    else items? (c :: current) quoted wasQuoted rest

/-- The items of an array in text that has no blanks around it. -/
def parse? : List Char → Option (List Value)
  | '\x7b' :: rest =>
    match rest.getLast? with
    | some '\x7d' => if rest.dropLast.isEmpty then some [] else items? [] false false rest.dropLast
    | _ => none
  | _ => none

end QueryPlan.ArrayText
