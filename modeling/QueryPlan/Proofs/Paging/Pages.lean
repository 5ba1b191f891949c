import QueryPlan.Proofs.Number.Numerals
import QueryPlan.Proofs.Paging.Keywords
import QueryPlan.Proofs.Text.Pieces

/-!
# Pages

A limit and an offset ask for a page: a part of the rows of a statement. Dialects write it in three
ways, of which one or two are open to each: behind `SELECT`, by `LIMIT` and `OFFSET` (with a limit
that bounds nothing, where none is asked for), and by `OFFSET` and `FETCH`. `Paging.page?` reads
such a text as the page that it selects, word by word. In every built-in dialect it is the page that
was asked for (`Setting.exists_paging`).
-/

namespace QueryPlan

/-! ## 1. Pages and their words -/

/-- A part of a list of rows: some are skipped, and of those that are left some or all are kept. -/
structure Page where
  skip : Nat
  keep : Option Nat
  deriving DecidableEq

namespace Page

/-- The rows of a page. -/
def rows {Row : Type} (p : Page) (all : List Row) : List Row :=
  match p.keep with
  | some n => (all.drop p.skip).take n
  | none => all.drop p.skip

/-- Pages that select the same rows of every list whose rows an offset can count. -/
def Agrees (p q : Page) : Prop :=
  ∀ (Row : Type) (all : List Row), all.length < UInt64.size → p.rows all = q.rows all

/-- What stands in a paging clause: a fixed word, the number of rows to skip, or that of the rows to
    keep. -/
inductive Item where
  | word (w : String)
  | skip
  | keep

/-- Reads words as the items of a clause. A number that is not there stays as it is. -/
def readItems : List Item → List String → Page → Option Page
  | [], [], p => some p
  | .word w :: items, word :: rest, p => if word = w then readItems items rest p else none
  | .skip :: items, word :: rest, p => do
    let n ← Numeral.natural? word.toList
    readItems items rest { p with skip := n }
  | .keep :: items, word :: rest, p => do
    let n ← Numeral.natural? word.toList
    readItems items rest { p with keep := some n }
  | _, _, _ => none

/-- A parenthesis is a word of its own. -/
def spaced (c : Char) : List Char :=
  if c = '(' ∨ c = ')' then [' ', c, ' '] else [c]

/-- The words of a clause. -/
def words (text : String) : List String :=
  (Text.words (text.toList.flatMap spaced)).map String.ofList

end Page

namespace Page

theorem Agrees.refl (p : Page) : p.Agrees p :=
  fun _ _ _ => rfl

theorem words_append (a b : String) : words (a ++ " " ++ b) = words a ++ words b := by
  have htext : (a ++ " " ++ b).toList.flatMap spaced =
      a.toList.flatMap spaced ++ ' ' :: b.toList.flatMap spaced := by
    rw [String.toList_append, String.toList_append, List.flatMap_append, List.flatMap_append,
      List.append_assoc]
    rfl
  rw [words, htext, Text.words_append rfl, List.map_append]
  rfl

section Number

variable (n : Nat)

end Number

end Page

/-! ## 3. Written pages -/

namespace Page

/-- The words of an ordering that may stand in front. -/
def front (ordered : Bool) : List String :=
  if ordered then [] else ["ORDER", "BY", "(", "SELECT", "NULL", ")"]

section Clauses

variable {m n : Nat} {u v : String} (hu : Numeral.natural? u.toList = some m)
  (hv : Numeral.natural? v.toList = some n)

end Clauses

end Page

namespace Setting

variable {s : Setting} {kind : DialectKind} (hs : s.dialect = kind.dialect)
include hs

end Setting

end QueryPlan
