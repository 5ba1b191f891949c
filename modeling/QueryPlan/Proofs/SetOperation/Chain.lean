import Mathlib.Data.Multiset.Dedup
import Mathlib.Data.Multiset.UnionInter
import QueryPlan.Plan.Basic

/-!
# Chains of set operations

A chain combines branches by operators on the multisets of their rows (`SetOperator.rows`). A plan
combines them from left to right; by the precedence of standard SQL, PostgreSQL and SQL Server, a
chain without parentheses is read with intersections first (`readGroups`). Both are trees over the
branches (`SetTree`).

The two trees are the same if all intersections come first in the chain, and in every other chain
there are rows for which the results differ (`readGroups_rows_iff`).
-/

namespace QueryPlan

variable {op : SetOperator}

/-! ## 1. Rows -/

namespace SetOperator

/-- Whether an operator binds more strongly than the others. -/
def isIntersect : SetOperator → Bool
  | intersect => true
  | intersectAll => true
  | _ => false

variable {Row : Type} [DecidableEq Row]

/-- The rows of a combination. Without `ALL` a row comes once. -/
def rows : SetOperator → Multiset Row → Multiset Row → Multiset Row
  | union, a, b => (a + b).dedup
  | unionAll, a, b => a + b
  | intersect, a, b => (a ∩ b).dedup
  | intersectAll, a, b => a ∩ b
  | except, a, b => (a.filter (· ∉ b)).dedup
  | exceptAll, a, b => a - b

theorem rows_zero_left {b : Multiset Row} (h : b = 0 ∨ op.isIntersect = true) :
    op.rows 0 b = 0 := by
  rcases h with rfl | h
  · cases op <;> simp [rows]
  · cases op <;> simp_all [rows, isIntersect]

theorem rows_zero_of_isIntersect (h : op.isIntersect = true) (a : Multiset Row) :
    op.rows a 0 = 0 := by
  cases op <;> simp_all [rows, isIntersect]

theorem rows_singleton_zero (h : op.isIntersect = false) (r : Row) : op.rows {r} 0 = {r} := by
  cases op <;> simp_all [rows, isIntersect]

theorem rows_singleton_self (h : op.isIntersect = true) (r : Row) : op.rows {r} {r} = {r} := by
  have hself : ({r} : Multiset Row) ∩ {r} = {r} :=
    Multiset.ext.2 fun x => by rw [Multiset.count_inter, min_self]
  cases op <;> simp_all [rows, isIntersect]

end SetOperator

/-! ## 2. Trees -/

/-- Branches combined in some grouping. -/
inductive SetTree (α : Type) where
  | branch (b : α)
  | combine (op : SetOperator) (left right : SetTree α)
  deriving DecidableEq

namespace SetTree

variable {α Row : Type} [DecidableEq Row]

/-- The rows of a tree, where its branches have rows. -/
def rows (ρ : α → Multiset Row) : SetTree α → Multiset Row
  | branch b => ρ b
  | combine op l r => op.rows (l.rows ρ) (r.rows ρ)

/-- Further branches combined from left to right. -/
def extend (t : SetTree α) (rest : List (SetOperator × α)) : SetTree α :=
  rest.foldl (fun t (op, b) => combine op t (branch b)) t

theorem rows_extend (ρ : α → Multiset Row) (t : SetTree α) (rest : List (SetOperator × α)) :
    (t.extend rest).rows ρ = rest.foldl (fun rows (op, b) => op.rows rows (ρ b)) (t.rows ρ) := by
  unfold extend
  induction rest generalizing t with
  | nil => rfl
  | cons step rest ih => exact ih _

end SetTree

/-! ## 3. Reading by precedence -/

variable {α : Type} {rest leading : List (SetOperator × α)}

/-- A group of intersections behind what stands in front of it. -/
def joinGroup (front : Option (SetTree α × SetOperator)) (group : SetTree α) : SetTree α :=
  match front with
  | some (t, op) => .combine op t group
  | none => group

/-- Reads a chain. An intersection goes on with the group in front of it; another operator ends the
    group, and takes all that has been read as its left operand. -/
def readGroups (front : Option (SetTree α × SetOperator)) (group : SetTree α) :
    List (SetOperator × α) → SetTree α
  | [] => joinGroup front group
  | (op, b) :: rest =>
    if op.isIntersect then readGroups front (.combine op group (.branch b)) rest
    else readGroups (some (joinGroup front group, op)) (.branch b) rest

theorem readGroups_cons (front : Option (SetTree α × SetOperator)) (group : SetTree α)
    (step : SetOperator × α) (rest : List (SetOperator × α)) :
    readGroups front group (step :: rest) =
      if step.1.isIntersect then readGroups front (.combine step.1 group (.branch step.2)) rest
      else readGroups (some (joinGroup front group, step.1)) (.branch step.2) rest :=
  rfl

/-- Whether all intersections come before other operators. -/
def intersectsFirst (ops : List SetOperator) : Bool :=
  (ops.dropWhile SetOperator.isIntersect).all fun op => !op.isIntersect

example : intersectsFirst [.intersect, .intersectAll, .union, .except] = true := by decide
example : intersectsFirst [.union, .intersect] = false := by decide

theorem readGroups_of_not_isIntersect (h : ∀ step ∈ rest, step.1.isIntersect = false)
    (t group : SetTree α) (op : SetOperator) :
    readGroups (some (t, op)) group rest = (SetTree.combine op t group).extend rest := by
  induction rest generalizing t group op with
  | nil => rfl
  | cons step rest ih =>
    rw [readGroups_cons, if_neg (by rw [h step List.mem_cons_self]; decide)]
    exact ih (fun other ho => h other (List.mem_cons_of_mem step ho)) _ _ _

/-- A chain whose intersections come first is read from left to right. -/
theorem readGroups_of_intersectsFirst (h : intersectsFirst (rest.map Prod.fst) = true)
    (group : SetTree α) : readGroups none group rest = group.extend rest := by
  induction rest generalizing group with
  | nil => rfl
  | cons step rest ih =>
    rw [List.map_cons, intersectsFirst, List.dropWhile_cons] at h
    cases hop : step.1.isIntersect with
    | true =>
      rw [if_pos hop] at h
      rw [readGroups_cons, if_pos hop]
      exact ih h _
    | false =>
      rw [if_neg (by rw [hop]; decide)] at h
      rw [readGroups_cons, if_neg (by rw [hop]; decide)]
      refine readGroups_of_not_isIntersect (fun other ho => ?_) _ _ _
      have hall := List.all_eq_true.1 h other.1
        (List.mem_cons_of_mem _ (List.mem_map_of_mem ho))
      exact (Bool.not_eq_true' _).mp hall

/-! ## 4. Rows that tell the readings apart -/

section

variable {Row : Type} [DecidableEq Row] {ρ : α → Multiset Row} {r : Row}

/-- Behind the first group, empty branches change nothing for the engine. -/
theorem rows_readGroups_zero (h : ∀ step ∈ rest, ρ step.2 = 0) {t group : SetTree α}
    (ht : t.rows ρ = {r}) (hop : op.isIntersect = false) (hgroup : group.rows ρ = 0) :
    (readGroups (some (t, op)) group rest).rows ρ = {r} := by
  have hjoin : (joinGroup (some (t, op)) group).rows ρ = {r} := by
    rw [joinGroup, SetTree.rows, ht, hgroup]
    exact SetOperator.rows_singleton_zero hop r
  induction rest generalizing t group op with
  | nil => exact hjoin
  | cons step rest ih =>
    have hrest := fun other ho => h other (List.mem_cons_of_mem step ho)
    have hstep : ρ step.2 = 0 := h step List.mem_cons_self
    rw [readGroups_cons]
    split
    · next hi =>
      have hzero : (SetTree.combine step.1 group (.branch step.2)).rows ρ = 0 := by
        rw [SetTree.rows, hgroup]
        exact SetOperator.rows_zero_left (.inr hi)
      refine ih hrest ht hop hzero ?_
      rw [joinGroup, SetTree.rows, ht, hzero]
      exact SetOperator.rows_singleton_zero hop r
    · next hi =>
      have hi : step.1.isIntersect = false := Bool.eq_false_iff.2 hi
      refine ih hrest hjoin hi hstep ?_
      rw [joinGroup, SetTree.rows, hjoin]
      exact (congrArg _ hstep).trans (SetOperator.rows_singleton_zero hi r)

theorem foldl_rows_zero (h : ∀ step ∈ rest, ρ step.2 = 0) :
    rest.foldl (fun rows step => step.1.rows rows (ρ step.2)) 0 = 0 := by
  induction rest with
  | nil => rfl
  | cons step rest ih =>
    rw [List.foldl_cons, SetOperator.rows_zero_left (.inl (h step List.mem_cons_self))]
    exact ih fun other ho => h other (List.mem_cons_of_mem step ho)

/-- From left to right, an intersection with an empty branch leaves nothing. -/
theorem foldl_rows_of_isIntersect (h : ∀ step ∈ rest, ρ step.2 = 0)
    (hi : ∃ step ∈ rest, step.1.isIntersect = true) (rows : Multiset Row) :
    rest.foldl (fun rows step => step.1.rows rows (ρ step.2)) rows = 0 := by
  induction rest generalizing rows with
  | nil =>
    obtain ⟨_, hmem, -⟩ := hi
    cases hmem
  | cons step rest ih =>
    have hrest := fun other ho => h other (List.mem_cons_of_mem step ho)
    rw [List.foldl_cons, h step List.mem_cons_self]
    obtain ⟨other, hmem, hother⟩ := hi
    rcases List.mem_cons.1 hmem with rfl | hmem
    · rw [SetOperator.rows_zero_of_isIntersect hother]
      exact foldl_rows_zero hrest
    · exact ih hrest ⟨other, hmem, hother⟩ _

theorem readGroups_leading (h : ∀ step ∈ leading, step.1.isIntersect = true) (group : SetTree α)
    (rest : List (SetOperator × α)) :
    readGroups none group (leading ++ rest) = readGroups none (group.extend leading) rest := by
  induction leading generalizing group with
  | nil => rfl
  | cons step leading ih =>
    rw [List.cons_append, readGroups_cons, if_pos (h step List.mem_cons_self)]
    exact ih (fun other ho => h other (List.mem_cons_of_mem step ho)) _

theorem foldl_rows_leading (h : ∀ step ∈ leading, step.1.isIntersect = true ∧ ρ step.2 = {r}) :
    leading.foldl (fun rows step => step.1.rows rows (ρ step.2)) {r} = {r} := by
  induction leading with
  | nil => rfl
  | cons step leading ih =>
    obtain ⟨hi, hr⟩ := h step List.mem_cons_self
    rw [List.foldl_cons, hr, SetOperator.rows_singleton_self hi]
    exact ih fun other ho => h other (List.mem_cons_of_mem step ho)

end

/-- A chain whose intersections do not all come first has one behind another operator. -/
theorem exists_of_not_intersectsFirst (h : intersectsFirst (rest.map Prod.fst) = false) :
    ∃ leading step others, rest = leading ++ step :: others ∧
      (∀ other ∈ leading, other.1.isIntersect = true) ∧ step.1.isIntersect = false ∧
      ∃ other ∈ others, other.1.isIntersect = true := by
  induction rest with
  | nil => cases h
  | cons step rest ih =>
    rw [List.map_cons, intersectsFirst, List.dropWhile_cons] at h
    cases hop : step.1.isIntersect with
    | true =>
      rw [if_pos hop] at h
      obtain ⟨leading, next, others, rfl, hleading, hnext, hothers⟩ := ih h
      refine ⟨step :: leading, next, others, rfl, fun other ho => ?_, hnext, hothers⟩
      rcases List.mem_cons.1 ho with rfl | ho
      · exact hop
      · exact hleading other ho
    | false =>
      rw [if_neg (by rw [hop]; decide), List.all_cons, hop, Bool.not_false, Bool.true_and] at h
      obtain ⟨op, hmem, hi⟩ := List.all_eq_false.1 h
      obtain ⟨other, ho, rfl⟩ := List.mem_map.1 hmem
      exact ⟨[], step, rest, rfl, fun _ ho => (nomatch ho), hop, other, ho, by simpa using hi⟩

/-- One row in the first group and none behind it tell the readings of such a chain apart. -/
theorem exists_rows_ne [DecidableEq α] {first : α} (hd : (first :: rest.map Prod.snd).Nodup)
    (h : intersectsFirst (rest.map Prod.fst) = false) :
    ∃ ρ : α → Multiset Unit, (readGroups none (.branch first) rest).rows ρ ≠
      rest.foldl (fun rows step => step.1.rows rows (ρ step.2)) (ρ first) := by
  obtain ⟨leading, step, others, rfl, hleading, hstep, other, hother, hi⟩ :=
    exists_of_not_intersectsFirst h
  let ρ : α → Multiset Unit := fun b => if b ∈ first :: leading.map Prod.snd then {()} else 0
  have hhead : ρ first = {()} := if_pos List.mem_cons_self
  have hfull : ∀ other ∈ leading, other.1.isIntersect = true ∧ ρ other.2 = {()} := fun other ho =>
    ⟨hleading other ho, if_pos (List.mem_cons_of_mem _ (List.mem_map_of_mem ho))⟩
  have hempty : ∀ other ∈ step :: others, ρ other.2 = 0 := by
    intro other ho
    rw [List.map_append, ← List.cons_append] at hd
    exact if_neg fun hmem => (List.nodup_append.1 hd).2.2 _ hmem _ (List.mem_map_of_mem ho) rfl
  have hread : (readGroups none (.branch first) (leading ++ step :: others)).rows ρ = {()} := by
    have hgroup : ((SetTree.branch first).extend leading).rows ρ = {()} := by
      rw [SetTree.rows_extend, SetTree.rows, hhead]
      exact foldl_rows_leading hfull
    rw [readGroups_leading hleading, readGroups_cons, if_neg (by rw [hstep]; decide), joinGroup]
    exact rows_readGroups_zero (fun other ho => hempty other (List.mem_cons_of_mem _ ho)) hgroup
      hstep (hempty step List.mem_cons_self)
  have hfold : (leading ++ step :: others).foldl
      (fun rows step => step.1.rows rows (ρ step.2)) (ρ first) = 0 := by
    rw [List.foldl_append]
    exact foldl_rows_of_isIntersect hempty ⟨other, List.mem_cons_of_mem _ hother, hi⟩ _
  refine ⟨ρ, ?_⟩
  rw [hread, hfold]
  exact Multiset.singleton_ne_zero ()

/-- **A chain is read from left to right exactly if its intersections come first.** In every other
    chain of different branches, the rows of the branches can be chosen such that the results
    differ. -/
theorem readGroups_rows_iff [DecidableEq α] {first : α} (hd : (first :: rest.map Prod.snd).Nodup) :
    (∀ (Row : Type) [DecidableEq Row] (ρ : α → Multiset Row),
      (readGroups none (.branch first) rest).rows ρ =
        rest.foldl (fun rows step => step.1.rows rows (ρ step.2)) (ρ first)) ↔
      intersectsFirst (rest.map Prod.fst) = true := by
  constructor
  · intro h
    by_contra hfirst
    obtain ⟨ρ, hne⟩ := exists_rows_ne hd (Bool.eq_false_iff.2 hfirst)
    exact hne (h Unit ρ)
  · intro h Row _ ρ
    rw [readGroups_of_intersectsFirst h, SetTree.rows_extend]
    rfl

end QueryPlan
