import QueryPlan.Proofs.Plan.Sizes
import QueryPlan.Proofs.Plan.Texts

/-!
# The words of a plan

A plan brings words along: names, labels, function names, names of parameters and types, raw text,
and the texts in its constants. `Statement.words` collects them at any depth, phrase by phrase: each
phrase has words of its own and is made of further phrases, which are smaller. What a compilation
comes to has no other words (`Reaches.words`).
-/

namespace QueryPlan

/-! ## 1. Constants -/

mutual

/-- The strings and keys of a JSON value. -/
def Json.words : Json → List String
  | .text s => [s]
  | .array items => jsonItemWords items
  | .object fields => jsonFieldWords fields
  | _ => []

def jsonItemWords : List Json → List String
  | [] => []
  | item :: rest => item.words ++ jsonItemWords rest

def jsonFieldWords : List (String × Json) → List String
  | [] => []
  | (name, value) :: rest => name :: value.words ++ jsonFieldWords rest

end

mutual

/-- The texts in a constant: those of exact numbers, texts and JSON values. -/
def Value.words : Value → List String
  | .decimal digits => [digits]
  | .text s => [s]
  | .json j => j.words
  | .array items => itemWords items
  | .object fields => fieldWords fields
  | _ => []

def itemWords : List Value → List String
  | [] => []
  | item :: rest => item.words ++ itemWords rest

def fieldWords : List (String × Value) → List String
  | [] => []
  | (name, value) :: rest => name :: value.words ++ fieldWords rest

end

/-! ## 2. Words of single phrases -/

/-- The words of an expression itself. A query as a value names the columns that it is folded
    from. -/
def Expr.ownWords : Expr → List String
  | .constant value _ => value.words
  | .field source name _ => [source, name]
  | .param name _ => [name]
  | .function name _ _ => [name]
  | .cast type _ => type.texts
  | .raw sql => [sql]
  | .query s => s.projection.map Projection.label
  | .windowed _ (.named name) => [name]
  | .excluded column => [column]
  | _ => []

def Source.ownWords : Source → List String
  | .table t => t.texts
  | .derived label _ => [label]
  | .values label columns _ => label :: columns
  | .join _ source _ => source.ownWords

def conflictWords : Option OnConflict → List String
  | some ⟨target, .doUpdate list⟩ => target ++ list.map Assignment.column
  | some ⟨target, .doNothing⟩ => target
  | none => []

/-- The words of the clauses of a statement. -/
def Statement.clauseWords : Statement → List String
  | .select q =>
    q.projection.map Projection.label ++ q.sources.flatMap Source.ownWords ++
      q.windows.map NamedWindow.name
  | .setOp _ => []
  | .insert i =>
    i.table.texts ++ i.columns ++ conflictWords i.onConflict ++ i.returning.map Projection.label
  | .update u =>
    u.table.texts ++ u.assignments.map Assignment.column ++ u.sources.flatMap Source.ownWords ++
      u.returning.map Projection.label
  | .delete d =>
    d.table.texts ++ d.sources.flatMap Source.ownWords ++ d.returning.map Projection.label

/-- The words of a statement itself. -/
def Statement.ownWords (s : Statement) : List String :=
  s.ctes.map Cte.label ++ s.clauseWords

def Phrase.ownWords : Phrase → List String
  | .expr e => e.ownWords
  | .statement s => s.ownWords

/-! ## 3. Words at any depth -/

def Statement.branches : Statement → List Statement
  | .setOp q => q.branches
  | _ => []

/-- The phrases that a phrase is made of, in the forms in which they are written. -/
def Phrase.parts : Phrase → List Phrase
  | .expr e => e.phrases
  | .statement s =>
    s.ctes.map (fun c => .statement c.statement) ++ s.branches.map .statement ++ s.clausePhrases ++
      s.windows.flatMap fun w => w.spec.phrases

/-- The words of a phrase down to a depth. -/
def Phrase.wordsTo : Nat → Phrase → List String
  | 0, _ => []
  | depth + 1, p => p.ownWords ++ p.parts.flatMap (wordsTo depth)

/-- The words of a phrase at any depth. -/
def Phrase.words (p : Phrase) : List String :=
  p.wordsTo p.size

/-- **The words of a statement**, at any depth. -/
def Statement.words (s : Statement) : List String :=
  (Phrase.statement s).words

namespace Phrase

variable {p p' : Phrase}

theorem size_pos (p : Phrase) : 0 < p.size := by
  cases p with
  | expr e => cases e <;> exact Nat.succ_pos _
  | statement s => exact Nat.lt_of_le_of_lt (Nat.zero_le _) s.windowSizes_lt

/-- A phrase is larger than those that it is made of. -/
theorem size_parts (h : p' ∈ p.parts) : p'.size < p.size := by
  cases p with
  | expr e => exact Expr.size_phrases h
  | statement s =>
    simp only [parts, List.mem_append, List.mem_map, List.mem_flatMap] at h
    rcases h with ((⟨c, hc, rfl⟩ | ⟨b, hb, rfl⟩) | hp) | ⟨w, hw, hp⟩
    · exact Statement.size_ctes hc
    · cases s with
      | setOp q => exact SetOperation.size_branches hb
      | _ => exact absurd hb List.not_mem_nil
    · have hlt := Statement.size_clausePhrases hp
      simp only [Phrase.size] at hlt ⊢
      omega
    · have hspec := Within.spec w.spec p' hp
      have hle := NamedWindow.size_le_windowSizes hw
      have hlt := s.windowSizes_lt
      simp only [Phrase.size] at hspec ⊢
      omega

theorem wordsTo_mono {m n : Nat} (hmn : m ≤ n) (p : Phrase) : p.wordsTo m ⊆ p.wordsTo n := by
  induction m generalizing n p with
  | zero => exact List.nil_subset _
  | succ m ih =>
    obtain ⟨n, rfl⟩ : ∃ k, n = k + 1 := ⟨n - 1, by omega⟩
    intro t ht
    rcases List.mem_append.1 ht with ht | ht
    · exact List.mem_append_left _ ht
    · obtain ⟨q, hq, ht⟩ := List.mem_flatMap.1 ht
      exact List.mem_append_right _ (List.mem_flatMap.2 ⟨q, hq, ih (by omega) q ht⟩)

theorem words_eq (p : Phrase) :
    p.words = p.ownWords ++ p.parts.flatMap (wordsTo (p.size - 1)) := by
  rw [words, ← Nat.sub_add_cancel p.size_pos]
  rfl

theorem words_subset_of_part (h : p' ∈ p.parts) : p'.words ⊆ p.words := by
  intro t ht
  rw [words_eq]
  have hlt := size_parts h
  have hle : p'.size ≤ p.size - 1 := by omega
  exact List.mem_append_right _ (List.mem_flatMap.2 ⟨p', h, wordsTo_mono hle p' ht⟩)

end Phrase

/-! ## 4. Compilations -/

variable {σ : Setting} {s : Statement} {p p' : Phrase} {k k' : Place}

/-- What is asked for is a part of what asks for it, or of a statement around it. -/
theorem Asks.exists_part (h : Asks σ p k p' k') :
    p' ∈ p.parts ∨ ∃ o ∈ k.opened, p' ∈ (Phrase.statement o.statement).parts := by
  cases h with
  | inner hp => exact .inl hp
  | window hn hw hp =>
    refine .inr ?_
    obtain ⟨w, hfind, rfl⟩ := Option.map_eq_some_iff.1 hw
    obtain ⟨o, ho, hwindow⟩ := List.mem_flatMap.1 (List.mem_of_find?_eq_some hfind)
    exact ⟨o, ho, List.mem_append_right _ (List.mem_flatMap.2 ⟨w, hwindow, hp⟩)⟩
  | @cte s before after c k hs =>
    have hmem : c ∈ s.ctes := by
      rw [hs]
      simp
    refine .inl (List.mem_append_left _ (List.mem_append_left _ (List.mem_append_left _ ?_)))
    exact List.mem_map_of_mem hmem
  | branch hb =>
    refine .inl (List.mem_append_left _ (List.mem_append_left _ (List.mem_append_right _ ?_)))
    exact List.mem_map_of_mem hb
  | clause hp => exact .inl (List.mem_append_left _ (List.mem_append_right _ hp))
  | definition hn hw hp => exact .inl (List.mem_append_right _ (List.mem_flatMap.2 ⟨_, hw, hp⟩))

/-- A statement is opened around a phrase by the phrase that asks for it, or earlier. -/
theorem Asks.opened (h : Asks σ p k p' k') :
    ∀ o ∈ k'.opened, .statement o.statement = p ∨ o ∈ k.opened := by
  cases h with
  | inner hp | window hn hw hp | cte hs | branch hs => exact fun o ho => .inr ho
  | clause hp | definition hn hw hp =>
    intro o ho
    rcases List.mem_cons.1 ho with rfl | ho
    · exact .inl rfl
    · exact .inr ho

/-- What a phrase hands down to the phrases that it is made of holds of all that a compilation comes
    to. -/
theorem Reaches.inherit {Q : Phrase → Prop} (hQ : ∀ p p', p' ∈ p.parts → Q p → Q p')
    (hs : Q (.statement s)) (h : Reaches σ s p k) : Q p := by
  have hboth : Q p ∧ ∀ o ∈ k.opened, Q (.statement o.statement) := by
    induction h with
    | start => exact ⟨hs, fun o ho => absurd ho List.not_mem_nil⟩
    | step _ ha ih =>
      obtain ⟨hp, hopened⟩ := ih
      constructor
      · rcases ha.exists_part with hpart | ⟨o, ho, hpart⟩
        · exact hQ _ _ hpart hp
        · exact hQ _ _ hpart (hopened o ho)
      · intro o ho
        rcases ha.opened o ho with heq | ho
        · rw [heq]
          exact hp
        · exact hopened o ho
  exact hboth.1

/-- **A compilation comes to no other words** than those of its statement. -/
theorem Reaches.words (h : Reaches σ s p k) : p.words ⊆ s.words :=
  h.inherit (Q := fun p => p.words ⊆ s.words)
    (fun _ _ hpart hp => List.Subset.trans (Phrase.words_subset_of_part hpart) hp)
    (List.Subset.refl _)

end QueryPlan
