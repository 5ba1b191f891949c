import QueryPlan.Proofs.Arithmetic.Printing
import QueryPlan.Proofs.Arithmetic.Reading

/-!
# What printed arithmetic is read as

The compiler leaves parentheses out where the operand binds more strongly than the operator around
it, where it binds equally on the left, and, for operators that associate to either side, where it
binds equally on the right. In this last case the text does not show that the operand was one:
reading groups its operators to the left, together with the one around it. `Arith.regroup` does the
same to the tree, and `readArith_printed` says that this is what the text is read as.
-/

namespace QueryPlan

variable {stack : List Pending} {op : ArithOp} {t : Arith String} {p : Strength}

/-! ## 1. Parentheses -/

namespace Arith

variable {α : Type}

/-- Whether the text of a tree begins with a minus. -/
def leadsWithMinus : Arith α → Bool
  | column _ => false
  | neg _ => true
  | binary op l _ => !decide (l.strength < op.strength) && l.leadsWithMinus

/-- Whether an operand gets parentheses. -/
def isWrapped (t : Arith α) (isLeft : Bool) (parent : Strength) (associativity : Associativity) :
    Bool :=
  (!isLeft && t.leadsWithMinus) || needsParens ⟨"", t.strength⟩ isLeft parent associativity

/-- Whether a right operand binds as its operator does and has no parentheses. -/
def merges (op : ArithOp) (r : Arith α) : Bool :=
  !r.isWrapped false op.strength op.associativity && decide (r.strength = op.strength)

/-- A left operand in front of a tree, behind which it is grouped with the operators of the tree
    that bind equally. -/
def attach (op : ArithOp) (t : Arith α) : Arith α → Arith α
  | binary op' l r =>
    if op'.strength = op.strength then binary op' (attach op t l) r
    else binary op t (binary op' l r)
  | u => binary op t u

/-- The tree that is read for a tree. -/
def regroup : Arith α → Arith α
  | column c => column c
  | neg t => neg t.regroup
  | binary op l r =>
    if merges op r then attach op l.regroup r.regroup else binary op l.regroup r.regroup

theorem isWrapped_left (t : Arith α) (op : ArithOp) :
    t.isWrapped true op.strength op.associativity = decide (t.strength < op.strength) := by
  unfold isWrapped needsParens
  cases op.associativity <;> by_cases h : t.strength < op.strength <;> simp [h]

theorem strength_le_of_not_isWrapped {t : Arith α} {isLeft : Bool} {parent : Strength}
    {associativity : Associativity} (h : t.isWrapped isLeft parent associativity = false) :
    parent ≤ t.strength := by
  unfold isWrapped needsParens at h
  by_cases hlt : t.strength < parent
  · simp [hlt] at h
  · exact Int32.not_lt.1 hlt

/-- The operand of a sign has no parentheses if it is a column. -/
theorem signStrength_lt_of_not_isWrapped {t : Arith α}
    (h : t.isWrapped false signStrength .both = false) : signStrength < t.strength := by
  cases t with
  | column c => exact (by decide : signStrength < atomStrength)
  | neg t => cases h
  | binary op l r =>
    have hle : signStrength ≤ (binary op l r).strength := strength_le_of_not_isWrapped h
    exact absurd op.strength_lt_sign (Int32.not_lt.2 hle)

/-- Only an operator that associates to either side is regrouped with its right operand. -/
theorem associativity_of_merges {r : Arith α} (h : merges op r = true) :
    op.associativity = .both := by
  rw [merges, Bool.and_eq_true, Bool.not_eq_true', decide_eq_true_eq] at h
  obtain ⟨hwrap, hs⟩ := h
  cases ha : op.associativity with
  | both => rfl
  | left =>
    rw [ha, isWrapped, needsParens, hs] at hwrap
    simp at hwrap

/-! ## 2. Grouping to the left -/

theorem attach_of_ne {u : Arith α} (h : u.strength ≠ op.strength) (t : Arith α) :
    attach op t u = binary op t u := by
  cases u with
  | column c | neg u => rfl
  | binary op' l r => exact if_neg h

@[simp] theorem strength_attach (op : ArithOp) (t u : Arith α) :
    (attach op t u).strength = op.strength := by
  cases u with
  | column c | neg u => rfl
  | binary op' l r =>
    unfold attach
    split
    · next h => exact h
    · rfl

theorem strength_regroup (t : Arith α) : t.regroup.strength = t.strength := by
  cases t with
  | column c | neg t => rfl
  | binary op l r =>
    unfold regroup
    split
    · exact strength_attach op _ _
    · rfl

theorem attach_attach {op' : ArithOp} (h : op'.strength = op.strength) (t u v : Arith α) :
    attach op t (attach op' u v) = attach op' (attach op t u) v := by
  induction v with
  | column c | neg v => exact if_pos h
  | binary op₁ l r ihl ihr =>
    by_cases h₁ : op₁.strength = op'.strength
    · rw [attach, if_pos h₁, attach, if_pos (h₁.trans h), ihl, attach, if_pos h₁]
    · rw [attach, if_neg h₁, attach, if_pos h, attach, if_neg h₁]

end Arith

/-! ## 3. Reading the tokens of a tree -/

/-- Tokens in parentheses, if they need them. -/
def inParens (wrapped : Bool) (tokens : List ArithToken) : List ArithToken :=
  if wrapped then .opening :: tokens ++ [.closing] else tokens

def ArithOp.token : ArithOp → ArithToken
  | sub => .minus
  | op => .word op.keyword

/-- The tokens that are printed for a tree over references. -/
def Arith.tokens : Arith String → List ArithToken
  | column ref => [.word ref]
  | neg t => .minus :: inParens (t.isWrapped false signStrength .both) t.tokens
  | binary op l r =>
    inParens (l.isWrapped true op.strength op.associativity) l.tokens ++
      op.token :: inParens (r.isWrapped false op.strength op.associativity) r.tokens

theorem readFrom_token (op : ArithOp) (stack : List Pending) (t : Arith String)
    (rest : List ArithToken) :
    readFrom stack (some t) (op.token :: rest) = readFrom (pushOperator op stack t) none rest := by
  cases op <;> rfl

/-- Whether nothing on the top of a stack binds as strongly as some strength. -/
def Settled (p : Strength) : List Pending → Prop
  | .operator _ op :: _ => op.strength < p
  | .sign :: _ => signStrength < p
  | _ => True

theorem Settled.mono {q : Strength} (hpq : p ≤ q) (h : Settled p stack) : Settled q stack := by
  unfold Settled at h ⊢
  split
  · exact Int32.lt_of_lt_of_le h hpq
  · exact Int32.lt_of_lt_of_le h hpq
  · trivial

theorem settle_of_settled (h : Settled p stack) (t : Arith String) :
    settle p stack t = (stack, t) := by
  unfold settle
  split
  · exact if_neg (Int32.not_le.2 h)
  · exact if_neg (Int32.not_le.2 h)
  · rfl

/-- A left operand that waits in front of a tree which binds equally. -/
abbrev Waiting := Option (Arith String × ArithOp)

namespace Waiting

def onStack (w : Waiting) (stack : List Pending) : List Pending :=
  match w with
  | some (t, op) => .operator t op :: stack
  | none => stack

def attachTo (w : Waiting) (u : Arith String) : Arith String :=
  match w with
  | some (t, op) => .attach op t u
  | none => u

end Waiting

/-- Reading a tree leaves the stack as if the tree it is read as had been an operand. -/
def ReadsAs (t : Arith String) : Prop :=
  ∀ (w : Waiting) (stack : List Pending), (∀ x ∈ w, x.2.strength = t.strength) →
    Settled t.strength stack →
    ∃ stack' t', (∀ rest, readFrom (w.onStack stack) none (t.tokens ++ rest) =
        readFrom stack' (some t') rest) ∧
      ∀ p ≤ t.strength, settle p stack' t' = settle p stack (w.attachTo t.regroup)

/-- A tree in parentheses is an operand. -/
theorem ReadsAs.wrapped (h : ReadsAs t) (stack : List Pending) (rest : List ArithToken) :
    readFrom stack none (inParens true t.tokens ++ rest) =
      readFrom stack (some t.regroup) rest := by
  obtain ⟨stack', t', hread, hsettle⟩ := h none (.paren :: stack) (fun _ hx => nomatch hx) trivial
  have hclose : closeParen stack' t' = some (stack, t.regroup) := by
    rw [← closeParen_settle t.strength, hsettle _ (Int32.le_refl _), closeParen_settle]
    rfl
  calc readFrom stack none (inParens true t.tokens ++ rest)
      = readFrom (.paren :: stack) none (t.tokens ++ (.closing :: rest)) := by
        rw [inParens, if_pos rfl, List.append_assoc]
        rfl
    _ = readFrom stack' (some t') (.closing :: rest) := hread _
    _ = readFrom stack (some t.regroup) rest := by
        rw [readFrom, hclose]

theorem Waiting.eq_none {w : Waiting} (h : ∀ x ∈ w, x.2.strength = p)
    (hp : ∀ op : ArithOp, op.strength < p) : w = none := by
  cases w with
  | none => rfl
  | some x => exact absurd (h x rfl) (Int32.ne_of_lt (hp x.2))

theorem ReadsAs.column (ref : String) : ReadsAs (.column ref) := by
  intro w stack hw _
  obtain rfl := Waiting.eq_none hw ArithOp.strength_lt_atom
  exact ⟨stack, .column ref, fun _ => rfl, fun _ _ => rfl⟩

theorem ReadsAs.neg (h : ReadsAs t) : ReadsAs (.neg t) := by
  intro w stack hw _
  obtain rfl := Waiting.eq_none hw ArithOp.strength_lt_sign
  have hsign : ∀ p ≤ signStrength, ∀ u, settle p (.sign :: stack) u = settle p stack (.neg u) :=
    fun p hp u => if_pos hp
  cases hwrap : t.isWrapped false signStrength .both with
  | true =>
    refine ⟨.sign :: stack, t.regroup, fun rest => ?_, fun p hp => hsign p hp _⟩
    rw [Arith.tokens, hwrap]
    exact h.wrapped (.sign :: stack) rest
  | false =>
    have hlt := Arith.signStrength_lt_of_not_isWrapped hwrap
    obtain ⟨stack', t', hread, hsettle⟩ :=
      h none (.sign :: stack) (fun _ hx => nomatch hx) hlt
    refine ⟨stack', t', fun rest => ?_, fun p hp => ?_⟩
    · rw [Arith.tokens, hwrap]
      exact hread rest
    · rw [hsettle p (Int32.le_trans hp (Int32.le_of_lt hlt))]
      exact hsign p hp _

/-- Reading a left operand: with what waits in front it is what the operator takes. -/
theorem ReadsAs.left {l : Arith String} (h : ReadsAs l) {w : Waiting}
    (hw : ∀ x ∈ w, x.2.strength = op.strength) (hstack : Settled op.strength stack) :
    ∃ stack' t', (∀ rest, readFrom (w.onStack stack) none
        (inParens (l.isWrapped true op.strength op.associativity) l.tokens ++ rest) =
          readFrom stack' (some t') rest) ∧
      settle op.strength stack' t' = (stack, w.attachTo l.regroup) := by
  -- an operand that binds differently is taken by the operator that waits
  have hother : l.strength ≠ op.strength →
      settle op.strength (w.onStack stack) l.regroup = (stack, w.attachTo l.regroup) := by
    intro hne
    cases w with
    | none => exact settle_of_settled hstack _
    | some x =>
      have hx : x.2.strength = op.strength := hw x rfl
      have hattach : Waiting.attachTo (some x) l.regroup = .binary x.2 x.1 l.regroup :=
        Arith.attach_of_ne (by rw [Arith.strength_regroup, hx]; exact hne) x.1
      rw [hattach]
      exact (if_pos (Int32.le_of_eq hx.symm)).trans (settle_of_settled hstack _)
  cases hwrap : l.isWrapped true op.strength op.associativity with
  | true =>
    rw [Arith.isWrapped_left, decide_eq_true_eq] at hwrap
    exact ⟨w.onStack stack, l.regroup, h.wrapped (w.onStack stack), hother (Int32.ne_of_lt hwrap)⟩
  | false =>
    have hle : op.strength ≤ l.strength := Arith.strength_le_of_not_isWrapped hwrap
    by_cases heq : l.strength = op.strength
    · obtain ⟨stack', t', hread, hsettle⟩ := h w stack (by rwa [heq]) (by rwa [heq])
      refine ⟨stack', t', hread, ?_⟩
      rw [hsettle op.strength hle]
      exact settle_of_settled hstack _
    · have hlt : op.strength < l.strength := Int32.lt_of_le_of_ne hle (Ne.symm heq)
      have hsettled : Settled l.strength (w.onStack stack) := by
        cases w with
        | none => exact hstack.mono hle
        | some x => exact Int32.lt_of_le_of_lt (Int32.le_of_eq (hw x rfl)) hlt
      obtain ⟨stack', t', hread, hsettle⟩ :=
        h none (w.onStack stack) (fun _ hx => nomatch hx) hsettled
      refine ⟨stack', t', hread, ?_⟩
      rw [hsettle op.strength hle]
      exact hother heq

/-- Reading a right operand behind its operator. -/
theorem ReadsAs.right {r : Arith String} (h : ReadsAs r) (x : Arith String)
    (hstack : Settled op.strength stack) :
    ∃ stack' t', (∀ rest, readFrom (.operator x op :: stack) none
        (inParens (r.isWrapped false op.strength op.associativity) r.tokens ++ rest) =
          readFrom stack' (some t') rest) ∧
      ∀ p ≤ op.strength, settle p stack' t' =
        settle p stack (if Arith.merges op r then .attach op x r.regroup
          else .binary op x r.regroup) := by
  have htake : ∀ p ≤ op.strength, ∀ u, settle p (.operator x op :: stack) u =
      settle p stack (.binary op x u) := fun p hp u => if_pos hp
  unfold Arith.merges
  cases hwrap : r.isWrapped false op.strength op.associativity with
  | true =>
    exact ⟨_, r.regroup, h.wrapped (.operator x op :: stack), fun p hp => htake p hp r.regroup⟩
  | false =>
    have hle : op.strength ≤ r.strength := Arith.strength_le_of_not_isWrapped hwrap
    by_cases heq : r.strength = op.strength
    · obtain ⟨stack', t', hread, hsettle⟩ := h (some (x, op)) stack
        (by rintro _ ⟨⟩; exact heq.symm) (by rwa [heq])
      refine ⟨stack', t', hread, fun p hp => ?_⟩
      rw [hsettle p (Int32.le_trans hp hle), decide_eq_true heq]
      rfl
    · have hlt : op.strength < r.strength := Int32.lt_of_le_of_ne hle (Ne.symm heq)
      obtain ⟨stack', t', hread, hsettle⟩ :=
        h none (.operator x op :: stack) (fun _ hx => nomatch hx) hlt
      refine ⟨stack', t', hread, fun p hp => ?_⟩
      rw [hsettle p (Int32.le_trans hp hle), decide_eq_false heq]
      exact htake p hp _

theorem ReadsAs.binary (op : ArithOp) {l r : Arith String} (hl : ReadsAs l) (hr : ReadsAs r) :
    ReadsAs (.binary op l r) := by
  intro w stack hw hstack
  obtain ⟨stack₁, t₁, hleft, hsettle₁⟩ := hl.left hw hstack
  obtain ⟨stack₂, t₂, hright, hsettle₂⟩ := hr.right (w.attachTo l.regroup) hstack
  have hpush : pushOperator op stack₁ t₁ = .operator (w.attachTo l.regroup) op :: stack := by
    unfold pushOperator
    rw [hsettle₁]
  refine ⟨stack₂, t₂, fun rest => ?_, fun p hp => ?_⟩
  · rw [Arith.tokens, List.append_assoc, hleft, List.cons_append, readFrom_token, hpush, hright]
  · rw [hsettle₂ p hp]
    congr 1
    -- what waits goes in front of the left operand, however the right one is grouped
    rw [Arith.regroup]
    cases w with
    | none => rfl
    | some x =>
      have hx : op.strength = x.2.strength := (hw x rfl).symm
      split
      · exact (Arith.attach_attach hx _ _ _).symm
      · exact (if_pos hx).symm

theorem readsAs (t : Arith String) : ReadsAs t := by
  induction t with
  | column ref => exact .column ref
  | neg t ih => exact ih.neg
  | binary op l r ihl ihr => exact .binary op ihl ihr

/-- The tokens of a tree are read as the tree with its operands regrouped. -/
theorem readFrom_tokens (t : Arith String) : readFrom [] none t.tokens = some t.regroup := by
  obtain ⟨stack, t', hread, hsettle⟩ := readsAs t none [] (fun _ hx => nomatch hx) trivial
  have hend := hread []
  rw [List.append_nil] at hend
  rw [show readFrom [] none t.tokens = _ from hend]
  have hfinish := finish_settle t.strength stack t'
  rw [hsettle _ (Int32.le_refl _)] at hfinish
  exact hfinish.symm

/-! ## 4. The tokens of a printed text -/

/-- Whether characters go on with a word and end it outside quotes. -/
def staysWord : (quoted : Bool) → List Char → Bool
  | quoted, [] => !quoted
  | true, c :: cs => staysWord (c != '"') cs
  | false, c :: cs => !([' ', '-', '(', ')'].contains c) && staysWord (c == '"') cs

/-- A text that is read as one word. -/
def IsReference (text : String) : Prop :=
  text.toList ≠ [] ∧ staysWord false text.toList = true

/-- Whether a word ends in front of some characters. -/
def breaksWord : List Char → Bool
  | [] => true
  | c :: _ => c == ' ' || c == ')'

theorem readTokens_word {cs : List Char} {quoted : Bool} (h : staysWord quoted cs = true)
    (word rest : List Char) :
    readTokens quoted word (cs ++ rest) = readTokens false (cs.reverse ++ word) rest := by
  induction cs generalizing quoted word with
  | nil =>
    cases quoted with
    | true => cases h
    | false => rfl
  | cons c cs ih =>
    rw [List.reverse_cons, List.append_assoc, List.singleton_append]
    cases quoted with
    | true => exact ih h (c :: word)
    | false =>
      rw [staysWord, Bool.and_eq_true] at h
      have hc : c ≠ ' ' ∧ c ≠ '-' ∧ c ≠ '(' ∧ c ≠ ')' := by simpa using h.1
      rw [List.cons_append, readTokens, if_neg hc.1, if_neg hc.2.1, if_neg hc.2.2.1,
        if_neg hc.2.2.2]
      exact ih h.2 (c :: word)

theorem flushWord_ne_nil {word : List Char} (h : word ≠ []) (rest : List ArithToken) :
    flushWord word.reverse rest = .word (String.ofList word) :: rest := by
  rw [flushWord, if_neg (by simpa using h), List.reverse_reverse]

theorem readTokens_reference {ref : String} (h : IsReference ref) {rest : List Char}
    (hrest : breaksWord rest = true) :
    readTokens false [] (ref.toList ++ rest) = .word ref :: readTokens false [] rest := by
  rw [readTokens_word h.2, List.append_nil]
  cases rest with
  | nil =>
    rw [readTokens, flushWord_ne_nil h.1, String.ofList_toList]
    rfl
  | cons c cs =>
    rw [breaksWord, Bool.or_eq_true, beq_iff_eq, beq_iff_eq] at hrest
    rcases hrest with rfl | rfl
    · rw [readTokens, if_pos rfl, flushWord_ne_nil h.1, String.ofList_toList]
      rfl
    · rw [show ∀ word, readTokens false word (')' :: cs) =
        flushWord word (.closing :: readTokens false [] cs) from fun _ => rfl,
        flushWord_ne_nil h.1, String.ofList_toList]
      rfl

/-- An operator between blanks is one token. -/
theorem readTokens_operator (op : ArithOp) (rest : List Char) :
    readTokens false [] ((" " ++ op.keyword ++ " ").toList ++ rest) =
      op.token :: readTokens false [] rest := by
  cases op <;> rfl

theorem breaksWord_operator (op : ArithOp) (rest : List Char) :
    breaksWord ((" " ++ op.keyword ++ " ").toList ++ rest) = true := by
  cases op <;> rfl

namespace Arith

/-- Whether all leaves are read as words. -/
def Legible (t : Arith String) : Prop :=
  ∀ ref ∈ t.leaves, IsReference ref

variable {t l r : Arith String}

theorem Legible.left (h : (binary op l r).Legible) : l.Legible :=
  fun ref href => h ref (List.mem_append_left _ href)

theorem Legible.right (h : (binary op l r).Legible) : r.Legible :=
  fun ref href => h ref (List.mem_append_right _ href)

theorem head?_append {a : String} {c : Char} (h : a.toList.head? = some c) (b : String) :
    (a ++ b).toList.head? = some c := by
  rw [String.toList_append, List.head?_append, h]
  rfl

theorem text_asOperand (f : Fragment) (isLeft : Bool) (parent : Strength)
    (associativity : Associativity) :
    (f.asOperand isLeft parent associativity).text =
      if (!isLeft && f.startsWithMinus) || needsParens f isLeft parent associativity then
        "(" ++ f.text ++ ")" else f.text := by
  unfold Fragment.asOperand
  split <;> rfl

theorem needsParens_printed (t : Arith String) (isLeft : Bool) (parent : Strength)
    (associativity : Associativity) :
    needsParens t.printed isLeft parent associativity =
      needsParens ⟨"", t.strength⟩ isLeft parent associativity := by
  unfold needsParens
  rw [strength_printed]

/-- The first character of a printed tree is a minus exactly if the tree leads with one. -/
theorem head?_printed (h : t.Legible) :
    ∃ c, t.printed.text.toList.head? = some c ∧ (c == '-') = t.leadsWithMinus := by
  induction t with
  | column ref =>
    obtain ⟨hne, hword⟩ := h ref List.mem_cons_self
    change ∃ c, ref.toList.head? = some c ∧ (c == '-') = false
    cases hcs : ref.toList with
    | nil => exact absurd hcs hne
    | cons c cs =>
      rw [hcs, staysWord, Bool.and_eq_true] at hword
      have hc : c ≠ ' ' ∧ c ≠ '-' ∧ c ≠ '(' ∧ c ≠ ')' := by simpa using hword.1
      exact ⟨c, rfl, beq_eq_false_iff_ne.2 hc.2.1⟩
  | neg t ih => exact ⟨'-', head?_append rfl _, rfl⟩
  | binary op l r ihl ihr =>
    obtain ⟨c, hc, hminus⟩ := ihl h.left
    have hleft : ∃ c, (l.printed.asOperand true op.strength op.associativity).text.toList.head? =
        some c ∧ (c == '-') = (binary op l r).leadsWithMinus := by
      have hwrap : needsParens l.printed true op.strength op.associativity =
          decide (l.strength < op.strength) := by
        rw [← isWrapped_left, isWrapped, needsParens_printed]
        rfl
      rw [text_asOperand, hwrap, leadsWithMinus, ← hminus]
      by_cases hlt : l.strength < op.strength
      · simp only [hlt]
        exact ⟨'(', head?_append (head?_append rfl _) _, rfl⟩
      · simp only [hlt]
        exact ⟨c, hc, rfl⟩
    obtain ⟨c, hc, hminus⟩ := hleft
    exact ⟨c, head?_append (head?_append (head?_append (head?_append hc _) _) _) _, hminus⟩

theorem startsWithMinus_printed (h : t.Legible) :
    t.printed.startsWithMinus = t.leadsWithMinus := by
  obtain ⟨c, hc, hminus⟩ := head?_printed h
  rw [Fragment.startsWithMinus, hc]
  exact hminus

/-- An operand is printed in parentheses if it is wrapped. -/
theorem text_operand (h : t.Legible) (isLeft : Bool) (parent : Strength)
    (associativity : Associativity) :
    (t.printed.asOperand isLeft parent associativity).text =
      if t.isWrapped isLeft parent associativity then "(" ++ t.printed.text ++ ")"
      else t.printed.text := by
  rw [text_asOperand, startsWithMinus_printed h, isWrapped, needsParens_printed]

/-- Whether the text of a tree is cut into its tokens, in front of whatever ends a word. -/
def CutsIntoTokens (t : Arith String) : Prop :=
  ∀ rest, breaksWord rest = true →
    readTokens false [] (t.printed.text.toList ++ rest) = t.tokens ++ readTokens false [] rest

theorem CutsIntoTokens.operand (ht : t.CutsIntoTokens) (h : t.Legible) (isLeft : Bool)
    (parent : Strength) (associativity : Associativity) {rest : List Char}
    (hrest : breaksWord rest = true) :
    readTokens false []
        ((t.printed.asOperand isLeft parent associativity).text.toList ++ rest) =
      inParens (t.isWrapped isLeft parent associativity) t.tokens ++ readTokens false [] rest := by
  rw [text_operand h]
  cases t.isWrapped isLeft parent associativity with
  | false => exact ht rest hrest
  | true =>
    rw [if_pos rfl, String.toList_append, String.toList_append, List.append_assoc,
      List.append_assoc, inParens, if_pos rfl]
    change .opening :: readTokens false [] (t.printed.text.toList ++ (')' :: rest)) = _
    rw [ht _ rfl, List.append_assoc]
    rfl

theorem cutsIntoTokens (h : t.Legible) : t.CutsIntoTokens := by
  induction t with
  | column ref => exact fun rest hrest => readTokens_reference (h ref List.mem_cons_self) hrest
  | neg t ih =>
    intro rest hrest
    rw [printed, String.toList_append, List.append_assoc]
    exact congrArg (.minus :: ·) ((ih h).operand h false signStrength .both hrest)
  | binary op l r ihl ihr =>
    intro rest hrest
    have hright := (ihr h.right).operand h.right false op.strength op.associativity hrest
    have hleft := (ihl h.left).operand h.left true op.strength op.associativity
      (breaksWord_operator op
        ((r.printed.asOperand false op.strength op.associativity).text.toList ++ rest))
    rw [readTokens_operator, hright] at hleft
    rw [tokens, List.append_assoc, List.cons_append, ← hleft]
    simp only [printed, String.toList_append, List.append_assoc]

end Arith

/-- **A printed tree is read as the tree with its operands regrouped.** -/
theorem readArith_printed (h : t.Legible) : readArith t.printed.text = some t.regroup := by
  have htokens := Arith.cutsIntoTokens h [] rfl
  rw [List.append_nil] at htokens
  rw [readArith, tokensOf, htokens]
  exact (congrArg _ (List.append_nil _)).trans (readFrom_tokens t)

end QueryPlan
