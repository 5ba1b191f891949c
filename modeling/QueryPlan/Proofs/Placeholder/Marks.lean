import QueryPlan.Proofs.Compile.Orderly

/-!
# Numbered placeholders in a text

A numbered placeholder is a dollar sign with the digits behind it. `marksOf` reads a text as a list
of marks, each a placeholder or another character; `placeholders` are the numbers of the
placeholders from left to right, and `withQuestionMarks` is the text with a question mark in place
of each.

Reading is local: a text that opens can be read apart from what is in front of it
(`marksOf_append`), and a plain text is read character by character (`marksOf_plain_append`).
-/

namespace QueryPlan

/-! ## 1. Reading -/

/-- A piece of a text: a character, or a placeholder with its number. -/
inductive Mark where
  | char (c : Char)
  | place (number : Nat)
  deriving DecidableEq

/-- The digits that a text begins with. -/
def leadingDigits (cs : List Char) : List Char :=
  cs.takeWhile Char.isDigit

/-- Reads marks. `skip` counts characters that have been read already. -/
def readMarks : (skip : Nat) → List Char → List Mark
  | _, [] => []
  | skip + 1, _ :: cs => readMarks skip cs
  | 0, c :: cs =>
    if c = '$' ∧ leadingDigits cs ≠ [] then
      .place (Nat.ofDigitChars 10 (leadingDigits cs) 0) :: readMarks (leadingDigits cs).length cs
    else .char c :: readMarks 0 cs

theorem readMarks_cons (c : Char) (cs : List Char) :
    readMarks 0 (c :: cs) =
      if c = '$' ∧ leadingDigits cs ≠ [] then
        .place (Nat.ofDigitChars 10 (leadingDigits cs) 0) :: readMarks (leadingDigits cs).length cs
      else .char c :: readMarks 0 cs :=
  rfl

def marksOf (text : String) : List Mark :=
  readMarks 0 text.toList

/-- The character that a mark is printed with where placeholders go by position. -/
def Mark.positional : Mark → Char
  | char c => c
  | place _ => '?'

def Mark.number? : Mark → Option Nat
  | char _ => none
  | place number => some number

/-- The numbers of the placeholders in a text, from left to right. -/
def placeholders (text : String) : List Nat :=
  (marksOf text).filterMap Mark.number?

/-- A text with a question mark in place of each placeholder. -/
def withQuestionMarks (text : String) : String :=
  String.ofList ((marksOf text).map Mark.positional)

example : placeholders "a = $12 AND b$ = $3" = [12, 3] := by decide
example : withQuestionMarks "a = $12 AND b$ = $3" = "a = ? AND b$ = ?" := by decide

/-! ## 2. Reading texts one behind the other -/

/-- Whether a text can be read apart from what is in front of it. -/
def standsApart (cs : List Char) : Prop :=
  ∀ c ∈ cs.head?, c.isDigit = false

theorem leadingDigits_append {ys : List Char} (h : standsApart ys) (xs : List Char) :
    leadingDigits (xs ++ ys) = leadingDigits xs := by
  unfold leadingDigits
  induction xs with
  | nil =>
    cases ys with
    | nil => rfl
    | cons y rest => simp [h y rfl]
  | cons x rest ih =>
    rw [List.cons_append, List.takeWhile_cons, List.takeWhile_cons, ih]

theorem length_leadingDigits_le (xs : List Char) : (leadingDigits xs).length ≤ xs.length :=
  (List.takeWhile_sublist _).length_le

theorem isDigit_of_mem_leadingDigits {xs : List Char} : ∀ c ∈ leadingDigits xs, c.isDigit = true :=
  List.all_eq_true.1 List.all_takeWhile

theorem leadingDigits_eq_self {xs : List Char} (h : ∀ c ∈ xs, c.isDigit = true) :
    leadingDigits xs = xs := by
  rw [leadingDigits, ← List.append_nil xs, List.takeWhile_append_of_pos h, List.takeWhile_nil]

theorem readMarks_append {ys : List Char} (h : standsApart ys) (xs : List Char) :
    ∀ skip ≤ xs.length, readMarks skip (xs ++ ys) = readMarks skip xs ++ readMarks 0 ys := by
  induction xs with
  | nil =>
    intro skip hskip
    cases Nat.le_zero.1 hskip
    rfl
  | cons x rest ih =>
    intro skip hskip
    cases skip with
    | succ skip => exact ih skip (Nat.le_of_succ_le_succ hskip)
    | zero =>
      rw [List.cons_append, readMarks_cons, readMarks_cons, leadingDigits_append h]
      split
      · rw [ih _ (length_leadingDigits_le rest), List.cons_append]
      · rw [ih 0 (Nat.zero_le _), List.cons_append]

/-- A text that stands apart is read apart. -/
theorem marksOf_append (a : String) {b : String} (h : standsApart b.toList) :
    marksOf (a ++ b) = marksOf a ++ marksOf b := by
  unfold marksOf
  rw [String.toList_append]
  exact readMarks_append h a.toList 0 (Nat.zero_le _)

theorem readMarks_plain_append {xs : List Char} (h : ∀ c ∈ xs, IsPlainChar c) (ys : List Char) :
    readMarks 0 (xs ++ ys) = xs.map .char ++ readMarks 0 ys := by
  induction xs with
  | nil => rfl
  | cons x rest ih =>
    have hx : x ≠ '$' := (h x List.mem_cons_self).2
    rw [List.cons_append, readMarks_cons, if_neg fun hc => hx hc.1,
      ih fun c hc => h c (List.mem_cons_of_mem x hc)]
    rfl

/-- A plain text is read character by character. -/
theorem marksOf_plain_append {a : String} (h : IsPlain a) (b : String) :
    marksOf (a ++ b) = a.toList.map .char ++ marksOf b := by
  unfold marksOf
  rw [String.toList_append]
  exact readMarks_plain_append h b.toList

theorem marksOf_plain {a : String} (h : IsPlain a) : marksOf a = a.toList.map .char := by
  have hread := readMarks_plain_append h []
  rw [List.append_nil] at hread
  exact hread.trans (List.append_nil _)

theorem readMarks_length (xs : List Char) : readMarks xs.length xs = [] := by
  induction xs with
  | nil => rfl
  | cons x rest ih => exact ih

/-- A placeholder is read as its number. -/
theorem marksOf_placeholder (n : Nat) : marksOf ("$" ++ toString n) = [.place n] := by
  have hdigits : leadingDigits (Nat.toDigits 10 n) = Nat.toDigits 10 n :=
    leadingDigits_eq_self fun c hc => Nat.isDigit_of_mem_toDigits (by decide) (by decide) hc
  unfold marksOf
  rw [String.toList_append, Nat.toString_eq_ofList_toDigits]
  change readMarks 0 ('$' :: (String.ofList (Nat.toDigits 10 n)).toList) = _
  rw [String.toList_ofList, readMarks_cons, hdigits, if_pos ⟨rfl, Nat.toDigits_ne_nil⟩,
    Nat.ofDigitChars_ten_toDigits, readMarks_length]

/-! ## 3. What marks keep -/

theorem count_map_positional {ms : List Mark} (h : ∀ m ∈ ms, m ≠ .char '?') :
    (ms.map Mark.positional).count '?' = (ms.filterMap Mark.number?).length := by
  induction ms with
  | nil => rfl
  | cons m rest ih =>
    have hrest := ih fun x hx => h x (List.mem_cons_of_mem m hx)
    cases m with
    | char c =>
      have hc : c ≠ '?' := fun heq => h _ List.mem_cons_self (congrArg Mark.char heq)
      exact (List.count_cons_of_ne hc).trans hrest
    | place n => exact List.count_cons_self.trans (congrArg (· + 1) hrest)

theorem readMarks_ne_nil {cs : List Char} (h : cs ≠ []) : readMarks 0 cs ≠ [] := by
  cases cs with
  | nil => exact absurd rfl h
  | cons c rest =>
    rw [readMarks_cons]
    split <;> exact List.cons_ne_nil _ _

/-- The first mark is the first character, or a placeholder that begins with it. -/
theorem head?_readMarks (c : Char) (cs : List Char) :
    (readMarks 0 (c :: cs)).head? = some (.char c) ∨
      c = '$' ∧ ∃ n, (readMarks 0 (c :: cs)).head? = some (.place n) := by
  rw [readMarks_cons]
  split
  · next hc => exact .inr ⟨hc.1, _, rfl⟩
  · exact .inl rfl

/-- A test that dollar signs, digits and question marks pass cannot tell a text from its marks. -/
theorem all_readMarks {p : Char → Bool} (hp : p '?' = true) (hdollar : p '$' = true)
    (hdigit : ∀ c, c.isDigit = true → p c = true) (cs : List Char) :
    ∀ skip, ((readMarks skip cs).map Mark.positional).all p = (cs.drop skip).all p := by
  induction cs with
  | nil => intro skip; cases skip <;> rfl
  | cons c rest ih =>
    intro skip
    cases skip with
    | succ skip => exact ih skip
    | zero =>
      rw [readMarks_cons]
      split
      · next hc =>
        -- the digits are behind the mark in the text only, and all of them pass
        have hlead : (leadingDigits rest).all p = true :=
          List.all_eq_true.2 fun x hx => hdigit x (isDigit_of_mem_leadingDigits x hx)
        have hsplit : rest.all p = (rest.drop (leadingDigits rest).length).all p := by
          obtain ⟨others, hrest⟩ : leadingDigits rest <+: rest := List.takeWhile_prefix _
          have hdrop : rest.drop (leadingDigits rest).length = others :=
            (congrArg (List.drop _) hrest.symm).trans List.drop_left
          rw [hdrop, ← hrest, List.all_append, hlead, Bool.true_and]
        rw [List.map_cons, List.all_cons, ih, List.drop_zero, List.all_cons, hc.1, hdollar, hsplit]
        exact congrArg (· && _) hp
      · rw [List.map_cons, List.all_cons, ih, List.drop_zero, List.drop_zero, List.all_cons]
        rfl

end QueryPlan
