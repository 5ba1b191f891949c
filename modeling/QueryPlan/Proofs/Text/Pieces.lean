import QueryPlan.Text.Blank
import QueryPlan.Text.Split

/-!
# Words and pieces

A text is cut into words at its blanks, and into pieces at a mark. Cutting at a blank or a mark
leaves two texts whose words or pieces can be taken by themselves, and blanks at the ends of a text
do not matter.
-/

namespace QueryPlan.Text

variable {c : Char} {cs : List Char}

/-! ## 1. Words -/

/-- A blank ends a word, and what follows it is read anew. -/
theorem wordsFrom_append (hc : isBlank c = true) (word front back : List Char) :
    wordsFrom word (front ++ c :: back) = wordsFrom word front ++ words back := by
  induction front generalizing word with
  | nil =>
    simp only [List.nil_append, wordsFrom, if_pos hc]
    split <;> rfl
  | cons d front ih =>
    rw [List.cons_append, wordsFrom, wordsFrom]
    split
    · split
      · exact ih []
      · rw [ih [], List.cons_append]
    · exact ih (d :: word)

theorem words_append (hc : isBlank c = true) (front back : List Char) :
    words (front ++ c :: back) = words front ++ words back :=
  wordsFrom_append hc [] front back

theorem wordsFrom_noBlank (h : ∀ d ∈ cs, isBlank d = false) (word : List Char) :
    wordsFrom word cs = wordsFrom (cs.reverse ++ word) [] := by
  induction cs generalizing word with
  | nil => rfl
  | cons d cs ih =>
    obtain ⟨hd, hcs⟩ := List.forall_mem_cons.1 h
    have hstep : wordsFrom word (d :: cs) = wordsFrom (d :: word) cs := by
      rw [wordsFrom, if_neg (by rw [hd]; decide)]
    rw [hstep, ih hcs, List.reverse_cons, List.append_assoc, List.singleton_append]

/-- A text without blanks is a word. -/
theorem words_noBlank (hne : cs ≠ []) (h : ∀ d ∈ cs, isBlank d = false) : words cs = [cs] := by
  rw [words, wordsFrom_noBlank h, List.append_nil, wordsFrom, List.reverse_reverse, if_neg]
  rwa [List.isEmpty_iff, List.reverse_eq_nil_iff]

/-- A word that has been begun is the first one. -/
theorem wordsFrom_begun (word cs : List Char) (hne : word ≠ []) :
    ∃ tail rest, wordsFrom word cs = (word.reverse ++ tail) :: rest := by
  have hempty : ¬word.isEmpty = true := by rwa [List.isEmpty_iff]
  induction cs generalizing word with
  | nil => exact ⟨[], [], by rw [wordsFrom, if_neg hempty, List.append_nil]⟩
  | cons d cs ih =>
    rw [wordsFrom]
    split
    · exact ⟨[], words cs, by rw [List.append_nil]; rfl⟩
    · obtain ⟨tail, rest, heq⟩ := ih (d :: word) (List.cons_ne_nil d word) (by simp)
      exact ⟨d :: tail, rest, by rw [heq, List.reverse_cons, List.append_assoc]; rfl⟩

/-- A text that starts with no blank starts like its first word. -/
theorem words_cons (hc : isBlank c = false) (cs : List Char) :
    ∃ tail rest, words (c :: cs) = (c :: tail) :: rest := by
  rw [words, wordsFrom, if_neg (by rw [hc]; decide)]
  exact wordsFrom_begun [c] cs (List.cons_ne_nil c [])

/-! ## 2. Blanks at the ends -/

theorem words_trimFront (cs : List Char) : words (trimFront cs) = words cs := by
  induction cs with
  | nil => rfl
  | cons d cs ih =>
    cases hd : isBlank d with
    | false => rw [trimFront, List.dropWhile_cons_of_neg (by rw [hd]; decide)]
    | true =>
      rw [trimFront, List.dropWhile_cons_of_pos hd]
      exact ih.trans (words_append hd [] cs).symm

theorem words_trimBack (cs : List Char) : words (trimBack cs) = words cs := by
  rw [← List.reverse_reverse cs]
  generalize cs.reverse = rs
  induction rs with
  | nil => rfl
  | cons d rs ih =>
    rw [List.reverse_cons]
    cases hd : isBlank d with
    | false =>
      rw [trimBack, List.reverse_append, List.reverse_reverse, List.reverse_singleton,
        List.singleton_append, List.dropWhile_cons_of_neg (by rw [hd]; decide), List.reverse_cons]
    | true =>
      have htrim : trimBack (rs.reverse ++ [d]) = trimBack rs.reverse := by
        rw [trimBack, List.reverse_append, List.reverse_reverse, List.reverse_singleton,
          List.singleton_append, List.dropWhile_cons_of_pos hd, trimBack, List.reverse_reverse]
      rw [htrim, ih, words_append hd]
      exact (List.append_nil _).symm

/-- **Blanks at the ends of a text do not change its words.** -/
theorem words_trim (cs : List Char) : words (trim cs) = words cs := by
  rw [trim, words_trimBack, words_trimFront]

/-! ## 3. Pieces -/

theorem splitOn_ne_nil (mark : Char) (cs : List Char) : splitOn mark cs ≠ [] := by
  cases cs with
  | nil => exact List.cons_ne_nil _ _
  | cons d cs =>
    rw [splitOn]
    split
    · split
      · exact List.cons_ne_nil _ _
      · exact List.cons_ne_nil _ _
    · exact List.cons_ne_nil _ _

theorem splitOn_cons (mark d : Char) (cs : List Char) :
    ∃ piece pieces, splitOn mark cs = piece :: pieces ∧
      splitOn mark (d :: cs) =
        if d == mark then [] :: piece :: pieces else (d :: piece) :: pieces := by
  obtain ⟨piece, pieces, heq⟩ := List.exists_cons_of_ne_nil (splitOn_ne_nil mark cs)
  exact ⟨piece, pieces, heq, by rw [splitOn, heq]⟩

/-- A text without the mark is one piece. -/
theorem splitOn_of_not_mem {mark : Char} (h : mark ∉ cs) : splitOn mark cs = [cs] := by
  induction cs with
  | nil => rfl
  | cons d cs ih =>
    rw [List.mem_cons, not_or] at h
    obtain ⟨piece, pieces, heq, hcons⟩ := splitOn_cons mark d cs
    rw [ih h.2] at heq
    cases heq
    rw [hcons, if_neg (by simpa using fun he => h.1 he.symm)]

/-- The first mark ends the first piece. -/
theorem splitOn_append {mark : Char} {front : List Char} (h : mark ∉ front) (back : List Char) :
    splitOn mark (front ++ mark :: back) = front :: splitOn mark back := by
  induction front with
  | nil =>
    obtain ⟨piece, pieces, heq, hcons⟩ := splitOn_cons mark mark back
    rw [List.nil_append, hcons, heq, if_pos (beq_self_eq_true mark)]
  | cons d front ih =>
    rw [List.mem_cons, not_or] at h
    obtain ⟨piece, pieces, heq, hcons⟩ := splitOn_cons mark d (front ++ mark :: back)
    rw [ih h.2] at heq
    cases heq
    rw [List.cons_append, hcons, if_neg (by simpa using fun he => h.1 he.symm)]

end QueryPlan.Text
