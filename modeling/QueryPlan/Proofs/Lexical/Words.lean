import Mathlib.Data.List.Forall2
import QueryPlan.Dialect.BuiltIn
import QueryPlan.Proofs.Compile.References
import QueryPlan.Proofs.Dialect.Quoting

/-!
# Words and marks

A reader of a text first cuts it into pieces: marks, which stand for themselves, and the words
between marks and blanks. What is quoted belongs to the word around it (`Cutter.cut`).

Texts are put together from parts, and so are their pieces: `Cutter.Cuts` says which pieces a part
gives before a mark, a blank or the end, and `Cutter.Splits` which it gives before anything. A path
of identifiers is one word, whatever stands in its quotes (`isWord_of_isPath`).
-/

namespace QueryPlan

variable {a b text : String} {ps qs : List Piece} {q : QuoteState} {cs : List Char} {f : Fragment}
  {c : Char} {d : Dialect}

/-! ## 1. Cutting a text -/

/-- A piece of a text. -/
inductive Piece where
  | word (text : String)
  | mark (c : Char)
  deriving DecidableEq

/-- Where a reader stands with respect to quotes: after a closing quote it is not known yet whether
    that was doubled. -/
inductive QuoteState where
  | outside
  | inside
  | closed
  deriving DecidableEq

/-- What a reader cuts a text by. -/
structure Cutter where
  quoteOpen : Char
  quoteClose : Char
  marks : List Char

namespace Cutter

variable (r : Cutter)

/-- Whether a character ends a word if it is not quoted. -/
def ends (c : Char) : Bool :=
  c == ' ' || r.marks.contains c

/-- The state behind a character, or nothing if the character ends the word. -/
def next (q : QuoteState) (c : Char) : Option QuoteState :=
  if q = .inside then some (if c = r.quoteClose then .closed else .inside)
  else if q = .closed ∧ c = r.quoteClose then some .inside
  else if r.ends c then none
  else some (if c = r.quoteOpen then .inside else .outside)

/-- A word that is complete, before some pieces. -/
def flush (word : List Char) (pieces : List Piece) : List Piece :=
  if word.isEmpty then pieces else .word (String.ofList word.reverse) :: pieces

/-- The pieces of a text, from inside a word that is given backwards. -/
def cut (q : QuoteState) (word : List Char) : List Char → List Piece
  | [] => flush word []
  | c :: cs =>
    match r.next q c with
    | some q => cut q (c :: word) cs
    | none =>
      flush word (if c = ' ' then cut .outside [] cs else .mark c :: cut .outside [] cs)

def pieces (text : String) : List Piece :=
  r.cut .outside [] text.toList

/-- Whether a text cannot go on a word: it is empty, or it starts with what ends one. -/
def Breaks (rest : List Char) : Prop :=
  ∀ c ∈ rest.head?, r.ends c = true

/-- The pieces that a text gives if what follows cannot go on its last word. -/
def Cuts (text : String) (ps : List Piece) : Prop :=
  ∀ rest, r.Breaks rest → r.cut .outside [] (text.toList ++ rest) = ps ++ r.cut .outside [] rest

/-- The pieces that a text gives whatever follows. -/
def Splits (text : String) (ps : List Piece) : Prop :=
  ∀ rest, r.cut .outside [] (text.toList ++ rest) = ps ++ r.cut .outside [] rest

/-- A text that is one word. -/
def IsWord (text : String) : Prop :=
  text.toList ≠ [] ∧ ∃ q, text.toList.foldlM r.next .outside = some q ∧ q ≠ .inside

/-- Quotes and marks that cannot be taken for one another, nor for a part of a plain path. -/
def isApart : Bool :=
  (' ' :: r.quoteOpen :: r.quoteClose :: r.marks).all
      (fun c => !isIdentRest c && c != '*' && c != '.') &&
    !r.ends r.quoteOpen && !r.ends r.quoteClose

variable {r}

/-! ## 2. The parts of a text -/

theorem pieces_of_cuts (h : r.Cuts text ps) : r.pieces text = ps := by
  have hend : r.Breaks [] := by
    intro c hc
    cases hc
  have hnil := h [] hend
  rw [List.append_nil] at hnil
  rw [pieces, hnil]
  exact List.append_nil ps

theorem Splits.cuts (h : r.Splits text ps) : r.Cuts text ps :=
  fun rest _ => h rest

theorem Splits.append_cuts (ha : r.Splits a ps) (hb : r.Cuts b qs) :
    r.Cuts (a ++ b) (ps ++ qs) := by
  intro rest hrest
  rw [String.toList_append, List.append_assoc, ha, hb rest hrest, List.append_assoc]

/-- A text that cannot go on a word, as its first character ends one. -/
def StartsApart (r : Cutter) (text : String) : Prop :=
  ∃ c ∈ text.toList.head?, r.ends c = true

theorem StartsApart.breaks (h : r.StartsApart text) (rest : List Char) :
    r.Breaks (text.toList ++ rest) := by
  obtain ⟨c, hc, hends⟩ := h
  intro c' hc'
  rw [List.head?_append, Option.mem_def.1 hc] at hc'
  cases hc'
  exact hends

theorem startsApart_blank (r : Cutter) : r.StartsApart " " :=
  ⟨' ', rfl, rfl⟩

theorem StartsApart.append (h : r.StartsApart a) (b : String) : r.StartsApart (a ++ b) := by
  obtain ⟨c, hc, hends⟩ := h
  refine ⟨c, ?_, hends⟩
  rw [String.toList_append, List.head?_append, Option.mem_def.1 hc]
  rfl

theorem Cuts.append (ha : r.Cuts a ps) (hb : r.Cuts b qs) (hstart : r.StartsApart b) :
    r.Cuts (a ++ b) (ps ++ qs) := by
  intro rest hrest
  rw [String.toList_append, List.append_assoc, ha _ (hstart.breaks rest), hb rest hrest,
    List.append_assoc]

/-- Texts with a separator between them. -/
theorem cuts_intercalate {sep : String} (hsep : r.Splits sep qs) (hstart : r.StartsApart sep)
    {texts : List String} {pss : List (List Piece)} (h : List.Forall₂ r.Cuts texts pss)
    (hne : texts ≠ []) : r.Cuts (sep.intercalate texts) (qs.intercalate pss) := by
  induction h with
  | nil => exact absurd rfl hne
  | cons hfirst hrest ih =>
    cases hrest with
    | nil =>
      rw [String.intercalate_singleton, List.intercalate_singleton]
      exact hfirst
    | cons hsecond hrest =>
      rw [String.intercalate_cons_cons, List.intercalate_cons_cons, String.append_assoc,
        List.append_assoc]
      exact hfirst.append (hsep.append_cuts (ih (List.cons_ne_nil _ _))) (hstart.append _)

theorem Cuts.append_splits (ha : r.Cuts a ps) (hb : r.Splits b qs) (hstart : r.StartsApart b) :
    r.Splits (a ++ b) (ps ++ qs) := by
  intro rest
  rw [String.toList_append, List.append_assoc, ha _ (hstart.breaks rest), hb, List.append_assoc]

/-! ## 3. Words -/

/-- Quotes, marks and blanks are no characters of plain paths. -/
theorem plain_of_isApart (h : r.isApart = true) (hc : isIdentRest c = true ∨ c = '*' ∨ c = '.') :
    c ≠ r.quoteOpen ∧ c ≠ r.quoteClose ∧ r.ends c = false := by
  have hall := (Bool.and_eq_true_iff.1 (Bool.and_eq_true_iff.1 h).1).1
  have hout : ∀ x ∈ ' ' :: r.quoteOpen :: r.quoteClose :: r.marks, c ≠ x := by
    rintro x hx rfl
    have hx := List.all_eq_true.1 hall c hx
    rcases hc with hc | rfl | rfl
    · simp [hc] at hx
    · simp at hx
    · simp at hx
  refine ⟨hout _ (by simp), hout _ (by simp), ?_⟩
  have hblank : c ≠ ' ' := hout _ (by simp)
  have hmark : c ∉ r.marks := fun hmem => hout c (by simp [hmem]) rfl
  simp [ends, hblank, hmark]

theorem ends_quoteOpen (h : r.isApart = true) : r.ends r.quoteOpen = false := by
  simp only [isApart, Bool.and_eq_true, Bool.not_eq_true'] at h
  exact h.1.2

theorem ends_quoteClose (h : r.isApart = true) : r.ends r.quoteClose = false := by
  simp only [isApart, Bool.and_eq_true, Bool.not_eq_true'] at h
  exact h.2

theorem next_eq_none (h : r.isApart = true) (hq : q ≠ .inside) (hc : r.ends c = true) :
    r.next q c = none := by
  have hclose : c ≠ r.quoteClose := by
    rintro rfl
    rw [ends_quoteClose h] at hc
    cases hc
  simp [next, hq, hclose, hc]

/-- A mark is a piece of its own, and a blank is none. -/
theorem splits_of_ends (h : r.isApart = true) (htext : text.toList = [c]) (hc : r.ends c = true) :
    r.Splits text (if c = ' ' then [] else [.mark c]) := by
  intro rest
  have hnext : r.next .outside c = none := next_eq_none h (by decide) hc
  rw [htext, List.singleton_append, cut, hnext]
  dsimp only
  split
  · rfl
  · rfl

/-- A plain character goes on a word outside of quotes. -/
theorem next_plain (h : r.isApart = true) (hq : q ≠ .inside)
    (hc : isIdentRest c = true ∨ c = '*' ∨ c = '.') : r.next q c = some .outside := by
  obtain ⟨hopen, hclose, hends⟩ := plain_of_isApart h hc
  simp [next, hq, hopen, hclose, hends]

/-- The characters of a word are kept until its end. -/
theorem cut_run {q' : QuoteState} (h : cs.foldlM r.next q = some q') (word rest : List Char) :
    r.cut q word (cs ++ rest) = r.cut q' (cs.reverse ++ word) rest := by
  induction cs generalizing q word with
  | nil =>
    cases h
    rfl
  | cons c cs ih =>
    rw [List.foldlM_cons] at h
    obtain ⟨q₁, hnext, h⟩ := Option.bind_eq_some_iff.1 h
    rw [List.cons_append, cut, hnext]
    dsimp only
    rw [ih h, List.reverse_cons, List.append_assoc]
    rfl

/-- A word ends where the next character ends one. -/
theorem cut_end (hr : r.isApart = true) (hq : q ≠ .inside) {word : List Char} (hword : word ≠ [])
    {rest : List Char} (hrest : r.Breaks rest) :
    r.cut q word rest = .word (String.ofList word.reverse) :: r.cut .outside [] rest := by
  cases rest with
  | nil => simp [cut, flush, hword]
  | cons c rest =>
    have hc : r.ends c = true := hrest c rfl
    have hq' : r.next q c = none := next_eq_none hr hq hc
    have hout : r.next .outside c = none := next_eq_none hr (by decide) hc
    rw [cut, hq', cut, hout]
    simp [flush, hword]

theorem IsWord.cuts (hr : r.isApart = true) (h : r.IsWord text) : r.Cuts text [.word text] := by
  obtain ⟨hne, q, hrun, hq⟩ := h
  intro rest hrest
  rw [cut_run hrun, cut_end hr hq (by simpa using hne) hrest, List.append_nil, List.reverse_reverse,
    String.ofList_toList]
  rfl

/-! ## 4. Texts without quotes -/

/-- The pieces behind a character that is not quoted, and the word that is open there, backwards. -/
def takePlain (marks : List Char) (state : List Piece × List Char) (c : Char) :
    List Piece × List Char :=
  if c == ' ' || marks.contains c then
    (state.1 ++ flush state.2 (if c = ' ' then [] else [.mark c]), [])
  else (state.1, c :: state.2)

def runPlain (marks : List Char) (text : String) : List Piece × List Char :=
  text.toList.foldl (takePlain marks) ([], [])

/-- The pieces of a text without quotes. -/
def plainPieces (marks : List Char) (text : String) : List Piece :=
  (runPlain marks text).1 ++ flush (runPlain marks text).2 []

theorem flush_append (word : List Char) (ps qs : List Piece) :
    flush word (ps ++ qs) = flush word ps ++ qs := by
  unfold flush
  split
  · rfl
  · rfl

theorem cut_takePlain (h : ∀ c ∈ cs, c ≠ r.quoteOpen) (ps : List Piece) (word rest : List Char) :
    ps ++ r.cut .outside word (cs ++ rest) =
      (cs.foldl (takePlain r.marks) (ps, word)).1 ++
        r.cut .outside (cs.foldl (takePlain r.marks) (ps, word)).2 rest := by
  induction cs generalizing ps word with
  | nil => rfl
  | cons c cs ih =>
    have hc : c ≠ r.quoteOpen := h c List.mem_cons_self
    have ih := fun ps word => ih (fun x hx => h x (List.mem_cons_of_mem c hx)) ps word
    rw [List.foldl_cons, List.cons_append, cut, takePlain, ← ends]
    by_cases hends : r.ends c = true
    · have hnext : r.next .outside c = none := by
        simp [next, hends]
      have hmark : ∀ qs : List Piece,
          (if c = ' ' then qs else .mark c :: qs) = (if c = ' ' then [] else [.mark c]) ++ qs := by
        intro qs
        split
        · rfl
        · rfl
      rw [hnext, if_pos hends, ← ih]
      dsimp only
      rw [hmark, flush_append, List.append_assoc]
    · have hnext : r.next .outside c = some .outside := by
        simp [next, hends, hc]
      rw [hnext, if_neg hends, ← ih]

/-- **Without quotes, only marks and blanks matter.** -/
theorem cut_plain (h : ∀ c ∈ text.toList, c ≠ r.quoteOpen) (rest : List Char) :
    r.cut .outside [] (text.toList ++ rest) =
      (runPlain r.marks text).1 ++ r.cut .outside (runPlain r.marks text).2 rest :=
  cut_takePlain h [] [] rest

theorem cuts_plainPieces (hr : r.isApart = true) (h : ∀ c ∈ text.toList, c ≠ r.quoteOpen) :
    r.Cuts text (plainPieces r.marks text) := by
  intro rest hrest
  rw [cut_plain h, plainPieces, List.append_assoc]
  by_cases hword : (runPlain r.marks text).2 = []
  · rw [hword]
    rfl
  · rw [cut_end hr (by decide) hword hrest]
    simp [flush, hword]

/-- A text without quotes that ends with a blank or a mark. -/
theorem splits_plain (h : ∀ c ∈ text.toList, c ≠ r.quoteOpen)
    (hps : runPlain r.marks text = (ps, [])) : r.Splits text ps := by
  intro rest
  rw [cut_plain h, hps]

/-! ## 5. Paths -/

theorem run_plain (hr : r.isApart = true) (hcs : ∀ c ∈ cs, isIdentRest c = true ∨ c = '*' ∨ c = '.') :
    cs.foldlM r.next .outside = some .outside := by
  induction cs with
  | nil => rfl
  | cons c cs ih =>
    rw [List.foldlM_cons, next_plain hr (by decide) (hcs c List.mem_cons_self)]
    exact ih fun x hx => hcs x (List.mem_cons_of_mem c hx)

/-- A doubled closing quote does not end what is quoted. -/
theorem run_doubled (ident : List Char) :
    (ident.flatMap fun c => if c = r.quoteClose then [c, c] else [c]).foldlM r.next .inside =
      some .inside := by
  induction ident with
  | nil => rfl
  | cons c ident ih =>
    rw [List.flatMap_cons, List.foldlM_append]
    by_cases hc : c = r.quoteClose
    · simp [hc, next, ih]
    · simp [hc, next, ih]

theorem run_quoteChars (hr : r.isApart = true) (ident : List Char) :
    (quoteChars r.quoteOpen r.quoteClose ident).foldlM r.next .outside = some .closed := by
  have hopen : r.next .outside r.quoteOpen = some .inside := by
    simp [next, ends_quoteOpen hr]
  have hclose : r.next .inside r.quoteClose = some .closed := by
    simp [next]
  rw [quoteChars, List.cons_append, List.foldlM_cons, hopen]
  change List.foldlM r.next .inside _ = _
  rw [List.foldlM_append, run_doubled]
  simp [hclose]

end Cutter

/-- Cuts by some marks and the quotes of the dialect. -/
def Dialect.cutter (d : Dialect) (marks : List Char) : Cutter :=
  ⟨d.quoteOpen, d.quoteClose, marks⟩

theorem run_quoteIdent {marks : List Char} (hr : (d.cutter marks).isApart = true) (name : String) :
    (d.quoteIdent name).toList ≠ [] ∧
    ∃ q, (d.quoteIdent name).toList.foldlM (d.cutter marks).next .outside = some q ∧
      q ≠ .inside := by
  unfold Dialect.quoteIdent
  split
  · next hplain =>
    rcases isPlainIdent_cases (Bool.and_eq_true_iff.1 hplain).1 with hstar | ⟨c, cs, hname, hc, hcs⟩
    · rw [hstar]
      refine ⟨by simp, .outside, Cutter.run_plain hr fun x hx => ?_, by decide⟩
      exact .inr (.inl (List.mem_singleton.1 hx))
    · rw [hname]
      refine ⟨by simp, .outside, Cutter.run_plain hr fun x hx => .inl ?_, by decide⟩
      rcases List.mem_cons.1 hx with rfl | hx
      · simp [isIdentRest, hc]
      · exact List.all_eq_true.1 hcs x hx
  · rw [String.toList_ofList]
    exact ⟨by simp [quoteChars], .closed, Cutter.run_quoteChars hr name.toList, by decide⟩

/-- How a path starts. -/
theorem head_of_isPath (h : d.IsPath text) :
    ∃ c cs, text.toList = c :: cs ∧ (isIdentStart c = true ∨ c = '*' ∨ c = d.quoteOpen) := by
  induction h with
  | ident name =>
    unfold Dialect.quoteIdent
    split
    · next hplain =>
      rcases isPlainIdent_cases (Bool.and_eq_true_iff.1 hplain).1 with hstar | ⟨c, cs, hname, hc, -⟩
      · exact ⟨'*', [], hstar, .inr (.inl rfl)⟩
      · exact ⟨c, cs, hname, .inl hc⟩
    · exact ⟨d.quoteOpen, _, String.toList_ofList, .inr (.inr rfl)⟩
  | dotted hfront name ih =>
    obtain ⟨c, cs, hcs, hc⟩ := ih
    refine ⟨c, cs ++ '.' :: (d.quoteIdent name).toList, ?_, hc⟩
    rw [String.toList_append, String.toList_append, hcs]
    simp

/-- **A path is one word.** -/
theorem isWord_of_isPath {marks : List Char} (hr : (d.cutter marks).isApart = true)
    (h : d.IsPath text) : (d.cutter marks).IsWord text := by
  induction h with
  | ident name => exact run_quoteIdent hr name
  | dotted hfront name ih =>
    obtain ⟨hne, q, hrun, hq⟩ := ih
    obtain ⟨-, q', hrun', hq'⟩ := run_quoteIdent hr name
    refine ⟨by simp [hne], q', ?_, hq'⟩
    have hdot : (d.cutter marks).next q '.' = some .outside :=
      Cutter.next_plain hr hq (.inr (.inr rfl))
    rw [String.toList_append, String.toList_append, List.foldlM_append, List.foldlM_append, hrun]
    simp [hdot, hrun']

/-! ## 6. Operands -/

/-- A text that does not start with a minus sign. -/
def StartsPlain (text : String) : Prop :=
  ∃ c cs, text.toList = c :: cs ∧ c ≠ '-'

theorem StartsPlain.append (h : StartsPlain a) (b : String) : StartsPlain (a ++ b) := by
  obtain ⟨c, cs, hcs, hc⟩ := h
  exact ⟨c, cs ++ b.toList, by rw [String.toList_append, hcs]; rfl, hc⟩

theorem StartsPlain.startsWithMinus (h : StartsPlain f.text) : f.startsWithMinus = false := by
  obtain ⟨c, cs, hcs, hc⟩ := h
  simp [Fragment.startsWithMinus, hcs, hc]

theorem StartsPlain.asOperand (h : StartsPlain f.text) (isLeft : Bool) (parent : Strength)
    (associativity : Associativity) :
    StartsPlain (f.asOperand isLeft parent associativity).text := by
  unfold Fragment.asOperand
  split
  · exact ⟨'(', (f.text ++ ")").toList, by simp [Fragment.parenthesize], by decide⟩
  · exact h

/-- In the built-in dialects no path starts with a minus sign. -/
theorem DialectKind.startsPlain_path (kind : DialectKind) (h : kind.dialect.IsPath text) :
    StartsPlain text := by
  obtain ⟨c, cs, hcs, hc⟩ := head_of_isPath h
  refine ⟨c, cs, hcs, ?_⟩
  rintro rfl
  rcases hc with hc | hc | hc
  · cases hc
  · exact absurd hc (by decide)
  · cases kind <;> exact absurd hc (by decide)

/-- Pieces between parentheses. -/
def parenthesized (ps : List Piece) : List Piece :=
  .mark '(' :: ps ++ [.mark ')']

/-- The pieces of an operand that does not start with a minus sign. -/
theorem cuts_asOperand {r : Cutter} (hr : r.isApart = true) (hopen : r.ends '(' = true)
    (hclose : r.ends ')' = true) (hf : r.Cuts f.text ps) (hstart : StartsPlain f.text)
    (isLeft : Bool) (parent : Strength) (associativity : Associativity) :
    r.Cuts (f.asOperand isLeft parent associativity).text
      (if needsParens f isLeft parent associativity then parenthesized ps else ps) := by
  unfold Fragment.asOperand
  rw [hstart.startsWithMinus, Bool.and_false, Bool.false_or]
  split
  · have hleft : r.Splits "(" [.mark '('] := Cutter.splits_of_ends hr rfl hopen
    have hright : r.Splits ")" [.mark ')'] := Cutter.splits_of_ends hr rfl hclose
    have hapart : r.StartsApart ")" := ⟨')', rfl, hclose⟩
    exact (hleft.append_cuts hf).append hright.cuts hapart
  · exact hf

end QueryPlan
