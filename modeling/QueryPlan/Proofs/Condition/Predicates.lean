import QueryPlan.Proofs.Condition.Printing
import QueryPlan.Proofs.Condition.Reading

/-!
# Reading predicates back

The text of a test is read as one operand (`reads_test`): as the predicate that the dialect writes,
or as its negation where the dialect has no such predicate (`ColumnTest.read`). A column is never
taken for a keyword, as a name that is one is quoted (`isKey_path`).
-/

namespace QueryPlan

variable {text word words : String}

/-! ## 1. Columns among keywords -/

/-- The keywords that a reader of conditions knows. -/
def conditionKeys : List String :=
  ["and", "or", "not", "between"]

/-- A word with a character that no keyword has is no keyword. -/
theorem isKey_of_mem {key : String} {c : Char} (hc : c ∈ word.toList) (hlower : c.toLower = c)
    (hkey : c ∉ key.toList) : isKey key word = false := by
  refine beq_false_of_ne fun h => hkey ?_
  rw [← h, lowerAscii, String.toList_ofList]
  exact hlower ▸ List.mem_map_of_mem hc

/-- **A path is no keyword**: names that are keywords are quoted. -/
theorem isKey_path (kind : DialectKind) (h : kind.dialect.IsPath word) {key : String}
    (hkey : key ∈ conditionKeys) : isKey key word = false := by
  have hdot : ∀ key ∈ conditionKeys, '.' ∉ key.toList := by
    decide
  have hopen : ∀ key ∈ conditionKeys, kind.dialect.quoteOpen ∉ key.toList := by
    cases kind <;> decide
  have hreserved : ∀ key ∈ conditionKeys, key ∈ reservedWords := by
    decide +kernel
  cases h with
  | ident name =>
    unfold Dialect.quoteIdent
    split
    · next hplain =>
      refine beq_false_of_ne fun heq => ?_
      have hnot := (Bool.and_eq_true_iff.1 hplain).2
      simp [Dialect.isReserved, isReservedWord, heq, hreserved key hkey] at hnot
    · refine isKey_of_mem (c := kind.dialect.quoteOpen) ?_ (by cases kind <;> decide)
        (hopen key hkey)
      rw [String.toList_ofList, quoteChars]
      exact List.mem_cons_self
  | dotted hfront name =>
    refine isKey_of_mem (c := '.') ?_ (by decide) (hdot key hkey)
    simp

/-- A word that is no keyword goes on a predicate. -/
theorem next_word (h : ∀ key ∈ conditionKeys, isKey key word = false) (q : PredicateState) :
    q.next (.word word) = some q := by
  have hand := h "and" (by decide)
  have hor := h "or" (by decide)
  have hbetween := h "between" (by decide)
  simp [PredicateState.next, hand, hor, hbetween]

theorem run_path (kind : DialectKind) (h : kind.dialect.IsPath word) (rest : List Piece)
    (q : PredicateState) :
    (Piece.word word :: rest).foldlM PredicateState.next q = rest.foldlM PredicateState.next q := by
  rw [List.foldlM_cons, next_word fun key hkey => isKey_path kind h hkey]
  rfl

/-- A predicate that starts with a path. -/
theorem isPredicate_path (kind : DialectKind) (h : kind.dialect.IsPath word) {rest : List Piece}
    (hrest : rest.foldlM PredicateState.next ⟨0, false⟩ = some ⟨0, false⟩) :
    IsPredicate (.word word :: rest) :=
  ⟨word, rest, rfl, ⟨isKey_path kind h (by decide), isKey_path kind h (by decide),
    isKey_path kind h (by decide)⟩, hrest⟩

/-- A predicate that starts with a path is no truth value. -/
theorem ofPredicate_path (kind : DialectKind) (h : kind.dialect.IsPath word) (rest : List Piece) :
    ofPredicate (.word word :: rest) = .leaf (.word word :: rest) := by
  obtain ⟨c, cs, hcs, hc⟩ := head_of_isPath h
  have hstart : c ≠ 'T' ∧ c ≠ 'F' ∧ c ≠ '1' := by
    rcases hc with hc | rfl | rfl
    · refine ⟨?_, ?_, ?_⟩ <;> (rintro rfl; cases hc)
    · decide
    · cases kind <;> decide
  have hne : ∀ (other : String) {d : Char} {ds : List Char}, other.toList = d :: ds → c ≠ d →
      (Piece.word word == Piece.word other) = false := by
    intro other d ds hother hd
    refine beq_false_of_ne fun heq => hd ?_
    cases heq
    rw [hcs] at hother
    exact (List.cons.inj hother).1
  simp [ofPredicate, constantPredicates, List.lookup_cons, hne "TRUE" rfl hstart.1,
    hne "FALSE" rfl hstart.2.1, hne "1" rfl hstart.2.2]

/-! ## 2. What is read for a test -/

/-- A column in lower case. -/
def loweredPieces (ref : String) : List Piece :=
  .word "LOWER" :: parenthesized [.word ref]

/-- The words between two operands in lower case. -/
def likePieces (negated : Bool) : List Piece :=
  if negated then [.word "NOT", .word "LIKE"] else [.word "LIKE"]

/-- What is read for a comparison. -/
def Writing.read (kind : DialectKind) (left right : String) : Writing → ReadFormula
  | plain words => .leaf (.word left :: (conditionCutter kind).pieces words ++ [.word right])
  | lowered negated => .leaf (loweredPieces left ++ likePieces negated ++ loweredPieces right)
  | distinct => .not (.leaf [.word left, .word "<=>", .word right])

/-- What is read for a test. -/
def ColumnTest.read (kind : DialectKind) (ref : ColumnRef → String) : ColumnTest → ReadFormula
  | compare op left right => (op.writing kind).read kind (ref left) (ref right)
  | isNull column negated =>
    .leaf (.word (ref column) :: (conditionCutter kind).pieces (nullWords negated))
  | between value low high negated =>
    .leaf (.word (ref value) :: (conditionCutter kind).pieces (betweenWords negated) ++
      [.word (ref low), .word "AND", .word (ref high)])
  | member value first rest negated =>
    .leaf (.word (ref value) :: (conditionCutter kind).pieces (memberWords negated) ++
      parenthesized ([.mark ','].intercalate ((first :: rest).map fun x => [.word (ref x)])))

/-- A text that is read as one operand. -/
def ReadsAsOperand (kind : DialectKind) (text : String) (operand : ReadFormula) : Prop :=
  StartsPlain text ∧ ∃ ps, (conditionCutter kind).Cuts text ps ∧ ReadsOperand ps operand

section

variable (kind : DialectKind)

theorem isApart_conditionCutter : (conditionCutter kind).isApart = true := by
  cases kind <;> decide

theorem cuts_path (h : kind.dialect.IsPath text) :
    (conditionCutter kind).Cuts text [.word text] :=
  (isWord_of_isPath (isApart_conditionCutter kind) h).cuts (isApart_conditionCutter kind)

/-- Whether a text has no quotes of a built-in dialect. -/
def isUnquoted (text : String) : Bool :=
  text.toList.all fun c => !(['"', '\x60', '['].contains c)

theorem ne_quoteOpen (h : isUnquoted text = true) :
    ∀ c ∈ text.toList, c ≠ (conditionCutter kind).quoteOpen := by
  rintro c hc rfl
  have hquote := List.all_eq_true.1 h _ hc
  cases kind <;> cases hquote

theorem pieces_unquoted (h : isUnquoted text = true) :
    (conditionCutter kind).pieces text = Cutter.plainPieces conditionMarks text :=
  Cutter.pieces_of_cuts
    (Cutter.cuts_plainPieces (isApart_conditionCutter kind) (ne_quoteOpen kind h))

theorem cuts_unquoted (h : isUnquoted text = true) :
    (conditionCutter kind).Cuts text ((conditionCutter kind).pieces text) := by
  rw [pieces_unquoted kind h]
  exact Cutter.cuts_plainPieces (isApart_conditionCutter kind) (ne_quoteOpen kind h)

theorem splits_unquoted (h : isUnquoted text = true) {ps : List Piece}
    (hps : Cutter.runPlain conditionMarks text = (ps, [])) :
    (conditionCutter kind).Splits text ps :=
  Cutter.splits_plain (ne_quoteOpen kind h) hps

theorem splits_close : (conditionCutter kind).Splits ")" [.mark ')'] :=
  splits_unquoted kind rfl rfl

theorem startsApart_close (h : text.toList.head? = some ')') :
    (conditionCutter kind).StartsApart text :=
  ⟨')', h, rfl⟩

theorem cuts_blank_words (h : isUnquoted words = true) :
    (conditionCutter kind).Cuts (" " ++ words) ((conditionCutter kind).pieces words) := by
  have hblank : (conditionCutter kind).Splits " " [] := splits_unquoted kind rfl rfl
  exact hblank.append_cuts (cuts_unquoted kind h)

theorem startsApart_words (words : String) :
    (conditionCutter kind).StartsApart (" " ++ words) :=
  (Cutter.startsApart_blank _).append _

theorem splits_words (h : isUnquoted words = true) :
    (conditionCutter kind).Splits (" " ++ words ++ " ") ((conditionCutter kind).pieces words) := by
  have hblank : (conditionCutter kind).Splits " " [] := splits_unquoted kind rfl rfl
  have hwords := (cuts_blank_words kind h).append_splits hblank (Cutter.startsApart_blank _)
  rwa [List.append_nil] at hwords

end

/-- Words between two columns of a comparison. -/
def StandsBetween (words : String) : Prop :=
  isUnquoted words = true ∧
    (Cutter.plainPieces conditionMarks words).foldlM PredicateState.next ⟨0, false⟩ =
      some ⟨0, false⟩

theorem standsBetween_writing {kind : DialectKind} {op : BinaryPredicate}
    (h : op.writing kind = .plain words) : StandsBetween words := by
  cases kind <;> cases op <;> cases h <;> exact ⟨rfl, rfl⟩

section

variable {kind : DialectKind} {left right : String} (hleft : kind.dialect.IsPath left)
  (hright : kind.dialect.IsPath right)
include hleft

theorem readsAsOperand_path {rest : List Piece}
    (hcuts : (conditionCutter kind).Cuts (left ++ text) (.word left :: rest))
    (hrest : rest.foldlM PredicateState.next ⟨0, false⟩ = some ⟨0, false⟩) :
    ReadsAsOperand kind (left ++ text) (.leaf (.word left :: rest)) := by
  refine ⟨(kind.startsPlain_path hleft).append text, _, hcuts, ?_⟩
  rw [← ofPredicate_path kind hleft]
  exact (isPredicate_path kind hleft hrest).readsOperand

include hright

/-- Two columns with some words between them. -/
theorem reads_plain (h : StandsBetween words) :
    ReadsAsOperand kind (left ++ " " ++ words ++ " " ++ right)
      (.leaf (.word left :: (conditionCutter kind).pieces words ++ [.word right])) := by
  have hcuts := ((cuts_path kind hleft).append_splits (splits_words kind h.1)
    ((startsApart_words kind words).append _)).append_cuts (cuts_path kind hright)
  have hrest : ((conditionCutter kind).pieces words ++ [Piece.word right]).foldlM
      PredicateState.next ⟨0, false⟩ = some ⟨0, false⟩ := by
    rw [List.foldlM_append, pieces_unquoted kind h.1, h.2]
    exact run_path kind hright [] ⟨0, false⟩
  simp only [String.append_assoc, List.cons_append, List.nil_append] at hcuts ⊢
  exact readsAsOperand_path hleft hcuts hrest

/-- Two columns in lower case. -/
theorem reads_lowered (negated : Bool) :
    ReadsAsOperand kind ((Writing.lowered negated).text left right)
      (.leaf (loweredPieces left ++ likePieces negated ++ loweredPieces right)) := by
  have hopen : (conditionCutter kind).Splits "LOWER(" [.word "LOWER", .mark '('] :=
    splits_unquoted kind rfl rfl
  have hmiddle : (conditionCutter kind).Splits
      (if negated then ") NOT LIKE LOWER(" else ") LIKE LOWER(")
      (.mark ')' :: likePieces negated ++ [.word "LOWER", .mark '(']) := by
    cases negated <;> exact splits_unquoted kind rfl rfl
  have hcuts := (((hopen.append_cuts (cuts_path kind hleft)).append_splits hmiddle
    (startsApart_close kind (by cases negated <;> rfl))).append_cuts (cuts_path kind hright)).append
    (splits_close kind).cuts (startsApart_close kind rfl)
  have hpredicate :
      IsPredicate (loweredPieces left ++ likePieces negated ++ loweredPieces right) := by
    refine ⟨"LOWER", _, rfl, by decide, ?_⟩
    cases negated <;> rfl
  have hleaf : ofPredicate (loweredPieces left ++ likePieces negated ++ loweredPieces right) =
      .leaf (loweredPieces left ++ likePieces negated ++ loweredPieces right) := rfl
  have hstart : StartsPlain "LOWER(" := ⟨'L', _, rfl, by decide⟩
  refine ⟨?_, _, ?_, hleaf ▸ hpredicate.readsOperand⟩
  · cases negated <;> exact (((hstart.append _).append _).append _).append _
  · cases negated <;> exact hcuts

/-- The negation of a comparison that takes nulls as values. -/
theorem reads_distinct :
    ReadsAsOperand kind (Writing.distinct.text left right)
      (.not (.leaf [.word left, .word "<=>", .word right])) := by
  have hopen : (conditionCutter kind).Splits "NOT (" [.word "NOT", .mark '('] :=
    splits_unquoted kind rfl rfl
  have hbetween : StandsBetween "<=>" := ⟨rfl, rfl⟩
  have hpieces : (conditionCutter kind).pieces "<=>" = [.word "<=>"] :=
    pieces_unquoted kind rfl
  have hstart : StartsPlain "NOT (" := ⟨'N', _, rfl, by decide⟩
  obtain ⟨-, ps, hcuts, hreads⟩ := reads_plain hleft hright hbetween
  rw [hpieces] at hreads
  have htext : Writing.distinct.text left right =
      "NOT (" ++ (left ++ " " ++ "<=>" ++ " " ++ right) ++ ")" := by
    have hwords : " <=> " ++ right = " " ++ ("<=>" ++ (" " ++ right)) := by
      rw [← String.append_assoc, ← String.append_assoc]
      rfl
    simp only [Writing.text, String.append_assoc, hwords]
  rw [htext]
  refine ⟨(hstart.append _).append _, _, (hopen.append_cuts hcuts).append (splits_close kind).cuts
    (startsApart_close kind rfl), ?_⟩
  exact hreads.row.rows.parenthesized.not

end

section

variable {kind : DialectKind} {ref : ColumnRef → String}
  (href : ∀ column, kind.dialect.IsPath (ref column))
include href

theorem reads_isNull (column : ColumnRef) (negated : Bool) :
    ReadsAsOperand kind ((ColumnTest.isNull column negated).printed kind ref).text
      ((ColumnTest.isNull column negated).read kind ref) := by
  have hwords : isUnquoted (nullWords negated) = true := by
    cases negated <;> rfl
  have hcuts := (cuts_path kind (href column)).append (cuts_blank_words kind hwords)
    (startsApart_words kind _)
  have hrest : ((conditionCutter kind).pieces (nullWords negated)).foldlM PredicateState.next
      ⟨0, false⟩ = some ⟨0, false⟩ := by
    rw [pieces_unquoted kind hwords]
    cases negated <;> rfl
  unfold ColumnTest.printed ColumnTest.read
  dsimp only
  rw [String.append_assoc]
  exact readsAsOperand_path (href column) hcuts hrest

theorem reads_between (value low high : ColumnRef) (negated : Bool) :
    ReadsAsOperand kind ((ColumnTest.between value low high negated).printed kind ref).text
      ((ColumnTest.between value low high negated).read kind ref) := by
  have hwords : isUnquoted (betweenWords negated) = true := by
    cases negated <;> rfl
  have hand : (conditionCutter kind).Splits " AND " [.word "AND"] := splits_unquoted kind rfl rfl
  have hcuts := ((((cuts_path kind (href value)).append_splits (splits_words kind hwords)
    ((startsApart_words kind _).append _)).append_cuts (cuts_path kind (href low))).append_splits hand
    ⟨' ', rfl, rfl⟩).append_cuts (cuts_path kind (href high))
  have hrest : ((conditionCutter kind).pieces (betweenWords negated) ++
      [Piece.word (ref low), .word "AND", .word (ref high)]).foldlM PredicateState.next ⟨0, false⟩ =
      some ⟨0, false⟩ := by
    have hfront : ((conditionCutter kind).pieces (betweenWords negated)).foldlM
        PredicateState.next ⟨0, false⟩ = some ⟨0, true⟩ := by
      rw [pieces_unquoted kind hwords]
      cases negated <;> rfl
    rw [List.foldlM_append, hfront]
    change List.foldlM PredicateState.next ⟨0, true⟩ _ = _
    have hnext : PredicateState.next ⟨0, true⟩ (.word "AND") = some ⟨0, false⟩ := rfl
    rw [run_path kind (href low), List.foldlM_cons, hnext]
    exact run_path kind (href high) [] ⟨0, false⟩
  unfold ColumnTest.printed ColumnTest.read
  simp only [String.append_assoc, List.cons_append, List.nil_append, List.append_assoc] at hcuts ⊢
  exact readsAsOperand_path (href value) hcuts hrest

omit href in
/-- A list in parentheses belongs to a predicate. -/
theorem run_list (list : List ColumnRef) :
    ([Piece.mark ','].intercalate (list.map fun x => [.word (ref x)])).foldlM PredicateState.next
      ⟨1, false⟩ = some ⟨1, false⟩ := by
  induction list with
  | nil => rfl
  | cons x list ih =>
    cases list with
    | nil => rfl
    | cons y list =>
      rw [List.map_cons, List.map_cons, List.intercalate_cons_cons]
      exact ih

theorem reads_member (value first : ColumnRef) (rest : List ColumnRef) (negated : Bool) :
    ReadsAsOperand kind ((ColumnTest.member value first rest negated).printed kind ref).text
      ((ColumnTest.member value first rest negated).read kind ref) := by
  have hwords : isUnquoted (memberWords negated) = true := by
    cases negated <;> rfl
  have hopen : (conditionCutter kind).Splits " (" [.mark '('] := splits_unquoted kind rfl rfl
  have hcomma : (conditionCutter kind).Splits ", " [.mark ','] := splits_unquoted kind rfl rfl
  have hlist : (conditionCutter kind).Cuts (", ".intercalate ((first :: rest).map ref))
      ([.mark ','].intercalate ((first :: rest).map fun x => [.word (ref x)])) := by
    refine Cutter.cuts_intercalate hcomma ⟨',', rfl, rfl⟩ ?_ (by simp)
    rw [List.forall₂_map_left_iff, List.forall₂_map_right_iff, List.forall₂_same]
    exact fun x _ => cuts_path kind (href x)
  have hcuts := (((cuts_path kind (href value)).append_splits
    ((cuts_blank_words kind hwords).append_splits hopen ⟨' ', rfl, rfl⟩)
    ((startsApart_words kind _).append _)).append_cuts hlist).append (splits_close kind).cuts
    (startsApart_close kind rfl)
  have hrest : ((conditionCutter kind).pieces (memberWords negated) ++
      parenthesized ([.mark ','].intercalate ((first :: rest).map fun x => [.word (ref x)]))).foldlM
      PredicateState.next ⟨0, false⟩ = some ⟨0, false⟩ := by
    have hfront : ((conditionCutter kind).pieces (memberWords negated)).foldlM
        PredicateState.next ⟨0, false⟩ = some ⟨0, false⟩ := by
      rw [pieces_unquoted kind hwords]
      cases negated <;> rfl
    rw [List.foldlM_append, hfront, parenthesized, List.cons_append]
    change List.foldlM PredicateState.next ⟨1, false⟩ _ = _
    rw [List.foldlM_append, run_list]
    rfl
  unfold ColumnTest.printed ColumnTest.read
  simp only [parenthesized, String.append_assoc, List.cons_append, List.nil_append,
    List.append_assoc] at hcuts hrest ⊢
  exact readsAsOperand_path (href value) hcuts hrest

/-- **The text of a test is read as one operand.** -/
theorem reads_test (test : ColumnTest) :
    ReadsAsOperand kind (test.printed kind ref).text (test.read kind ref) := by
  cases test with
  | compare op left right =>
    have hleft := href left
    have hright := href right
    unfold ColumnTest.printed ColumnTest.read Writing.fragment
    dsimp only
    cases hwriting : op.writing kind with
    | plain words => exact reads_plain hleft hright (standsBetween_writing hwriting)
    | lowered negated => exact reads_lowered hleft hright negated
    | distinct => exact reads_distinct hleft hright
  | isNull column negated => exact reads_isNull href column negated
  | between value low high negated => exact reads_between href value low high negated
  | member value first rest negated => exact reads_member href value first rest negated

end

end QueryPlan
