import Mathlib.Data.List.Forall2
import QueryPlan.Compile.Output
import QueryPlan.Plan.Build
import QueryPlan.Proofs.Compile.PairedStatement
import QueryPlan.Proofs.Dialect.PrintOrder
import QueryPlan.Proofs.Placeholder.Marks
import QueryPlan.Proofs.Plan.PrintedTexts

/-!
# Placeholders by position and by number

A dialect that marks parameters by position repeats a parameter for each of its uses; one that
numbers them notes a name once. `placeholders_aligned` says that this is all the difference: the
texts agree up to the placeholders, and the placeholder at a position refers to the same argument or
constant in both.

The two compilations are compared by the pairing `numbering`. Its traces are the numbers of the
placeholders on the right side: `AlignedText` says that a pair of texts has them from left to right,
`AlignedParams` that they refer to the parameters of the left side in order.
-/

namespace QueryPlan

/-! ## 1. Texts -/

/-- Texts that agree up to placeholders, with the numbers of these on the right side. -/
structure AlignedText (numbers : List Nat) (t t' : String) : Prop where
  printed : (marksOf t').map Mark.positional = t.toList
  numbers : placeholders t' = numbers
  chars : ∀ m ∈ marksOf t', m ≠ .char '?'

namespace AlignedText

variable {v w : List Nat} {a a' b b' t t' : String}

theorem map_char_positional (cs : List Char) : (cs.map Mark.char).map Mark.positional = cs := by
  rw [List.map_map]
  exact List.map_id cs

theorem number?_char (cs : List Char) : (cs.map Mark.char).filterMap Mark.number? = [] := by
  rw [List.filterMap_map]
  exact List.filterMap_eq_nil_iff.2 fun _ _ => rfl

theorem char_ne_of_isPlain (ha : IsPlain a) : ∀ m ∈ a.toList.map Mark.char, m ≠ .char '?' := by
  intro m hm heq
  obtain ⟨c, hc, rfl⟩ := List.mem_map.1 hm
  cases heq
  exact (ha '?' hc).1 rfl

theorem front (hb : AlignedText v b b') (ha : IsPlain a) : AlignedText v (a ++ b) (a ++ b') where
  printed := by
    rw [marksOf_plain_append ha, List.map_append, map_char_positional, hb.printed,
      String.toList_append]
  numbers := by
    rw [placeholders, marksOf_plain_append ha, List.filterMap_append, number?_char]
    exact hb.numbers
  chars := by
    intro m hm
    rw [marksOf_plain_append ha, List.mem_append] at hm
    exact hm.elim (char_ne_of_isPlain ha m) (hb.chars m)

theorem plain (ha : IsPlain a) : AlignedText [] a a where
  printed := by rw [marksOf_plain ha, map_char_positional]
  numbers := by rw [placeholders, marksOf_plain ha, number?_char]
  chars := by rw [marksOf_plain ha]; exact char_ne_of_isPlain ha

theorem eq_empty_iff (h : AlignedText v t t') : t' = "" ↔ t = "" := by
  rw [← String.toList_eq_nil_iff, ← String.toList_eq_nil_iff, ← h.printed, List.map_eq_nil_iff]
  constructor
  · intro ht
    rw [marksOf, ht]
    rfl
  · intro hm
    by_contra ht
    exact readMarks_ne_nil ht hm

/-- The first characters are the same, unless there is a placeholder. -/
theorem head?_eq (h : AlignedText v t t') :
    t'.toList.head? = t.toList.head? ∨ t'.toList.head? = some '$' ∧ t.toList.head? = some '?' := by
  have hprinted := h.printed
  unfold marksOf at hprinted
  rw [← hprinted, List.head?_map]
  cases t'.toList with
  | nil => exact .inl rfl
  | cons c cs =>
    rcases head?_readMarks c cs with hm | ⟨rfl, n, hm⟩
    · rw [hm]
      exact .inl rfl
    · rw [hm]
      exact .inr ⟨rfl, rfl⟩

theorem standsApart (h : AlignedText v t t') (ho : opens t = true ∨ t = "") :
    standsApart t'.toList := by
  intro c hc
  rcases ho with ho | rfl
  · rcases h.head?_eq with heq | ⟨hdollar, -⟩
    · rw [heq] at hc
      unfold opens at ho
      split at ho
      · cases ho
      · next d ds ht =>
        rw [ht] at hc
        cases hc
        simp only [Bool.and_eq_true, Bool.not_eq_true'] at ho
        exact ho.1
    · rw [hdollar] at hc
      cases hc
      rfl
  · rw [h.eq_empty_iff.2 rfl] at hc
    cases hc

theorem append (ha : AlignedText v a a') (hb : AlignedText w b b')
    (ho : opens b = true ∨ b = "") : AlignedText (v ++ w) (a ++ b) (a' ++ b') := by
  have hmarks := marksOf_append a' (hb.standsApart ho)
  refine ⟨?_, ?_, ?_⟩
  · rw [hmarks, List.map_append, ha.printed, hb.printed, String.toList_append]
  · rw [placeholders, hmarks, List.filterMap_append]
    exact congrArg₂ _ ha.numbers hb.numbers
  · intro m hm
    rw [hmarks, List.mem_append] at hm
    exact hm.elim (ha.chars m) (hb.chars m)

theorem parenthesized (h : AlignedText v t t') :
    AlignedText v ("(" ++ t ++ ")") ("(" ++ t' ++ ")") := by
  have hopen := h.front (show IsPlain "(" by decide)
  have hclosed := hopen.append (plain (show IsPlain ")" by decide)) (.inl rfl)
  rwa [List.append_nil] at hclosed

theorem placeholder (n : Nat) : AlignedText [n] "?" ("$" ++ toString n) where
  printed := by rw [marksOf_placeholder]; rfl
  numbers := by rw [placeholders, marksOf_placeholder]; rfl
  chars := by
    intro m hm
    rw [marksOf_placeholder, List.mem_singleton] at hm
    rw [hm]
    exact Mark.noConfusion

/-- There is one question mark for each placeholder. -/
theorem count_eq (h : AlignedText v t t') : t.toList.count '?' = v.length := by
  rw [← h.printed, count_map_positional h.chars, ← h.numbers, placeholders]

/-- Parentheses are decided in the same way: neither kind of placeholder begins with a minus. -/
theorem operand (h : AlignedText v t t') (strength : Strength) (isLeft : Bool) (parent : Strength)
    (associativity : Associativity) :
    AlignedText v (Fragment.asOperand ⟨t, strength⟩ isLeft parent associativity).text
      (Fragment.asOperand ⟨t', strength⟩ isLeft parent associativity).text := by
  have hminus :
      Fragment.startsWithMinus ⟨t', strength⟩ = Fragment.startsWithMinus ⟨t, strength⟩ := by
    unfold Fragment.startsWithMinus
    rcases h.head?_eq with heq | ⟨hdollar, hmark⟩
    · exact congrArg (· == some '-') heq
    · dsimp only
      rw [hdollar, hmark]
      rfl
  have hneeds : needsParens ⟨t', strength⟩ isLeft parent associativity =
      needsParens ⟨t, strength⟩ isLeft parent associativity := rfl
  unfold Fragment.asOperand
  rw [hminus, hneeds]
  split
  · exact h.parenthesized
  · exact h

theorem isTermChar_of_isDigit {c : Char} (h : c.isDigit = true) :
    Renderer.isTermChar c = true := by
  have hterm : ∀ n ∈ List.range' 48 10, Renderer.isTermChar (Char.ofNat n) = true := by decide
  simp only [Char.isDigit, Bool.and_eq_true, decide_eq_true_eq, ge_iff_le] at h
  have hlow : 48 ≤ c.toNat := UInt32.le_iff_toNat_le.1 h.1
  have hhigh : c.toNat ≤ 57 := UInt32.le_iff_toNat_le.1 h.2
  rw [← Char.ofNat_toNat c]
  exact hterm c.toNat (List.mem_range'_1.2 ⟨hlow, by omega⟩)

theorem wrapWeak (h : AlignedText v t t') :
    AlignedText v (Renderer.wrapWeak t) (Renderer.wrapWeak t') := by
  have hall : t.toList.all Renderer.isTermChar = t'.toList.all Renderer.isTermChar := by
    rw [← h.printed]
    exact all_readMarks (by decide) (by decide) (fun _ => isTermChar_of_isDigit) _ 0
  unfold Renderer.wrapWeak
  rw [hall]
  split
  · exact h
  · exact h.parenthesized

end AlignedText

/-! ## 2. Parameters -/

/-- A number that refers to a parameter with the name and the value of another. -/
def Resolves (params : List Parameter) (number : Nat) (p : Parameter) : Prop :=
  0 < number ∧ ∃ q, params[number - 1]? = some q ∧ q.name = p.name ∧ q.value = p.value

theorem Resolves.append {params : List Parameter} {number : Nat} {p : Parameter}
    (h : Resolves params number p) (more : List Parameter) :
    Resolves (params ++ more) number p := by
  obtain ⟨hpos, q, hq, hsame⟩ := h
  have hlt : number - 1 < params.length := (List.getElem?_eq_some_iff.1 hq).1
  exact ⟨hpos, q, by rw [List.getElem?_append_left hlt, hq], hsame⟩

/-- A parameter that has just been noted is found by its number. -/
theorem Resolves.last (params : List Parameter) (p : Parameter) :
    Resolves (params ++ [p]) (params.length + 1) p :=
  ⟨Nat.succ_pos _, p, by rw [Nat.add_sub_cancel]; exact List.getElem?_concat_length, rfl, rfl⟩

/-- Parameters by position on the left and by number on the right, where some numbers refer to
    those of the left side in order. -/
structure AlignedParams (numbers : List Nat) (c c' : Collector) : Prop where
  positional : c.style = .positional
  numbered : c'.style = .numbered
  resolves : List.Forall₂ (Resolves c'.params) numbers c.params
  /-- A name has the place of an argument of that name. -/
  names : ∀ name index, Fields.get? c'.names name = some index →
    ∃ q, c'.params[index]? = some q ∧ q.name = some name ∧ q.value = none

namespace AlignedParams

variable {numbers : List Nat} {c c' : Collector}

theorem empty : AlignedParams [] (.empty .positional) (.empty .numbered) :=
  ⟨rfl, rfl, .nil, fun _ _ h => by cases h⟩

theorem length_eq (h : AlignedParams numbers c c') : numbers.length = c.params.length :=
  h.resolves.length_eq

theorem resolve (h : AlignedParams numbers c c') {i k : Nat} (hk : numbers[i]? = some k) :
    ∃ p, c.params[i]? = some p ∧ Resolves c'.params k p := by
  obtain ⟨hi, rfl⟩ := List.getElem?_eq_some_iff.1 hk
  have hi' : i < c.params.length := h.length_eq ▸ hi
  exact ⟨_, List.getElem?_eq_getElem hi', h.resolves.get hi hi'⟩

/-- A parameter noted on the left, whose number is known on the right. -/
theorem push (h : AlignedParams numbers c c') {number : Nat} {p : Parameter}
    (hp : Resolves c'.params number p) : AlignedParams (numbers ++ [number]) (c.push p) c' :=
  { h with resolves := List.rel_append h.resolves (.cons hp .nil) }

/-- A parameter noted on the right only. -/
theorem pushRight (h : AlignedParams numbers c c') (p : Parameter) :
    AlignedParams numbers c (c'.push p) :=
  { h with
    resolves := h.resolves.imp fun _ _ hr => hr.append [p]
    names := by
      intro name index hget
      obtain ⟨q, hq, hsame⟩ := h.names name index hget
      have hlt : index < c'.params.length := (List.getElem?_eq_some_iff.1 hq).1
      exact ⟨q, (List.getElem?_append_left hlt).trans hq, hsame⟩ }

theorem value (h : AlignedParams numbers c c') (v : Value) (type : Option DataType) :
    ∃ n, AlignedParams (numbers ++ [n]) (c.value v type).2 (c'.value v type).2 ∧
      AlignedText [n] (c.value v type).1 (c'.value v type).1 := by
  refine ⟨c'.params.length + 1, ?_, ?_⟩
  · unfold Collector.value
    rw [h.positional, h.numbered]
    exact (h.pushRight _).push (.last _ _)
  · unfold Collector.value
    rw [h.positional, h.numbered]
    exact .placeholder _

theorem placeOf (h : AlignedParams numbers c c') (name : String) (type : Option DataType) :
    ∃ index d, c'.placeOf name ⟨some name, none, type⟩ = (index, d) ∧
      AlignedParams (numbers ++ [index + 1]) (c.push ⟨some name, none, type⟩) d := by
  unfold Collector.placeOf
  split
  · next index hget =>
    obtain ⟨q, hq, hname, hvalue⟩ := h.names name index hget
    exact ⟨index, c', rfl, h.push ⟨Nat.succ_pos _, q, hq, hname, hvalue⟩⟩
  · refine ⟨_, _, rfl, ?_⟩
    have hpush := (h.pushRight ⟨some name, none, type⟩).push (.last _ _)
    refine { hpush with names := ?_ }
    intro other index hget
    dsimp only at hget
    rw [Fields.get?_insert] at hget
    split at hget
    · next heq =>
      cases hget
      exact ⟨_, List.getElem?_concat_length, congrArg some heq.symm, rfl⟩
    · exact hpush.names other index hget

theorem named (h : AlignedParams numbers c c') (name : String) (type : Option DataType) :
    ∃ n, AlignedParams (numbers ++ [n]) (c.named name type).2 (c'.named name type).2 ∧
      AlignedText [n] (c.named name type).1 (c'.named name type).1 := by
  obtain ⟨index, d, hplace, hd⟩ := h.placeOf name type
  unfold Collector.named
  rw [h.positional, h.numbered]
  dsimp only
  rw [hplace]
  exact ⟨index + 1, hd, .placeholder _⟩

/-- What has been noted on the left since a mark is noted once more; on the right the numbers are
    used again. -/
theorem repeatSince {since : List Nat} {d d' : Collector} (hc : AlignedParams numbers c c')
    (hd : AlignedParams (numbers ++ since) d d') :
    AlignedParams (numbers ++ since ++ since) (d.repeatSince c.mark) (d'.repeatSince c'.mark) := by
  have hdrop : List.Forall₂ (Resolves d'.params) since (d.params.drop c.mark) := by
    have hrel := List.forall₂_drop numbers.length hd.resolves
    rwa [List.drop_left, hc.length_eq] at hrel
  unfold Collector.repeatSince
  rw [if_pos hd.positional, if_neg (by rw [hd.numbered]; decide)]
  exact { hd with resolves := List.rel_append hd.resolves hdrop }

end AlignedParams

/-! ## 3. Compilations -/

/-- A setting on the left, and the same setting with numbered placeholders on the right. -/
def numbering (s : Setting) : Pairing :=
  { left := s
    right := { s with dialect := s.dialect.withPlaceholder .numbered }
    Text := AlignedText
    Clean := IsPlain
    Proper := IsPlain
    Noted := AlignedParams
    Excused := fun _ => False
    Free := False }

theorem lawful_numbering {s : Setting} (hs : s.dialect.Orderly) : (numbering s).Lawful where
  dialect := rfl
  constants := rfl
  strict := .inl rfl
  arrangement := .inr hs
  free h := h.elim
  freeClean h := h.elim
  ofFirm h := h.isPlain rfl
  cleanAppend := IsPlain.append
  quoteIdent h := by
    unfold Dialect.quoteIdent
    split
    · exact h
    · refine h.quoted (fun x c hc => ?_) hs.quoteOpen.1 hs.quoteClose.1
      split at hc <;> simpa using hc
  stringLiteral := hs.conventions.isPlain
  ofPlain h := h.isPlain rfl
  properLiteral := hs.conventions.isPlain
  intervalValue h := (hs.conventions.intervalValue h).isPlain rfl
  clean := .plain
  proper := .plain
  front ha hb := AlignedText.front hb ha
  sign h := AlignedText.front h (by decide)
  append ha hb ho := AlignedText.append ha hb (ho.resolve_left id)
  present := AlignedText.eq_empty_iff
  empty hw ht := by
    rw [show _ = [] from (AlignedText.numbers hw).symm, List.append_nil, List.nil_append]
    exact ⟨ht, ht⟩
  operandText h := h
  operand := AlignedText.operand
  guarded h strength := AlignedText.operand h strength false
  wrapWeak := AlignedText.wrapWeak
  references := .inl rfl
  named type _ h := by
    obtain ⟨n, hparams, htext⟩ := AlignedParams.named h _ type
    exact ⟨[n], hparams, htext⟩
  value v type h := by
    obtain ⟨n, hparams, htext⟩ := AlignedParams.value h v type
    exact ⟨[n], hparams, htext⟩
  repeated := AlignedParams.repeatSince

/-- A phrase whose printed texts are plain. -/
theorem fitsPhrase_numbering {s : Setting} {p : Phrase}
    (h : ∀ t ∈ p.texts (!s.constantsAsParams), IsPlain t) : (numbering s).FitsPhrase p := by
  have hbrings := Brings.phrase (by decide) (by decide) h
  cases p with
  | statement s => exact hbrings.words
  | expr e =>
    cases e with
    | param name type => exact trivial
    | constant value type =>
      intro hc
      cases hp : s.constantsAsParams with
      | false =>
        rw [hp] at h
        exact h
      | true =>
        change ¬(s.constantsAsParams && !value.isNull) = true at hc
        rw [hp] at hc
        cases value with
        | null => exact fun _ ht => absurd ht List.not_mem_nil
        | _ => exact absurd rfl hc
    | _ => exact hbrings.words

/-- With placeholders by position and by number, compilation ends with aligned texts and parameters,
    or with the same error. -/
theorem runRender_numbered (s : Statement) {d : Dialect} (o : Options) (hd : d.Orderly)
    (hpos : d.placeholder = .positional)
    (hs : ∀ t ∈ s.texts (!o.constantsAsParams), IsPlain t) :
    (numbering (.ofOptions d o)).Outcome AlignedText [] (s.runRender d o)
      (s.runRender (d.withPlaceholder .numbered) o) := by
  have hnoted : (numbering (.ofOptions d o)).Noted [] (.empty d.placeholder) (.empty .numbered) := by
    rw [hpos]
    exact .empty
  refine (lawful_numbering (s := .ofOptions d o) hd).compiles (fun σ p k hp => ?_) hnoted
  exact fitsPhrase_numbering (hp.texts (by decide) (by decide) hs)

/-- **Placeholders by position are aligned with placeholders by number.** For a plan whose texts
    have no question marks and dollar signs, both compilations succeed or both fail; the texts agree
    once each number is replaced by a question mark, there is one question mark for each parameter,
    and the placeholder at a position refers to the same name and value on both sides. -/
theorem placeholders_aligned (kind : DialectKind) (features : FeatureSet) (s : Statement)
    (o : Options) (hkind : kind = .generic ∨ kind = .mySql ∨ kind = .sqLite)
    (hformat : o.format = false) (hs : ∀ t ∈ s.texts (!o.constantsAsParams), IsPlain t) :
    let d := kind.dialect.withFeatures features
    ((∃ out, compileWith s d o = .ok out) ↔
      ∃ out, compileWith s (d.withPlaceholder .numbered) o = .ok out) ∧
    ∀ out out', compileWith s d o = .ok out →
      compileWith s (d.withPlaceholder .numbered) o = .ok out' →
      withQuestionMarks out'.sql = out.sql ∧ out.sql.toList.count '?' = out.params.length ∧
      ∀ i k : Nat, (placeholders out'.sql)[i]? = some k →
        0 < k ∧ ∃ p q : Parameter, out.params[i]? = some p ∧ out'.params[k - 1]? = some q ∧
          q.name = p.name ∧ q.value = p.value := by
  intro d
  have hd : d.Orderly := kind.orderly.withFeatures features
  have hpos : d.placeholder = .positional := by
    rcases hkind with rfl | rfl | rfl <;> rfl
  have hboth := runRender_numbered s o hd hpos hs
  unfold compileWith
  generalize s.runRender d o = x at hboth ⊢
  generalize s.runRender (d.withPlaceholder .numbered) o = y at hboth ⊢
  cases hboth with
  | same e =>
    refine ⟨⟨?_, ?_⟩, ?_⟩
    · rintro ⟨_, h⟩
      cases h
    · rintro ⟨_, h⟩
      cases h
    · intro _ _ h
      cases h
  | excused he => exact he.elim
  | ok hc ht =>
    refine ⟨⟨fun _ => ⟨_, rfl⟩, fun _ => ⟨_, rfl⟩⟩, ?_⟩
    rintro _ _ ⟨⟩ ⟨⟩
    dsimp only
    rw [hformat]
    have hparams : AlignedParams _ _ _ := hc.params
    refine ⟨?_, ?_, ?_⟩
    · exact (congrArg String.ofList ht.printed).trans String.ofList_toList
    · exact ht.count_eq.trans hparams.length_eq
    · intro i k hk
      rw [if_neg Bool.false_ne_true, ht.numbers] at hk
      obtain ⟨p, hp, hpos, q, hq, hsame⟩ := hparams.resolve hk
      exact ⟨hpos, p, q, hp, hq, hsame⟩

/-- A query that uses an argument twice, and orders by a sum that has to be printed twice where
    `NULLS LAST` is missing. -/
def Select.withRepeats : Select :=
  Select.empty.filter (.within (.column "a") (.parameter "x") (.ofValue (.text "k")))
    |>.filter (.binaryPredicate .eq (.column "b") (.parameter "x"))
    |>.order (OrderBy.nullsLast (Expr.asc (.binary .add (.column "a") (.parameter "y"))))

theorem placeholders_aligned_here :
    (∀ t ∈ (Statement.select .withRepeats).texts false, IsPlain t) ∧
    ∃ out out' : Compiled,
      compileWith (.select .withRepeats) .mySql {} = .ok out ∧
      compileWith (.select .withRepeats) (Dialect.mySql.withPlaceholder .numbered) {} = .ok out' ∧
      out'.sql = "SELECT * WHERE a BETWEEN $1 AND $2 AND b = $1 " ++
        "ORDER BY CASE WHEN (a + $3) IS NULL THEN 1 ELSE 0 END, a + $3" ∧
      withQuestionMarks out'.sql = out.sql ∧ out.sql.toList.count '?' = out.params.length ∧
      ∃ p q : Parameter, out.params[4]? = some p ∧ out'.params[2]? = some q ∧
        q.name = p.name ∧ q.value = p.value := by
  have hplain : ∀ t ∈ (Statement.select .withRepeats).texts false, IsPlain t := by decide
  have haligned := placeholders_aligned .mySql Dialect.mySql.features (.select .withRepeats) {}
    (.inr (.inl rfl)) rfl hplain
  have hsql : (compileWith (.select .withRepeats) (Dialect.mySql.withPlaceholder .numbered) {}).map
      Compiled.sql = .ok ("SELECT * WHERE a BETWEEN $1 AND $2 AND b = $1 " ++
        "ORDER BY CASE WHEN (a + $3) IS NULL THEN 1 ELSE 0 END, a + $3") := by decide +kernel
  obtain ⟨out', hout', htext⟩ := Compiled.exists_of_sql hsql
  obtain ⟨out, hout⟩ := haligned.1.2 ⟨out', hout'⟩
  obtain ⟨hmarks, hcount, hparams⟩ := haligned.2 out out' hout hout'
  have hfifth : (placeholders out'.sql)[4]? = some 3 := by
    rw [htext]
    decide +kernel
  exact ⟨hplain, out, out', hout, hout', htext, hmarks, hcount, (hparams 4 3 hfifth).2⟩

end QueryPlan
