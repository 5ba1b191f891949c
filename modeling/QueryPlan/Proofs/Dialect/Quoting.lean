import QueryPlan.Dialect.BuiltIn

/-!
# Identifiers can be read back

An identifier is written plain or between quotes, in which the closing quote is doubled. A reader
gets it back from the front of a text, whatever dot follows it (`readIdent_quoteIdent`), so that
different identifiers are written differently (`quoteIdent_injective`), and a name with its schema is
never written as a single identifier is (`quoteIdent_ne_dotted`).

All this holds if the quotes of a dialect cannot be taken for something else
(`Dialect.QuotesApart`), as it is for the built-in dialects.
-/

namespace QueryPlan

/-! ## 1. A reader -/

/-- Reads the inside of quotes up to a closing quote that is not doubled. -/
def readQuoted (quoteClose : Char) : List Char → List Char × List Char
  | [] => ([], [])
  | [c] => if c = quoteClose then ([], []) else ([c], [])
  | c :: next :: rest =>
    if c = quoteClose then
      if next = quoteClose then
        let (inside, behind) := readQuoted quoteClose rest
        (c :: inside, behind)
      else ([], next :: rest)
    else
      let (inside, behind) := readQuoted quoteClose (next :: rest)
      (c :: inside, behind)

/-- Reads an identifier from the front of a text. -/
def readIdent (quoteOpen quoteClose : Char) : List Char → List Char × List Char
  | [] => ([], [])
  | c :: rest =>
    if c = quoteOpen then readQuoted quoteClose rest
    else if c = '*' then (['*'], rest)
    else ((c :: rest).takeWhile isIdentRest, (c :: rest).dropWhile isIdentRest)

/-- Quotes that neither start a plain identifier nor are a dot. -/
structure Dialect.QuotesApart (d : Dialect) : Prop where
  notStart : isIdentStart d.quoteOpen = false
  notStar : d.quoteOpen ≠ '*'
  notDot : d.quoteClose ≠ '.'

theorem DialectKind.quotesApart (kind : DialectKind) : kind.dialect.QuotesApart := by
  cases kind <;> exact ⟨by decide, by decide, by decide⟩

/-- What may stand behind an identifier: nothing, or a dot. -/
def EndsIdent (rest : List Char) : Prop :=
  ∀ c ∈ rest.head?, c = '.'

/-! ## 2. Reading back -/

/-- The closing quote ends the inside, as it is doubled before. -/
theorem readQuoted_doubled {quoteClose : Char} (ident : List Char) {rest : List Char}
    (hrest : ∀ c ∈ rest.head?, c ≠ quoteClose) :
    readQuoted quoteClose
        (ident.flatMap (fun c => if c = quoteClose then [c, c] else [c]) ++ quoteClose :: rest) =
      (ident, rest) := by
  induction ident with
  | nil =>
    cases rest with
    | nil => simp [readQuoted]
    | cons c rest =>
      have hc : c ≠ quoteClose := hrest c rfl
      simp [readQuoted, hc]
  | cons c ident ih =>
    rw [List.flatMap_cons, List.append_assoc]
    generalize hX : ident.flatMap (fun c => if c = quoteClose then [c, c] else [c]) ++
      quoteClose :: rest = X at ih ⊢
    by_cases hc : c = quoteClose
    · simp [readQuoted, hc, ih]
    · obtain ⟨next, tail, rfl⟩ : ∃ next tail, X = next :: tail :=
        List.exists_cons_of_ne_nil (by rw [← hX]; simp)
      simp [readQuoted, hc, ih]

theorem isIdentRest_dot : isIdentRest '.' = false := by
  decide

/-- A plain identifier is `*` or a name. -/
theorem isPlainIdent_cases {ident : List Char} (h : isPlainIdent ident = true) :
    ident = ['*'] ∨ ∃ c rest, ident = c :: rest ∧ isIdentStart c = true ∧ rest.all isIdentRest = true := by
  cases ident with
  | nil => cases h
  | cons c rest =>
    simp only [isPlainIdent, Bool.or_eq_true, Bool.and_eq_true, beq_iff_eq, List.isEmpty_iff] at h
    rcases h with ⟨rfl, rfl⟩ | ⟨hc, hrest⟩
    · exact .inl rfl
    · exact .inr ⟨c, rest, rfl, hc, hrest⟩

/-- **An identifier can be read back** from the front of a text, if nothing or a dot follows. -/
theorem readIdent_quoteIdent {d : Dialect} (hd : d.QuotesApart) (ident : String) (rest : List Char)
    (hrest : EndsIdent rest) :
    readIdent d.quoteOpen d.quoteClose ((d.quoteIdent ident).toList ++ rest) =
      (ident.toList, rest) := by
  unfold Dialect.quoteIdent
  split
  · next hplain =>
    rcases isPlainIdent_cases (Bool.and_eq_true_iff.1 hplain).1 with hstar | ⟨c, cs, hname, hc, hcs⟩
    · rw [hstar]
      simp [readIdent, hd.notStar.symm]
    · rw [hname]
      have hopen : c ≠ d.quoteOpen := by
        rintro rfl
        rw [hd.notStart] at hc
        cases hc
      have hstar : c ≠ '*' := by
        rintro rfl
        exact absurd hc (by decide)
      have hinside : ∀ x ∈ c :: cs, isIdentRest x = true := by
        intro x hx
        rcases List.mem_cons.1 hx with rfl | hx
        · simp [isIdentRest, hc]
        · exact List.all_eq_true.1 hcs x hx
      have hbehind : rest.takeWhile isIdentRest = [] ∧ rest.dropWhile isIdentRest = rest := by
        cases rest with
        | nil => exact ⟨rfl, rfl⟩
        | cons x rest =>
          rw [hrest x rfl]
          simp [isIdentRest_dot]
      rw [List.cons_append, readIdent, if_neg hopen, if_neg hstar, ← List.cons_append,
        List.takeWhile_append_of_pos hinside, List.dropWhile_append_of_pos hinside, hbehind.1,
        hbehind.2, List.append_nil]
  · have hclose : ∀ c ∈ rest.head?, c ≠ d.quoteClose := by
      intro c hc
      rw [hrest c hc]
      exact hd.notDot.symm
    rw [String.toList_ofList, quoteChars, List.append_assoc, List.cons_append, readIdent, if_pos rfl]
    exact readQuoted_doubled ident.toList hclose

/-- Different identifiers are written differently. -/
theorem quoteIdent_injective {d : Dialect} (hd : d.QuotesApart) {a b : String}
    (h : d.quoteIdent a = d.quoteIdent b) : a = b := by
  have ha := readIdent_quoteIdent hd a [] nofun
  have hb := readIdent_quoteIdent hd b [] nofun
  rw [h, hb] at ha
  exact (String.toList_inj.1 (congrArg Prod.fst ha)).symm

/-- An identifier is never written as one that is qualified by another. -/
theorem quoteIdent_ne_dotted {d : Dialect} (hd : d.QuotesApart) (a b c : String) :
    d.quoteIdent a ≠ d.quoteIdent b ++ "." ++ d.quoteIdent c := by
  intro h
  have hdot : EndsIdent ('.' :: (d.quoteIdent c).toList) := by
    rintro x ⟨⟩
    rfl
  have ha := readIdent_quoteIdent hd a [] nofun
  have hb := readIdent_quoteIdent hd b _ hdot
  have htext : (d.quoteIdent a).toList = (d.quoteIdent b).toList ++ '.' :: (d.quoteIdent c).toList := by
    rw [h, String.toList_append, String.toList_append, List.append_assoc]
    rfl
  rw [List.append_nil, htext, hb] at ha
  cases congrArg Prod.snd ha

end QueryPlan
