import QueryPlan.Proofs.Dialect.Quoting

/-!
# Quotes cannot be escaped from

String literals and quoted identifiers follow one rule: a quote opens, a quote closes, and inside a
doubled closing quote stands for one. In the string literals of MySQL a backslash besides takes the
next character as it is, so that it never ends a literal. `readDelimited` reads by this rule and
needs the closing quote.

Whatever text is written and whatever follows, the reader gives back the text and what follows: for
string literals of all built-in dialects (`read_stringLiteral`), and for the identifiers of any
dialect whose opening quote does not begin a plain name (`quoteIdent_lossless`). Such a dialect
writes different identifiers differently.
-/

namespace QueryPlan

/-! ## 1. A reader -/

/-- Reads the inside of quotes up to a closing quote that is not doubled, and what follows it. Where
    a backslash escapes, it takes the next character as it is. Without a closing quote nothing is
    read. -/
def readDelimited (close : Char) (backslash : Bool) : List Char → Option (List Char × List Char)
  | [] => none
  | [c] => if (backslash = true ∧ c = '\\') ∨ c ≠ close then none else some ([], [])
  | c :: next :: rest =>
    if backslash = true ∧ c = '\\' then
      (readDelimited close backslash rest).map (Prod.map (next :: ·) id)
    else if c = close then
      if next = close then
        (readDelimited close backslash rest).map (Prod.map (c :: ·) id)
      else some ([], next :: rest)
    else (readDelimited close backslash (next :: rest)).map (Prod.map (c :: ·) id)

/-- A way to write characters that the reader undoes one by one, whatever follows. -/
def Undoes (close : Char) (backslash : Bool) (escape : Char → List Char) : Prop :=
  ∀ c behind inside tail, readDelimited close backslash tail = some (inside, behind) →
    readDelimited close backslash (escape c ++ tail) = some (c :: inside, behind)

section Reader

variable {close : Char} {backslash : Bool}

/-- A reading is of a text that is not empty. -/
theorem exists_cons_of_readDelimited {tail : List Char} {r : List Char × List Char}
    (h : readDelimited close backslash tail = some r) : ∃ next rest, tail = next :: rest := by
  cases tail with
  | nil => cases h
  | cons next rest => exact ⟨next, rest, rfl⟩

/-- A doubled closing quote is undone, and so is any character that is neither a closing quote nor
    a backslash that escapes. -/
theorem undoes_doubled (close : Char) :
    Undoes close false fun c => if c = close then [c, c] else [c] := by
  intro c behind inside tail h
  obtain ⟨next, rest, rfl⟩ := exists_cons_of_readDelimited h
  by_cases hc : c = close
  · simp [readDelimited, hc, h]
  · simp [readDelimited, hc, h]

theorem undoes_escapeChar (backslash : Bool) :
    Undoes '\x27' backslash (Conventions.escapeChar backslash) := by
  intro c behind inside tail h
  obtain ⟨next, rest, rfl⟩ := exists_cons_of_readDelimited h
  unfold Conventions.escapeChar
  by_cases hquote : c = '\x27'
  · simp [readDelimited, hquote, h]
  · by_cases hslash : backslash = true ∧ c = '\\'
    · obtain ⟨rfl, rfl⟩ := hslash
      simp [readDelimited, h]
    · simp [readDelimited, hquote, hslash, h]

/-- **The closing quote ends the text**: no character of the text that is written inside does. -/
theorem readDelimited_of_undoes {escape : Char → List Char}
    (hescape : Undoes close backslash escape)
    (hclose : ¬(backslash = true ∧ close = '\\')) (text : List Char) {rest : List Char}
    (hrest : rest.head? ≠ some close) :
    readDelimited close backslash (text.flatMap escape ++ close :: rest) = some (text, rest) := by
  induction text with
  | nil =>
    cases rest with
    | nil => simp [readDelimited, hclose]
    | cons c rest =>
      have hc : c ≠ close := fun hc => hrest (congrArg some hc)
      simp [readDelimited, hclose, hc]
  | cons c text ih =>
    rw [List.flatMap_cons, List.append_assoc]
    exact hescape c rest text _ ih

end Reader

/-! ## 2. String literals -/

/-- Whether a backslash escapes in the string literals of an engine. -/
def DialectKind.escapesByBackslash : DialectKind → Bool
  | .mySql => true
  | _ => false

/-- Reads a string literal by the rule of an engine. -/
def DialectKind.readString (kind : DialectKind) : List Char → Option (List Char × List Char)
  | [] => none
  | c :: rest => if c = '\x27' then readDelimited '\x27' kind.escapesByBackslash rest else none

theorem DialectKind.stringLiteral_eq (kind : DialectKind) :
    kind.conventions.stringLiteral = Conventions.quotedText kind.escapesByBackslash := by
  cases kind <;> rfl

/-- **A string literal cannot be escaped from**: whatever text it is made of, reading takes the
    literal and nothing else, and gives the text. -/
theorem DialectKind.read_stringLiteral (kind : DialectKind) (text : String) (rest : List Char)
    (hrest : rest.head? ≠ some '\x27') :
    kind.readString ((kind.conventions.stringLiteral text).toList ++ rest) =
      some (text.toList, rest) := by
  have hchars : (kind.conventions.stringLiteral text).toList ++ rest =
      '\x27' :: (text.toList.flatMap (Conventions.escapeChar kind.escapesByBackslash) ++
        '\x27' :: rest) := by
    rw [kind.stringLiteral_eq, Conventions.quotedText, String.toList_ofList,
      Conventions.literalChars, List.append_assoc, List.cons_append, List.singleton_append]
  rw [hchars, readString, if_pos rfl]
  exact readDelimited_of_undoes (undoes_escapeChar _) (fun h => absurd h.2 (by decide)) text.toList
    hrest

/-- A text that ends in a backslash and a quote, in front of more text. -/
theorem DialectKind.read_stringLiteral_here :
    (" OR 1 = 1".toList.head? ≠ some '\x27') ∧
      DialectKind.mySql.readString
          ((DialectKind.mySql.conventions.stringLiteral "it\x27s \\\x27").toList ++
            " OR 1 = 1".toList) =
        some ("it\x27s \\\x27".toList, " OR 1 = 1".toList) :=
  ⟨by decide, DialectKind.mySql.read_stringLiteral _ _ (by decide)⟩

-- Without the rule of the engine the same literal would end early.
example : DialectKind.generic.readString "\x27a\\\x27 OR 1".toList =
    some ("a\\".toList, " OR 1".toList) := by
  decide

/-! ## 3. Identifiers -/

namespace Dialect

/-- Reads an identifier between the quotes of a dialect. -/
def readQuotedIdent (d : Dialect) : List Char → Option (List Char × List Char)
  | [] => none
  | c :: rest => if c = d.quoteOpen then readDelimited d.quoteClose false rest else none

variable {d : Dialect}

theorem quoteIdent_of_plain {ident : String} (hplain : isPlainIdent ident.toList = true)
    (hreserved : d.isReserved ident = false) : d.quoteIdent ident = ident := by
  rw [quoteIdent, hplain, hreserved]
  rfl

/-- An identifier is plain and not reserved, or it is written between quotes. -/
theorem quoteIdent_cases (d : Dialect) (ident : String) :
    (isPlainIdent ident.toList = true ∧ d.isReserved ident = false) ∨
      (d.quoteIdent ident).toList = quoteChars d.quoteOpen d.quoteClose ident.toList := by
  by_cases h : (isPlainIdent ident.toList && !d.isReserved ident) = true
  · rw [Bool.and_eq_true, Bool.not_eq_true'] at h
    exact .inl h
  · rw [quoteIdent, if_neg h, String.toList_ofList]
    exact .inr rfl

theorem length_lt_length_quoteChars (quoteOpen quoteClose : Char) (ident : List Char) :
    ident.length < (quoteChars quoteOpen quoteClose ident).length := by
  have hinside : ident.length ≤
      (ident.flatMap fun c => if c = quoteClose then [c, c] else [c]).length := by
    induction ident with
    | nil => exact Nat.le_refl 0
    | cons c ident ih =>
      rw [List.flatMap_cons, List.length_append, List.length_cons]
      split
      all_goals
        simp only [List.length_cons, List.length_nil]
        omega
  rw [quoteChars, List.length_append, List.length_cons, List.length_singleton]
  omega

/-- An identifier that stays as it is is plain and not reserved: quotes make it longer. -/
theorem plain_of_quoteIdent_eq {ident : String} (h : d.quoteIdent ident = ident) :
    isPlainIdent ident.toList = true ∧ d.isReserved ident = false := by
  rcases d.quoteIdent_cases ident with hplain | hquoted
  · exact hplain
  · have hlength := length_lt_length_quoteChars d.quoteOpen d.quoteClose ident.toList
    rw [← hquoted, h] at hlength
    exact absurd hlength (Nat.lt_irrefl _)

theorem readQuotedIdent_quoteChars (d : Dialect) (ident : List Char) {rest : List Char}
    (hrest : rest.head? ≠ some d.quoteClose) :
    d.readQuotedIdent (quoteChars d.quoteOpen d.quoteClose ident ++ rest) = some (ident, rest) := by
  rw [quoteChars, List.append_assoc, List.cons_append, List.singleton_append, readQuotedIdent,
    if_pos rfl]
  exact readDelimited_of_undoes (undoes_doubled _) (fun h => Bool.false_ne_true h.1) ident hrest

/-- What begins a plain identifier opens no quotes. -/
theorem readQuotedIdent_of_plain (hstart : isIdentStart d.quoteOpen = false)
    (hstar : d.quoteOpen ≠ '*') {ident : String} (h : isPlainIdent ident.toList = true) :
    d.readQuotedIdent ident.toList = none := by
  rcases isPlainIdent_cases h with hident | ⟨c, rest, hident, hc, _⟩
  · rw [hident, readQuotedIdent, if_neg hstar.symm]
  · have hopen : c ≠ d.quoteOpen := by
      rintro rfl
      rw [hstart] at hc
      cases hc
    rw [hident, readQuotedIdent, if_neg hopen]

/-- What a reader makes of an identifier that is written by itself: its name if it is quoted. -/
theorem readQuotedIdent_quoteIdent (hstart : isIdentStart d.quoteOpen = false)
    (hstar : d.quoteOpen ≠ '*') (ident : String) :
    d.readQuotedIdent (d.quoteIdent ident).toList =
      if d.quoteIdent ident = ident then none else some (ident.toList, []) := by
  split
  · next h =>
    rw [h]
    exact readQuotedIdent_of_plain hstart hstar (plain_of_quoteIdent_eq h).1
  · next h =>
    rcases d.quoteIdent_cases ident with ⟨hplain, hreserved⟩ | hquoted
    · exact absurd (quoteIdent_of_plain hplain hreserved) h
    · rw [hquoted, ← List.append_nil (quoteChars _ _ _)]
      exact d.readQuotedIdent_quoteChars ident.toList (Option.some_ne_none _).symm

/-- **Quoting loses nothing and cannot be escaped from.** An identifier that is not written as it is
    can be read back from its quotes, whatever follows other than a closing quote; one that is
    written as it is is a lower case name that is not reserved; and different identifiers are
    written differently. -/
theorem quoteIdent_lossless (d : Dialect) (hstart : isIdentStart d.quoteOpen = false)
    (hstar : d.quoteOpen ≠ '*') :
    (∀ ident : String, ident ≠ "*" →
      (d.quoteIdent ident ≠ ident → ∀ rest : List Char, rest.head? ≠ some d.quoteClose →
        d.readQuotedIdent ((d.quoteIdent ident).toList ++ rest) = some (ident.toList, rest)) ∧
      (d.quoteIdent ident = ident →
        (∃ c rest, ident.toList = c :: rest ∧ isIdentStart c = true ∧
          ∀ x ∈ rest, isIdentRest x = true) ∧ d.isReserved ident = false)) ∧
    ∀ a b : String, d.quoteIdent a = d.quoteIdent b → a = b := by
  refine ⟨fun ident hident => ⟨fun hquoted rest hrest => ?_, fun hsame => ?_⟩, fun a b hab => ?_⟩
  · rcases d.quoteIdent_cases ident with ⟨hplain, hreserved⟩ | hchars
    · exact absurd (quoteIdent_of_plain hplain hreserved) hquoted
    · rw [hchars]
      exact d.readQuotedIdent_quoteChars ident.toList hrest
  · obtain ⟨hplain, hreserved⟩ := plain_of_quoteIdent_eq hsame
    rcases isPlainIdent_cases hplain with hstar | ⟨c, rest, hname, hc, hrest⟩
    · exact absurd (String.toList_inj.1 hstar) hident
    · exact ⟨⟨c, rest, hname, hc, List.all_eq_true.1 hrest⟩, hreserved⟩
  · -- Both are read from the same text: with quotes by what is inside, without by the text itself.
    have ha := readQuotedIdent_quoteIdent hstart hstar a
    have hb := readQuotedIdent_quoteIdent hstart hstar b
    rw [hab, hb] at ha
    by_cases hsame : d.quoteIdent b = b
    · by_cases hsame' : d.quoteIdent b = a
      · exact hsame'.symm.trans hsame
      · rw [if_pos hsame, if_neg hsame'] at ha
        cases ha
    · by_cases hsame' : d.quoteIdent b = a
      · rw [if_neg hsame, if_pos hsame'] at ha
        cases ha
      · rw [if_neg hsame, if_neg hsame'] at ha
        exact (String.toList_inj.1 (congrArg Prod.fst (Option.some.inj ha))).symm

/-- A dialect with quotes that differ, and a reserved word of its own. -/
def angled : Dialect := (generic.withQuotes '<' '>').reserve ["Users"]

theorem quoteIdent_lossless_here :
    (isIdentStart angled.quoteOpen = false ∧ angled.quoteOpen ≠ '*') ∧
      angled.quoteIdent "users" = "<users>" ∧ angled.quoteIdent "a>" = "<a>>>" ∧
      angled.readQuotedIdent ((angled.quoteIdent "users").toList ++ ".id".toList) =
        some ("users".toList, ".id".toList) ∧
      angled.readQuotedIdent ((angled.quoteIdent "a>").toList ++ "<b>".toList) =
        some ("a>".toList, "<b>".toList) := by
  have h := angled.quoteIdent_lossless (by decide) (by decide)
  refine ⟨⟨by decide, by decide⟩, by decide +kernel, by decide +kernel, ?_, ?_⟩
  · exact (h.1 "users" (by decide)).1 (by decide +kernel) _ (by decide)
  · exact (h.1 "a>" (by decide)).1 (by decide +kernel) _ (by decide)

end Dialect

end QueryPlan
