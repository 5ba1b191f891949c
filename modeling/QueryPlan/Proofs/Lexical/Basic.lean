import QueryPlan.Number.Numeral
import QueryPlan.Proofs.Dialect.Delimited
import QueryPlan.Text.Hex

/-!
# Tokens by the lexical rules of an engine

A text is cut into words, numbers, string literals, quoted identifiers and symbols. The scanner goes
over it character by character: a character extends the token that has been begun if it can, else
that token ends and the next one begins. A text that ends inside quotes, that has a comment or a run
like `1x` is not made of complete tokens and is not scanned.

What is shown here of single texts carries over to texts that stand side by side: where no token
goes on from one into the other, the tokens of both together are those of each (`cut?_append`). A
text that is followed by a separator only `Lexes` to its tokens whatever follows.
-/

namespace QueryPlan

/-- The lexical rules in which engines differ. -/
structure Lexicon where
  /-- The quotes of identifiers. -/
  quoteOpen : Char
  quoteClose : Char
  /-- A backslash escapes in string literals. -/
  backslash : Bool
  /-- A number sign begins a comment. -/
  hash : Bool

/-- The lexical rules of a built-in engine. -/
def DialectKind.lexicon (kind : DialectKind) : Lexicon :=
  { quoteOpen := kind.dialect.quoteOpen
    quoteClose := kind.dialect.quoteClose
    backslash := kind.escapesByBackslash
    hash := kind.escapesByBackslash }

namespace Lexicon

open Numeral

/-! ## 1. Numbers -/

/-- The exponent of a number, if it has one. -/
def isExponent : List Char → Bool
  | [] => true
  | c :: cs => (c == 'e' || c == 'E') && (natural? (splitSign cs).2).isSome

/-- What may follow the digits of a number: a fraction and an exponent, both of which may be
    missing. -/
def isNumeralTail : List Char → Bool
  | [] => true
  | c :: cs =>
    if c = '.' then !(spanDigits cs).1.isEmpty && isExponent (spanDigits cs).2
    else isExponent (c :: cs)

/-- A number: a sign, digits, a fraction and an exponent, of which only the digits have to stand. -/
def isNumeral (cs : List Char) : Bool :=
  let (whole, tail) := spanDigits (splitSign cs).2
  !whole.isEmpty && isNumeralTail tail

/-- Bytes written as a number in hexadecimal. -/
def isByteString : List Char → Bool
  | '0' :: 'x' :: digits => digits.all fun c => (Text.hexValue? c).isSome
  | _ => false

/-- Whether a character goes on a run that begins like a number. A sign does behind the letter of an
    exponent. -/
def goesOn (run : List Char) (c : Char) : Bool :=
  c.isAlphanum || c == '.' || c == '_' ||
    ((c == '+' || c == '-') && (run.getLast? == some 'e' || run.getLast? == some 'E'))

/-! ## 2. The scanner -/

inductive Token where
  | word (chars : List Char)
  | number (chars : List Char)
  | bytes (chars : List Char)
  /-- A string literal, by the text that it stands for. -/
  | string (text : List Char)
  /-- An identifier in quotes, by its name. -/
  | ident (name : List Char)
  | symbol (c : Char)
  deriving DecidableEq

/-- What has been begun. -/
inductive Mode where
  | between
  | symbol (c : Char)
  | word (run : List Char)
  | numeric (run : List Char)
  | string (inside : List Char)
  /-- Behind a backslash in a string literal. -/
  | stringEscape (inside : List Char)
  /-- Behind a quote in a string literal: at its end, or in the middle of a doubled quote. -/
  | stringEnd (inside : List Char)
  | ident (inside : List Char)
  | identEnd (inside : List Char)
  | comment
  deriving DecidableEq

def isWordChar (c : Char) : Bool :=
  c.isAlphanum || c == '_'

/-- What is begun with a character. -/
def start (L : Lexicon) (c : Char) : Mode :=
  if Text.isBlank c then .between
  else if c = '\x27' then .string []
  else if c = L.quoteOpen then .ident []
  else if L.hash = true ∧ c = '#' then .comment
  else if isDigit c then .numeric [c]
  else if isWordChar c then .word [c]
  else .symbol c

/-- What has been begun with a further character, if that belongs to it. -/
def extend (L : Lexicon) : Mode → Char → Option Mode
  | .between, _ => none
  | .symbol s, c =>
    if (s = '+' ∨ s = '-') ∧ isDigit c = true then some (.numeric [s, c])
    else if (s = '-' ∧ c = '-') ∨ (s = '/' ∧ c = '*') then some .comment
    else none
  | .word run, c => if isWordChar c then some (.word (run ++ [c])) else none
  | .numeric run, c => if goesOn run c then some (.numeric (run ++ [c])) else none
  | .string inside, c =>
    if L.backslash = true ∧ c = '\\' then some (.stringEscape inside)
    else if c = '\x27' then some (.stringEnd inside)
    else some (.string (inside ++ [c]))
  | .stringEscape inside, c => some (.string (inside ++ [c]))
  | .stringEnd inside, c => if c = '\x27' then some (.string (inside ++ [c])) else none
  | .ident inside, c =>
    if c = L.quoteClose then some (.identEnd inside) else some (.ident (inside ++ [c]))
  | .identEnd inside, c => if c = L.quoteClose then some (.ident (inside ++ [c])) else none
  | .comment, _ => some .comment

/-- The tokens of what has been begun, if it is complete. -/
def Mode.close : Mode → Option (List Token)
  | .between => some []
  | .symbol c => some [.symbol c]
  | .word run => some [.word run]
  | .numeric run =>
    if isNumeral run then some [.number run]
    else if isByteString run then some [.bytes run]
    else none
  | .stringEnd inside => some [.string inside]
  | .identEnd inside => some [.ident inside]
  | .string _ => none
  | .stringEscape _ => none
  | .ident _ => none
  | .comment => none

/-- Goes over a text: the tokens that end in it, and what has been begun at its end. -/
def run (L : Lexicon) : Mode → List Char → Option (List Token × Mode)
  | m, [] => some ([], m)
  | m, c :: cs =>
    match L.extend m c with
    | some m => L.run m cs
    | none =>
      match m.close with
      | some ended => (L.run (L.start c) cs).map (Prod.map (ended ++ ·) id)
      | none => none

/-- The tokens of a text, and what its last token is. -/
def cut? (L : Lexicon) (cs : List Char) : Option (List Token × Mode) :=
  (L.run .between cs).bind fun r => r.2.close.map fun last => (r.1 ++ last, r.2)

/-- The tokens of a text that is made of complete tokens. -/
def scan (L : Lexicon) (cs : List Char) : Option (List Token) :=
  (L.cut? cs).map Prod.fst

variable {L : Lexicon}

/-! ## 3. Texts side by side -/

theorem run_of_extend {m : Mode} {c : Char} (next : Mode) (h : L.extend m c = some next)
    (cs : List Char) : L.run m (c :: cs) = L.run next cs := by
  rw [run, h]

theorem run_between (c : Char) (cs : List Char) :
    L.run .between (c :: cs) = L.run (L.start c) cs := by
  rw [run, extend, Mode.close]
  exact Option.map_id_apply

theorem run_of_stop {m : Mode} {c : Char} (h : L.extend m c = none) (cs : List Char) :
    L.run m (c :: cs) =
      m.close.bind fun ended => (L.run .between (c :: cs)).map (Prod.map (ended ++ ·) id) := by
  rw [run_between, run, h]
  cases m.close <;> rfl

theorem run_append {m m' : Mode} {a b : List Char} {ended : List Token}
    (h : L.run m a = some (ended, m')) :
    L.run m (a ++ b) = (L.run m' b).map (Prod.map (ended ++ ·) id) := by
  induction a generalizing m ended with
  | nil =>
    cases h
    exact Option.map_id_apply.symm
  | cons c a ih =>
    rw [List.cons_append]
    cases hextend : L.extend m c with
    | some m₁ =>
      rw [run_of_extend m₁ hextend] at h ⊢
      exact ih h
    | none =>
      rw [run, hextend] at h ⊢
      cases hclose : m.close with
      | none =>
        rw [hclose] at h
        cases h
      | some first =>
        rw [hclose] at h
        obtain ⟨⟨others, m₁⟩, hrun, heq⟩ := Option.map_eq_some_iff.1 h
        cases heq
        dsimp only
        rw [ih hrun, Option.map_map]
        congr 1
        funext r
        simp [Prod.map]

/-- Where the last token of the first text does not go on, the tokens of two texts are those of
    each. -/
theorem cut?_append {a b : List Char} {c : Char} {ts : List Token} {m : Mode}
    (ha : L.cut? a = some (ts, m)) (hc : L.extend m c = none) :
    L.cut? (a ++ c :: b) = (L.cut? (c :: b)).map (Prod.map (ts ++ ·) id) := by
  obtain ⟨⟨ended, m₁⟩, hrun, hlast⟩ := Option.bind_eq_some_iff.1 ha
  obtain ⟨last, hclose, heq⟩ := Option.map_eq_some_iff.1 hlast
  cases heq
  rw [cut?, run_append hrun, run_of_stop hc, hclose, cut?]
  cases hb : L.run .between (c :: b) with
  | none => rfl
  | some r =>
    cases hr : r.2.close with
    | none | some others => simp [hr]

/-- Characters behind which no token of a constant goes on. -/
def separators : List Char := [',', ')', ']', ' ', ':']

/-- A text that goes on with a separator, if at all. -/
def Breaks (rest : List Char) : Prop :=
  ∀ c ∈ rest.head?, c ∈ separators

/-- A text has these tokens, whatever follows behind a separator. -/
def Lexes (L : Lexicon) (cs : List Char) (ts : List Token) : Prop :=
  ∃ m, L.cut? cs = some (ts, m) ∧ ∀ c ∈ separators, L.extend m c = none

/-- The tokens that a text has, whatever follows behind a separator. -/
def lexes? (L : Lexicon) (cs : List Char) : Option (List Token) :=
  (L.cut? cs).bind fun r =>
    if (separators.all fun c => (L.extend r.2 c).isNone) = true then some r.1 else none

namespace Lexes

variable {a b : List Char} {ts us : List Token}

theorem nil : L.Lexes [] [] := ⟨.between, rfl, fun _ _ => rfl⟩

theorem eq_nil (h : L.Lexes [] ts) : ts = [] := by
  obtain ⟨m, hcut, -⟩ := h
  exact (congrArg Prod.fst (Option.some.inj hcut)).symm

theorem ofEq (h : L.lexes? a = some ts) : L.Lexes a ts := by
  obtain ⟨⟨ts', m⟩, hcut, hm⟩ := Option.bind_eq_some_iff.1 h
  split at hm
  · next hall =>
    cases hm
    exact ⟨m, hcut, fun c hc => Option.isNone_iff_eq_none.1 (List.all_eq_true.1 hall c hc)⟩
  · cases hm

theorem scan_eq (h : L.Lexes a ts) : L.scan a = some ts := by
  obtain ⟨m, hcut, -⟩ := h
  rw [scan, hcut]
  rfl

theorem scan_append (ha : L.Lexes a ts) {rest : List Char} (hrest : Breaks rest) :
    L.scan (a ++ rest) = (L.scan rest).map (ts ++ ·) := by
  obtain ⟨m, hcut, hstops⟩ := ha
  cases rest with
  | nil =>
    rw [List.append_nil, scan, hcut]
    exact congrArg some (List.append_nil ts).symm
  | cons c rest =>
    rw [scan, cut?_append hcut (hstops c (hrest c rfl)), scan, Option.map_map, Option.map_map]
    rfl

/-- A text behind another whose last token does not go on into it. -/
theorem behind {m : Mode} (ha : L.cut? a = some (ts, m)) {c : Char} (hc : L.extend m c = none)
    (hb : L.Lexes (c :: b) us) : L.Lexes (a ++ c :: b) (ts ++ us) := by
  obtain ⟨m', hcut, hstops⟩ := hb
  refine ⟨m', ?_, hstops⟩
  rw [cut?_append ha hc, hcut]
  rfl

/-- Two texts, of which the second begins with a separator. -/
theorem append (ha : L.Lexes a ts) (hb : L.Lexes b us) (hsep : Breaks b) :
    L.Lexes (a ++ b) (ts ++ us) := by
  obtain ⟨m, hcut, hstops⟩ := ha
  cases b with
  | nil =>
    rw [hb.eq_nil, List.append_nil, List.append_nil]
    exact ⟨m, hcut, hstops⟩
  | cons c b => exact behind hcut (hstops c (hsep c rfl)) hb

/-- A text behind another that ends in a token that nothing extends. -/
theorem behindAll {m : Mode} (ha : L.cut? a = some (ts, m)) (hm : ∀ c, L.extend m c = none)
    (hb : L.Lexes b us) : L.Lexes (a ++ b) (ts ++ us) := by
  cases b with
  | nil =>
    rw [hb.eq_nil, List.append_nil, List.append_nil]
    exact ⟨m, ha, fun c _ => hm c⟩
  | cons c b => exact behind ha (hm c) hb

end Lexes

/-! ## 4. Texts in quotes -/

/-- A text in quotes that is read to its end is scanned to the same end; if its end is not found, the
    scanner stays in it. -/
def ReadAs (L : Lexicon) (quote : Char) (ending : List Char → Mode) (read : List Char)
    (result : Option (List Char × List Char)) (scanned : Option (List Token × Mode)) : Prop :=
  (∃ r, result = some r ∧ r.2.head? ≠ some quote ∧ scanned = L.run (ending (read ++ r.1)) r.2) ∨
  result = none ∧ ∃ m, scanned = some ([], m) ∧ m.close = none

theorem ReadAs.cons {quote c : Char} {ending : List Char → Mode} {read : List Char}
    {result : Option (List Char × List Char)} {scanned : Option (List Token × Mode)}
    (h : L.ReadAs quote ending (read ++ [c]) result scanned) :
    L.ReadAs quote ending read (result.map (Prod.map (c :: ·) id)) scanned := by
  rcases h with ⟨r, rfl, hhead, hrun⟩ | ⟨rfl, hopen⟩
  · rw [List.append_assoc] at hrun
    exact .inl ⟨_, rfl, hhead, hrun⟩
  · exact .inr ⟨rfl, hopen⟩

/-- The scanner reads a text in quotes as `readDelimited` does. -/
theorem run_delimited {quote : Char} (slash : Bool) {inside ending : List Char → Mode}
    (escape : List Char → Mode)
    (hinside : ∀ read c, L.extend (inside read) c =
      if slash = true ∧ c = '\\' then some (escape read)
      else if c = quote then some (ending read) else some (inside (read ++ [c])))
    (hescape : slash = true → ∀ read, (escape read).close = none ∧
      ∀ c, L.extend (escape read) c = some (inside (read ++ [c])))
    (hending : ∀ read c, L.extend (ending read) c =
      if c = quote then some (inside (read ++ [c])) else none)
    (hopen : ∀ read, (inside read).close = none)
    (read cs : List Char) :
    L.ReadAs quote ending read (readDelimited quote slash cs) (L.run (inside read) cs) := by
  fun_induction readDelimited quote slash cs generalizing read with
  | case1 => exact .inr ⟨rfl, _, rfl, hopen read⟩
  | case2 c hends =>
    by_cases hslash : slash = true ∧ c = '\\'
    · rw [run_of_extend (escape read) (by rw [hinside, if_pos hslash])]
      exact .inr ⟨rfl, _, rfl, (hescape hslash.1 read).1⟩
    · rw [run_of_extend (inside (read ++ [c])) (by
        rw [hinside, if_neg hslash, if_neg (hends.resolve_left hslash)])]
      exact .inr ⟨rfl, _, rfl, hopen _⟩
  | case3 c hends =>
    obtain ⟨hslash, hquote⟩ := not_or.1 hends
    rw [run_of_extend (ending read) (by
      rw [hinside, if_neg hslash, if_pos (Decidable.not_not.1 hquote)])]
    exact .inl ⟨_, rfl, by simp, by rw [List.append_nil]⟩
  | case4 c next rest hslash ih =>
    rw [run_of_extend (escape read) (by rw [hinside, if_pos hslash]),
      run_of_extend _ ((hescape hslash.1 read).2 next)]
    exact (ih _).cons
  | case5 rest hslash ih =>
    rw [run_of_extend (ending read) (by rw [hinside, if_neg hslash, if_pos rfl]),
      run_of_extend (inside (read ++ [quote])) (by rw [hending, if_pos rfl])]
    exact (ih _).cons
  | case6 next rest hnext hslash =>
    rw [run_of_extend (ending read) (by rw [hinside, if_neg hslash, if_pos rfl])]
    exact .inl ⟨_, rfl, by simpa using hnext, by rw [List.append_nil]⟩
  | case7 c next rest hslash hc ih =>
    rw [run_of_extend (inside (read ++ [c])) (by rw [hinside, if_neg hslash, if_neg hc])]
    exact (ih _).cons

theorem run_string (cs : List Char) :
    L.ReadAs '\x27' .stringEnd [] (readDelimited '\x27' L.backslash cs) (L.run (.string []) cs) :=
  run_delimited L.backslash .stringEscape (fun _ _ => rfl) (fun _ _ => ⟨rfl, fun _ => rfl⟩)
    (fun _ _ => rfl) (fun _ => rfl) [] cs

theorem run_ident (cs : List Char) :
    L.ReadAs L.quoteClose .identEnd [] (readDelimited L.quoteClose false cs)
      (L.run (.ident []) cs) :=
  run_delimited false .ident (fun _ _ => (if_neg fun h => Bool.false_ne_true h.1).symm)
    (fun h => absurd h Bool.false_ne_true) (fun _ _ => rfl) (fun _ => rfl) [] cs

theorem lexes_of_readDelimited {cs inside : List Char}
    (h : readDelimited '\x27' L.backslash cs = some (inside, [])) :
    L.Lexes ('\x27' :: cs) [.string inside] := by
  have hrun : L.run .between ('\x27' :: cs) = some ([], .stringEnd inside) := by
    rw [run_between]
    rcases run_string (L := L) cs with ⟨r, hr, -, hrun⟩ | ⟨hr, -⟩
    · cases hr.symm.trans h
      exact hrun
    · cases hr.symm.trans h
  refine ⟨.stringEnd inside, ?_, fun c hc => ?_⟩
  · rw [cut?, hrun]
    rfl
  · have hquote : '\x27' ∉ separators := by decide
    have hne : c ≠ '\x27' := fun heq => hquote (heq ▸ hc)
    rw [extend, if_neg hne]

/-- A string literal is one token, which stands for its text. -/
theorem lexes_literalChars (text : List Char) :
    L.Lexes (Conventions.literalChars L.backslash text) [.string text] := by
  have hread : readDelimited '\x27' L.backslash
      (text.flatMap (Conventions.escapeChar L.backslash) ++ ['\x27']) = some (text, []) :=
    readDelimited_of_undoes (undoes_escapeChar L.backslash) (fun h => absurd h.2 (by decide)) text
      (Option.some_ne_none _).symm
  exact lexes_of_readDelimited hread

theorem scan_eq_run (cs : List Char) :
    L.scan cs = (L.run .between cs).bind fun r => r.2.close.map (r.1 ++ ·) := by
  rw [scan, cut?]
  cases L.run .between cs with
  | none => rfl
  | some r => exact Option.map_map _ _ _

/-- Behind a quote that opens an identifier, the text up to the closing quote is its name. -/
theorem scan_ident {front : List Char} {ts : List Token}
    (hfront : L.run .between front = some (ts, .ident [])) (cs : List Char) :
    L.scan (front ++ cs) = (readDelimited L.quoteClose false cs).bind fun r =>
      (L.scan r.2).map (ts ++ .ident r.1 :: ·) := by
  rw [scan_eq_run, run_append hfront]
  rcases run_ident (L := L) cs with ⟨r, hr, hhead, hrun⟩ | ⟨hr, m, hrun, hclose⟩
  · obtain ⟨name, behind⟩ := r
    rw [hrun, hr, Option.bind_some, List.nil_append]
    cases behind with
    | nil => simp [run, scan, cut?, Mode.close]
    | cons c behind =>
      have hc : L.extend (.identEnd name) c = none := by
        rw [extend, if_neg]
        simpa using hhead
      have hclose : (Mode.identEnd name).close = some [.ident name] := rfl
      rw [run_of_stop hc, hclose, scan_eq_run]
      cases L.run .between (c :: behind) with
      | none => rfl
      | some r => cases hlast : r.2.close <;> simp [hlast]
  · simp [hrun, hr, hclose]

end Lexicon

end QueryPlan
