import QueryPlan.Proofs.Calendar.ReadBack
import QueryPlan.Proofs.Lexical.Basic

/-!
# Numbers as tokens

A text is one number token exactly if it is a number: digits, with a sign in front and a fraction
and an exponent behind them or without (`lexes_of_isNumeral`, `isNumeral_of_mem_scan`). Integers and
finite doubles are written so.
-/

namespace QueryPlan.Lexicon

open Numeral

variable {L : Lexicon}

variable {cs ds run : List Char} {c : Char} {ts : List Token} {m : Mode}

/-! ## 1. Numbers are single tokens -/

/-- The quotes of the built-in engines begin no number and no word. -/
def UsualQuotes (L : Lexicon) : Prop :=
  L.quoteOpen ∈ ['"', '\x60', '[']

theorem goesOn_of_isDigit (h : isDigit c = true) (run : List Char) : goesOn run c = true := by
  have hdigit : c.isDigit = true := by
    simpa [isDigit, Char.isDigit, Char.le_def] using h
  rw [goesOn, Char.isAlphanum, hdigit, Bool.or_true]
  rfl

theorem extend_numeric (h : goesOn run c = true) :
    L.extend (.numeric run) c = some (.numeric (run ++ [c])) := by
  rw [extend, if_pos h]

theorem extend_numeric_of_separator (run : List Char) (h : c ∈ separators) :
    L.extend (.numeric run) c = none := by
  have hstop : goesOn run c = false := by
    simp only [separators, List.mem_cons, List.not_mem_nil, or_false] at h
    rcases h with rfl | rfl | rfl | rfl | rfl <;> rfl
  rw [extend, hstop, if_neg Bool.false_ne_true]

theorem run_numeric (h : ∀ c ∈ cs, ∀ run, goesOn run c = true) :
    L.run (.numeric run) cs = some ([], .numeric (run ++ cs)) := by
  induction cs generalizing run with
  | nil => rw [List.append_nil]; rfl
  | cons c cs ih =>
    obtain ⟨hc, hcs⟩ := List.forall_mem_cons.1 h
    rw [run_of_extend _ (extend_numeric (hc run)), ih hcs, List.append_assoc]
    rfl

theorem run_digits (h : ∀ c ∈ ds, isDigit c = true) :
    L.run (.numeric run) ds = some ([], .numeric (run ++ ds)) :=
  run_numeric fun c hc => goesOn_of_isDigit (h c hc)

/-- A run that goes on with digits in front of a text. -/
theorem run_digits_append (h : ∀ c ∈ ds, isDigit c = true) :
    L.run (.numeric run) (ds ++ cs) = L.run (.numeric (run ++ ds)) cs := by
  rw [run_append (run_digits h)]
  exact Option.map_id_apply

/-- A number has a sign in front of its digits or none. -/
theorem splitSign_cases (cs : List Char) :
    (∃ sign, (sign = '+' ∨ sign = '-') ∧ cs = sign :: (splitSign cs).2) ∨
      (splitSign cs).2 = cs := by
  unfold splitSign
  split
  · exact .inl ⟨'-', .inr rfl, rfl⟩
  · exact .inl ⟨'+', .inl rfl, rfl⟩
  · exact .inr rfl

theorem isNumeral_iff :
    isNumeral cs = true ↔ (spanDigits (splitSign cs).2).1 ≠ [] ∧
      isNumeralTail (spanDigits (splitSign cs).2).2 = true := by
  rw [isNumeral, Bool.and_eq_true_iff, Bool.not_eq_true', ← Bool.not_eq_true, List.isEmpty_iff]

theorem digits_of_natural? (h : (natural? cs).isSome = true) : ∀ c ∈ cs, isDigit c = true := by
  unfold natural? at h
  split at h
  · next hdigits => exact List.all_eq_true.1 (Bool.and_eq_true_iff.1 hdigits).2
  · cases h

/-- A sign belongs to a run behind the letter of an exponent. -/
theorem run_exponent (h : isExponent cs = true) :
    L.run (.numeric run) cs = some ([], .numeric (run ++ cs)) := by
  cases cs with
  | nil => rw [List.append_nil]; rfl
  | cons e cs =>
    obtain ⟨he, hdigits⟩ := Bool.and_eq_true_iff.1 h
    have hletter : e = 'e' ∨ e = 'E' := by simpa using he
    have hgoes : goesOn run e = true := by rcases hletter with rfl | rfl <;> rfl
    have hsign : ∀ sign, sign = '+' ∨ sign = '-' → goesOn (run ++ [e]) sign = true := by
      rintro sign (rfl | rfl) <;> rcases hletter with rfl | rfl <;> simp [goesOn]
    rw [run_of_extend _ (extend_numeric hgoes)]
    have hrun : L.run (.numeric (run ++ [e])) cs = some ([], .numeric (run ++ [e] ++ cs)) := by
      rcases splitSign_cases cs with ⟨sign, hsigned, hcs⟩ | hcs
      · rw [hcs, run_of_extend _ (extend_numeric (hsign sign hsigned)),
          run_digits (digits_of_natural? hdigits), List.append_assoc]
        rfl
      · rw [hcs] at hdigits
        exact run_digits (digits_of_natural? hdigits)
    rw [hrun, List.append_assoc]
    rfl

theorem spanDigits_append (cs : List Char) : (spanDigits cs).1 ++ (spanDigits cs).2 = cs :=
  List.takeWhile_append_dropWhile

theorem digits_of_spanDigits (cs : List Char) : ∀ c ∈ (spanDigits cs).1, isDigit c = true :=
  List.all_eq_true.1 List.all_takeWhile

/-- A run goes on with digits, and then with what may follow them. -/
theorem run_spanDigits (h : L.run (.numeric (run ++ (spanDigits cs).1)) (spanDigits cs).2 =
      some ([], .numeric (run ++ (spanDigits cs).1 ++ (spanDigits cs).2))) :
    L.run (.numeric run) cs = some ([], .numeric (run ++ cs)) := by
  rw [List.append_assoc, spanDigits_append, ← run_digits_append (digits_of_spanDigits cs),
    spanDigits_append] at h
  exact h

theorem run_numeralTail (h : isNumeralTail cs = true) :
    L.run (.numeric run) cs = some ([], .numeric (run ++ cs)) := by
  cases cs with
  | nil => rw [List.append_nil]; rfl
  | cons c cs =>
    rw [isNumeralTail] at h
    split at h
    · next hc =>
      subst hc
      have hgoes : goesOn run '.' = true := by simp [goesOn]
      rw [run_of_extend _ (extend_numeric hgoes),
        run_spanDigits (run_exponent (Bool.and_eq_true_iff.1 h).2), List.append_assoc]
      rfl
    · exact run_exponent h

/-- The first digit of a number begins its token, or goes on behind a sign. -/
theorem run_firstDigit (front : List Char) (hwhole : (spanDigits ds).1 ≠ [])
    (htail : isNumeralTail (spanDigits ds).2 = true)
    (hfirst : ∀ d cs, isDigit d = true → L.run m (d :: cs) = L.run (.numeric (front ++ [d])) cs) :
    L.run m ds = some ([], .numeric (front ++ ds)) := by
  cases ds with
  | nil => exact absurd rfl hwhole
  | cons d ds =>
    have hd : isDigit d = true := by
      refine Decidable.byContradiction fun hd => hwhole ?_
      exact List.takeWhile_cons_of_neg hd
    have hdrop : (spanDigits (d :: ds)).2 = (spanDigits ds).2 := List.dropWhile_cons_of_pos hd
    rw [hdrop] at htail
    rw [hfirst d ds hd, run_spanDigits (run_numeralTail htail), List.append_assoc]
    rfl

section Start

variable (hL : L.UsualQuotes)
include hL

theorem ne_quoteOpen (h : c ∉ ['"', '\x60', '[']) : c ≠ L.quoteOpen := by
  rintro rfl
  exact h hL

theorem start_of_isDigit (h : isDigit c = true) : L.start c = .numeric [c] := by
  have hother : ∀ x, isDigit x = false → c ≠ x := by
    rintro x hx rfl
    rw [hx] at h
    cases h
  have hquote : c ≠ L.quoteOpen := ne_quoteOpen hL (by
    simp only [List.mem_cons, List.not_mem_nil, or_false, not_or]
    exact ⟨hother _ rfl, hother _ rfl, hother _ rfl⟩)
  rw [start, isBlank_of_isDigit h, if_neg Bool.false_ne_true, if_neg (hother _ rfl),
    if_neg hquote, if_neg (fun hash => hother _ rfl hash.2), if_pos h]

theorem start_of_isSign (h : c = '+' ∨ c = '-') : L.start c = .symbol c := by
  have hquote : c ≠ L.quoteOpen := ne_quoteOpen hL (by rcases h with rfl | rfl <;> decide)
  rw [start]
  rcases h with rfl | rfl
  all_goals
    rw [if_neg (by decide), if_neg (by decide), if_neg hquote,
      if_neg (fun hash => absurd hash.2 (by decide)), if_neg (by decide), if_neg (by decide)]

theorem run_of_isNumeral (h : isNumeral cs = true) :
    L.run .between cs = some ([], .numeric cs) := by
  obtain ⟨hwhole, htail⟩ := isNumeral_iff.1 h
  rcases splitSign_cases cs with ⟨sign, hsign, hcs⟩ | hcs
  · rw [hcs, run_between, start_of_isSign hL hsign]
    refine run_firstDigit [sign] hwhole htail fun d cs hd => run_of_extend _ ?_ cs
    rw [extend, if_pos ⟨hsign, hd⟩]
    rfl
  · rw [hcs] at hwhole htail
    refine run_firstDigit [] hwhole htail fun d cs hd => ?_
    rw [run_between, start_of_isDigit hL hd]
    rfl

/-- **A number is one token.** -/
theorem lexes_of_isNumeral (h : isNumeral cs = true) : L.Lexes cs [.number cs] := by
  refine ⟨.numeric cs, ?_, fun c hc => ?_⟩
  · rw [cut?, run_of_isNumeral hL h, Option.bind_some, Mode.close, if_pos h]
    rfl
  · exact extend_numeric_of_separator cs hc

end Start

/-- Bytes written as a number in hexadecimal are one token. -/
theorem lexes_byteString (hL : L.UsualQuotes) (bytes : List UInt8) :
    L.Lexes ('0' :: 'x' :: Text.hexEncode bytes) [.bytes ('0' :: 'x' :: Text.hexEncode bytes)] := by
  have hgoes : ∀ c ∈ 'x' :: Text.hexEncode bytes, ∀ run, goesOn run c = true := by
    have hdigits : ∀ c ∈ Text.hexEncode bytes, c.isAlphanum = true :=
      Text.forall_mem_hexEncode (by decide) bytes
    intro c hc run
    have halphanum : c.isAlphanum = true := by
      rcases List.mem_cons.1 hc with rfl | hc
      · rfl
      · exact hdigits c hc
    rw [goesOn, halphanum]
    rfl
  have hrun : L.run .between ('0' :: 'x' :: Text.hexEncode bytes) =
      some ([], .numeric ('0' :: 'x' :: Text.hexEncode bytes)) := by
    rw [run_between, start_of_isDigit hL rfl, run_numeric hgoes]
    rfl
  have hnumeral : isNumeral ('0' :: 'x' :: Text.hexEncode bytes) = false := rfl
  have hbytes : isByteString ('0' :: 'x' :: Text.hexEncode bytes) = true :=
    List.all_eq_true.2 (Text.forall_mem_hexEncode (by decide) bytes)
  refine ⟨.numeric ('0' :: 'x' :: Text.hexEncode bytes), ?_,
    fun c hc => extend_numeric_of_separator _ hc⟩
  rw [cut?, hrun, Option.bind_some, Mode.close, hnumeral, if_neg Bool.false_ne_true, if_pos hbytes]
  rfl

/-! ## 2. Number tokens are numbers -/

theorem isNumeral_of_mem_close (h : m.close = some ts) (hcs : .number cs ∈ ts) :
    isNumeral cs = true := by
  cases m with
  | numeric run =>
    rw [Mode.close] at h
    split at h
    · next hrun =>
      cases h
      cases List.mem_singleton.1 hcs
      exact hrun
    · split at h
      · cases h
        cases List.mem_singleton.1 hcs
      · cases h
  | between => cases h; cases hcs
  | symbol c | word run | stringEnd inside | identEnd inside =>
    cases h; cases List.mem_singleton.1 hcs
  | string _ | stringEscape _ | ident _ | comment => cases h

theorem isNumeral_of_mem_run {m' : Mode} {text : List Char} (h : L.run m text = some (ts, m'))
    (hcs : .number cs ∈ ts) : isNumeral cs = true := by
  induction text generalizing m ts with
  | nil => cases h; cases hcs
  | cons c text ih =>
    rw [run] at h
    split at h
    · exact ih h hcs
    · split at h
      · next ended hended =>
        obtain ⟨⟨others, m₁⟩, hothers, heq⟩ := Option.map_eq_some_iff.1 h
        cases heq
        rcases List.mem_append.1 hcs with hcs | hcs
        · exact isNumeral_of_mem_close hended hcs
        · exact ih hothers hcs
      · cases h

theorem isNumeral_of_mem_scan {text : List Char} (h : L.scan text = some ts) (hcs : .number cs ∈ ts) :
    isNumeral cs = true := by
  obtain ⟨⟨_, m⟩, hcut, rfl⟩ := Option.map_eq_some_iff.1 h
  obtain ⟨⟨ended, m₁⟩, hrun, hlast⟩ := Option.bind_eq_some_iff.1 hcut
  obtain ⟨last, hclose, heq⟩ := Option.map_eq_some_iff.1 hlast
  cases heq
  rcases List.mem_append.1 hcs with hcs | hcs
  · exact isNumeral_of_mem_run hrun hcs
  · exact isNumeral_of_mem_close hclose hcs

/-! ## 3. The characters of numbers -/

section Characters

variable {p : Char → Prop} (hdigit : ∀ c, isDigit c = true → p c)
  (hmark : ∀ c, c = '+' ∨ c = '-' ∨ c = '.' ∨ c = 'e' ∨ c = 'E' → p c)
include hdigit hmark

omit hdigit in
/-- What holds of a sign and of the rest holds of all. -/
theorem forall_mem_splitSign (h : ∀ c ∈ (splitSign cs).2, p c) : ∀ c ∈ cs, p c := by
  rcases splitSign_cases cs with ⟨sign, hsign, hcs⟩ | hcs
  · rw [hcs]
    refine List.forall_mem_cons.2 ⟨hmark sign ?_, h⟩
    rcases hsign with rfl | rfl
    · exact .inl rfl
    · exact .inr (.inl rfl)
  · rwa [hcs] at h

omit hmark in
theorem forall_mem_spanDigits (h : ∀ c ∈ (spanDigits cs).2, p c) : ∀ c ∈ cs, p c := by
  rw [← spanDigits_append cs]
  exact List.forall_mem_append.2 ⟨fun c hc => hdigit c (digits_of_spanDigits cs c hc), h⟩

theorem forall_mem_of_isExponent (h : isExponent cs = true) : ∀ c ∈ cs, p c := by
  cases cs with
  | nil => exact List.forall_mem_nil _
  | cons e cs =>
    obtain ⟨he, hdigits⟩ := Bool.and_eq_true_iff.1 h
    have hletter : e = 'e' ∨ e = 'E' := by simpa using he
    refine List.forall_mem_cons.2 ⟨hmark e (.inr (.inr (.inr hletter))), ?_⟩
    exact forall_mem_splitSign hmark fun c hc => hdigit c (digits_of_natural? hdigits c hc)

/-- What holds of digits, signs, points and the letters of exponents holds of a number. -/
theorem forall_mem_of_isNumeral (h : isNumeral cs = true) : ∀ c ∈ cs, p c := by
  obtain ⟨-, htail⟩ := isNumeral_iff.1 h
  refine forall_mem_splitSign hmark (forall_mem_spanDigits hdigit ?_)
  generalize (spanDigits (splitSign cs).2).2 = tail at htail
  cases tail with
  | nil => exact List.forall_mem_nil _
  | cons c tail =>
    rw [isNumeralTail] at htail
    split at htail
    · next hc =>
      refine List.forall_mem_cons.2 ⟨hmark c (.inr (.inr (.inl hc))), ?_⟩
      exact forall_mem_spanDigits hdigit
        (forall_mem_of_isExponent hdigit hmark (Bool.and_eq_true_iff.1 htail).2)
    · exact forall_mem_of_isExponent hdigit hmark htail

end Characters

/-! ## 4. Integers and doubles -/

section Written

variable {ds tail : List Char}

theorem isExponent_of_digits {sign : List Char} (hsign : sign = [] ∨ sign = ['+'] ∨ sign = ['-'])
    (hne : ds ≠ []) (hall : ∀ c ∈ ds, isDigit c = true) :
    isExponent ('e' :: (sign ++ ds)) = true := by
  have hnatural : (natural? ds).isSome = true := by
    rw [natural?, if_pos]
    · rfl
    · rw [List.all_eq_true.2 hall, Bool.and_true, Bool.not_eq_true', ← Bool.not_eq_true,
        List.isEmpty_iff]
      exact hne
  have hdigits : (splitSign (sign ++ ds)).2 = ds := by
    rcases hsign with rfl | rfl | rfl
    · rw [List.nil_append, splitSign_of_digits hne hall]
    · rfl
    · rfl
  rw [isExponent, hdigits, hnatural]
  rfl

theorem endsDigits_of_isExponent (h : isExponent tail = true) : EndsDigits tail := by
  cases tail with
  | nil => exact .nil
  | cons c tail =>
    have hletter : c = 'e' ∨ c = 'E' := by simpa using (Bool.and_eq_true_iff.1 h).1
    rcases hletter with rfl | rfl <;> exact .cons rfl

theorem endsDigits_of_isNumeralTail (h : isNumeralTail tail = true) : EndsDigits tail := by
  cases tail with
  | nil => exact .nil
  | cons c tail =>
    rw [isNumeralTail] at h
    split at h
    · next hc =>
      subst hc
      exact .cons rfl
    · exact endsDigits_of_isExponent h

theorem isNumeralTail_of_isExponent (h : isExponent tail = true) : isNumeralTail tail = true := by
  cases tail with
  | nil => rfl
  | cons c tail =>
    have hletter : c = 'e' ∨ c = 'E' := by simpa using (Bool.and_eq_true_iff.1 h).1
    rw [isNumeralTail, if_neg (by rcases hletter with rfl | rfl <;> decide), h]

/-- A fraction, with an exponent or without. -/
theorem isNumeralTail_fraction (hne : ds ≠ []) (hall : ∀ c ∈ ds, isDigit c = true)
    (htail : isExponent tail = true) : isNumeralTail ('.' :: (ds ++ tail)) = true := by
  rw [isNumeralTail, if_pos rfl, spanDigits_of_digits hall (endsDigits_of_isExponent htail), htail,
    Bool.and_true, Bool.not_eq_true', ← Bool.not_eq_true, List.isEmpty_iff]
  exact hne

/-- Digits and what may follow them. -/
def Unsigned (cs : List Char) : Prop :=
  ∃ ds tail, cs = ds ++ tail ∧ ds ≠ [] ∧ (∀ c ∈ ds, isDigit c = true) ∧ isNumeralTail tail = true

theorem Unsigned.ofDigits (hne : ds ≠ []) (hall : ∀ c ∈ ds, isDigit c = true) : Unsigned ds :=
  ⟨ds, [], (List.append_nil ds).symm, hne, hall, rfl⟩

theorem Unsigned.ofFraction {fraction : List Char} (hne : ds ≠ [])
    (hall : ∀ c ∈ ds, isDigit c = true) (hfraction : fraction ≠ [])
    (hdigits : ∀ c ∈ fraction, isDigit c = true) (htail : isExponent tail = true) :
    Unsigned (ds ++ '.' :: (fraction ++ tail)) :=
  ⟨ds, _, rfl, hne, hall, isNumeralTail_fraction hfraction hdigits htail⟩

/-- A number with a minus sign or without. -/
theorem Unsigned.isNumeral (h : Unsigned cs) (negative : Bool) :
    isNumeral ((if negative then ['-'] else []) ++ cs) = true := by
  obtain ⟨ds, tail, rfl, hne, hall, htail⟩ := h
  have hsplit : (splitSign ((if negative then ['-'] else []) ++ (ds ++ tail))).2 = ds ++ tail := by
    cases negative with
    | true => rfl
    | false =>
      have hdigits := splitSign_append_of_digits hne hall tail
      exact congrArg Prod.snd hdigits
  rw [isNumeral_iff, hsplit, spanDigits_of_digits hall (endsDigits_of_isNumeralTail htail)]
  exact ⟨hne, htail⟩

theorem unsigned_positionalDigits (lead : Int) (hne : ds ≠ [])
    (hall : ∀ c ∈ ds, isDigit c = true) : Unsigned (positionalDigits ['.', '0'] ds lead) := by
  have hzeros : ∀ n, ∀ c ∈ List.replicate n '0', isDigit c = true := by
    intro n c hc
    rw [List.eq_of_mem_replicate hc]
    rfl
  have hzero : ∀ c ∈ ['0'], isDigit c = true := hzeros 1
  unfold positionalDigits
  split
  · have h := Unsigned.ofFraction (List.cons_ne_nil '0' []) hzero
      (List.append_ne_nil_of_right_ne_nil (List.replicate (-lead - 1).toNat '0') hne)
      (List.forall_mem_append.2 ⟨hzeros _, hall⟩) (show isExponent [] = true from rfl)
    rw [List.append_nil] at h
    exact h
  · dsimp only
    split
    · exact .ofFraction (List.append_ne_nil_of_left_ne_nil hne _)
        (List.forall_mem_append.2 ⟨hall, hzeros _⟩) (List.cons_ne_nil '0' []) hzero
        (show isExponent [] = true from rfl)
    · next hlength =>
      have hdrop : ds.drop (lead.toNat + 1) ≠ [] := by
        rw [Ne, List.drop_eq_nil_iff]
        exact hlength
      have htake : ds.take (lead.toNat + 1) ≠ [] := by simp [hne]
      have h := Unsigned.ofFraction htake (fun c hc => hall c (List.mem_of_mem_take hc)) hdrop
        (fun c hc => hall c (List.mem_of_mem_drop hc)) (show isExponent [] = true from rfl)
      rw [List.append_nil] at h
      rw [List.append_assoc]
      exact h

theorem unsigned_scientificDigits (plus : Bool) (lead : Int) (hne : ds ≠ [])
    (hall : ∀ c ∈ ds, isDigit c = true) : Unsigned (scientificDigits plus ds lead) := by
  have hexponent : isExponent ('e' ::
      ((if lead < 0 then ['-'] else if plus then ['+'] else []) ++ digitsOf lead.natAbs)) =
        true := by
    refine isExponent_of_digits ?_ Nat.toDigits_ne_nil fun _ => isDigit_of_mem_digitsOf
    split
    · exact .inr (.inr rfl)
    · split
      · exact .inr (.inl rfl)
      · exact .inl rfl
  unfold scientificDigits
  simp only [List.append_assoc]
  split
  · next first second rest =>
    obtain ⟨hfirst, hrest⟩ := List.forall_mem_cons.1 hall
    exact .ofFraction (List.cons_ne_nil first []) (by simpa using hfirst)
      (List.cons_ne_nil second rest) hrest hexponent
  · exact ⟨ds, _, rfl, hne, hall, isNumeralTail_of_isExponent hexponent⟩

theorem unsigned_digits (positional : Bool) (lead : Int) (hne : ds ≠ [])
    (hall : ∀ c ∈ ds, isDigit c = true) :
    Unsigned (if positional then positionalDigits ['.', '0'] ds lead
      else scientificDigits false ds lead) := by
  split
  · exact unsigned_positionalDigits lead hne hall
  · exact unsigned_scientificDigits false lead hne hall

end Written

theorem unsigned_nat (n : Nat) : Unsigned (toString n).toList := by
  rw [toList_natural]
  exact .ofDigits Nat.toDigits_ne_nil fun _ => isDigit_of_mem_digitsOf

theorem isNumeral_nat (n : Nat) : isNumeral (toString n).toList = true :=
  (unsigned_nat n).isNumeral false

theorem isNumeral_int (n : Int) : isNumeral (toString n).toList = true := by
  cases n with
  | ofNat m => exact isNumeral_nat m
  | negSucc m =>
    have htext : toString (Int.negSucc m) = "-" ++ toString (m + 1) := rfl
    have hsign : "-".toList = ['-'] := rfl
    rw [htext, String.toList_append, hsign]
    exact (unsigned_nat (m + 1)).isNumeral true

/-- **A finite double is written as a number.** -/
theorem isNumeral_spell {x : Double} (h : x.isFinite = true) :
    isNumeral (x.spell .literal).toList = true := by
  unfold Double.spell
  rw [Double.isNaN_of_isFinite h, Double.isInfinite_of_isFinite h, if_neg Bool.false_ne_true,
    if_neg Bool.false_ne_true]
  cases x.isZero with
  | true =>
    rw [String.toList_ofList]
    exact (unsigned_digits _ _ (List.cons_ne_nil _ _) (by simp [isDigit])).isNumeral _
  | false =>
    rw [String.toList_ofList]
    exact (unsigned_digits _ _ Nat.toDigits_ne_nil fun _ => isDigit_of_mem_digitsOf).isNumeral _

end QueryPlan.Lexicon
