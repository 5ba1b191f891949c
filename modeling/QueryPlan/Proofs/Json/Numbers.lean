import QueryPlan.Json.Printer
import QueryPlan.Json.Reader
import QueryPlan.Proofs.Number.Digits

/-!
# Numbers in JSON text

A number in a text ends where the next character can be no part of it. What is read up to there does
not depend on what follows (`ReadsOn`), so that a number that is read back alone is read back
wherever it stands.

Integers are read back without a condition. A double goes through two roundings when it is read, and
whether they lead back to it depends on the double: `Double.ReadsBack` says that they do.
-/

namespace QueryPlan

variable {behind cs digits left : List Char} {c : Char} {x : Double} {j : Json} {depth steps : Nat}

namespace Json

open Numeral

variable {negative : Bool} {s : Significand} {rest : List Char}

/-! ## 1. The end of a number -/

/-- What follows a number starts with nothing that would be part of it. -/
structure EndsNumber (rest : List Char) : Prop where
  digits : EndsDigits rest
  continues : continuesNumber rest = false

theorem EndsNumber.nil : EndsNumber [] := ⟨.nil, rfl⟩

theorem EndsNumber.continues_append (h : EndsNumber rest) (cs : List Char) :
    continuesNumber (cs ++ rest) = continuesNumber cs := by
  cases cs with
  | nil => exact h.continues
  | cons c cs => rfl

theorem EndsNumber.head_ne_point (h : EndsNumber rest) : rest.head? ≠ some '.' := by
  cases rest with
  | nil => exact nofun
  | cons c rest =>
    intro hc
    cases hc
    cases h.continues

/-- **A reading function that does not look ahead**: it leaves an end of what it is given, and what
    follows is left as well. -/
def ReadsOn (read : List Char → Except Fault (Json × List Char)) (cs : List Char) : Prop :=
  ∀ j left, read cs = .ok (j, left) →
    left <:+ cs ∧ ∀ rest, EndsNumber rest → read (cs ++ rest) = .ok (j, left ++ rest)

theorem readsOn_ofScaled (cs : List Char) : ReadsOn (ofScaled negative s) cs := by
  intro j left h
  unfold ofScaled at h ⊢
  cases hx : scaled? negative s with
  | none =>
    rw [hx] at h
    cases h
  | some x =>
    rw [hx] at h
    cases h
    exact ⟨List.suffix_refl _, fun _ _ => rfl⟩

/-! ## 2. Exponents -/

theorem exponentDigits_append {value n : Nat} (h : exponentDigits value cs = .ok (n, left)) :
    left <:+ cs ∧
      ∀ rest, EndsDigits rest → exponentDigits value (cs ++ rest) = .ok (n, left ++ rest) := by
  induction cs generalizing value with
  | nil =>
    cases h
    refine ⟨List.suffix_refl _, fun rest hrest => ?_⟩
    cases rest with
    | nil => rfl
    | cons c rest =>
      rw [List.nil_append, exponentDigits.eq_2, if_neg (by rw [hrest c rfl]; decide)]
  | cons c cs ih =>
    rw [exponentDigits.eq_2] at h
    simp only [List.cons_append, exponentDigits.eq_2]
    split at h
    · dsimp only at h ⊢
      split at h
      · cases h
      · obtain ⟨hsuffix, happend⟩ := ih h
        refine ⟨hsuffix.trans (List.suffix_cons c cs), fun rest hrest => ?_⟩
        rw [if_pos ‹_›, if_neg ‹_›]
        exact happend rest hrest
    · cases h
      refine ⟨List.suffix_refl _, fun rest _ => ?_⟩
      rw [if_neg ‹_›]
      rfl

theorem exponentDigits_error_append {value : Nat} (h : exponentDigits value cs = .error left) :
    left <:+ cs ∧ ∀ rest, exponentDigits value (cs ++ rest) = .error (left ++ rest) := by
  induction cs generalizing value with
  | nil => cases h
  | cons c cs ih =>
    rw [exponentDigits.eq_2] at h
    simp only [List.cons_append, exponentDigits.eq_2]
    split at h
    · dsimp only at h ⊢
      split at h
      · cases h
        refine ⟨List.suffix_cons _ _, fun rest => ?_⟩
        rw [if_pos ‹_›, if_pos ‹_›]
      · obtain ⟨hsuffix, happend⟩ := ih h
        refine ⟨hsuffix.trans (List.suffix_cons c cs), fun rest => ?_⟩
        rw [if_pos ‹_›, if_neg ‹_›]
        exact happend rest
    · cases h

/-- A sign is split off in the same way whatever follows, if more than a sign is there. -/
theorem splitSign_append {below : Bool} (h : splitSign cs = (below, c :: digits)) :
    (c :: digits) <:+ cs ∧
      ∀ rest, splitSign (cs ++ rest) = (below, c :: digits ++ rest) := by
  unfold splitSign at h
  split at h
  case h_1 | h_2 =>
    cases h
    exact ⟨List.suffix_cons _ _, fun _ => rfl⟩
  · rename_i hminus hplus
    cases h
    refine ⟨List.suffix_refl _, fun rest => splitSign.eq_3 _ ?_ ?_⟩
    · intro cs hcs
      cases hcs
      exact hminus _ rfl
    · intro cs hcs
      cases hcs
      exact hplus _ rfl

theorem readsOn_readExponent (cs : List Char) : ReadsOn (readExponent negative s) cs := by
  intro j left h
  unfold readExponent at h ⊢
  rcases hsplit : splitSign cs with ⟨below, digits⟩
  rw [hsplit] at h
  cases digits with
  | nil => cases h
  | cons c digits =>
    obtain ⟨hsuffix, happend⟩ := splitSign_append hsplit
    simp only [happend, List.cons_append]
    dsimp only at h
    split at h
    · rename_i hdigit
      cases hrun : exponentDigits 0 (c :: digits) with
      | ok p =>
        obtain ⟨value, behind⟩ := p
        obtain ⟨hbehind, hrest⟩ := exponentDigits_append hrun
        rw [hrun] at h
        obtain ⟨hleft, hread⟩ := readsOn_ofScaled _ j left h
        refine ⟨(hleft.trans hbehind).trans hsuffix, fun rest hends => ?_⟩
        rw [if_pos hdigit, ← List.cons_append, hrest rest hends.digits]
        exact hread rest hends
      | error behind =>
        obtain ⟨hbehind, hrest⟩ := exponentDigits_error_append hrun
        rw [hrun] at h
        dsimp only at h
        split at h
        · cases h
        · rename_i hzero
          cases h
          refine ⟨((List.dropWhile_suffix _).trans hbehind).trans hsuffix, fun rest hends => ?_⟩
          rw [if_pos hdigit, ← List.cons_append, hrest rest]
          dsimp only
          rw [if_neg hzero, hends.digits.dropWhile_append]
    · cases h

/-! ## 3. Fractions and whole numbers -/

/-- What follows the digits of a number with or without a fraction: an exponent, or nothing. -/
def readTail (negative : Bool) (s : Significand) : List Char → Except Fault (Json × List Char)
  | [] => ofScaled negative s []
  | c :: after =>
    if c == 'e' || c == 'E' then readExponent negative s after
    else ofScaled negative s (c :: after)

theorem readScaled_of_point (h : spanDigits behind = (digits, left)) (hne : digits ≠ []) :
    readScaled negative s ('.' :: behind) = readTail negative (fractionDigits s digits) left := by
  obtain ⟨rfl, rfl⟩ := Prod.mk.inj h
  refine (if_neg (by rwa [List.isEmpty_iff])).trans ?_
  cases behind.dropWhile isDigit <;> rfl

theorem readScaled_of_no_point (h : cs.head? ≠ some '.') :
    readScaled negative s cs = readTail negative s cs := by
  unfold readScaled
  split
  · exact absurd rfl h
  · rfl
  · rfl

theorem readsOn_readTail (cs : List Char) : ReadsOn (readTail negative s) cs := by
  intro j left h
  cases cs with
  | nil =>
    obtain ⟨hleft, hread⟩ := readsOn_ofScaled _ j left h
    refine ⟨hleft, fun rest hends => ?_⟩
    rw [← hread rest hends]
    cases rest with
    | nil => rfl
    | cons c rest =>
      have hc : ¬(c == 'e' || c == 'E') = true := by
        intro he
        have hcontinues := hends.continues
        rw [continuesNumber, Bool.or_assoc, he, Bool.or_true] at hcontinues
        cases hcontinues
      exact if_neg hc
  | cons c after =>
    rw [readTail] at h
    simp only [List.cons_append, readTail]
    split at h
    · rename_i he
      obtain ⟨hleft, hread⟩ := readsOn_readExponent _ j left h
      refine ⟨hleft.trans (List.suffix_cons c after), fun rest hends => ?_⟩
      rw [if_pos he]
      exact hread rest hends
    · rename_i he
      obtain ⟨hleft, hread⟩ := readsOn_ofScaled _ j left h
      refine ⟨hleft, fun rest hends => ?_⟩
      rw [if_neg he]
      exact hread rest hends

theorem readScaled_of_bare_point (h : spanDigits behind = ([], left)) :
    ∃ fault, readScaled negative s ('.' :: behind) = .error fault := by
  show ∃ fault, (if (spanDigits behind).1.isEmpty = true then _ else _) = _
  rw [h]
  cases behind <;> exact ⟨_, rfl⟩

theorem readsOn_readScaled (cs : List Char) : ReadsOn (readScaled negative s) cs := by
  intro j left h
  by_cases hpoint : cs.head? = some '.'
  · obtain ⟨behind, rfl⟩ : ∃ behind, cs = '.' :: behind := by
      cases cs with
      | nil => cases hpoint
      | cons c behind =>
        cases hpoint
        exact ⟨behind, rfl⟩
    rcases hspan : spanDigits behind with ⟨digits, after⟩
    have hafter := (spanDigits_suffix hspan).trans (List.suffix_cons '.' behind)
    by_cases hne : digits = []
    · subst hne
      obtain ⟨fault, herror⟩ := readScaled_of_bare_point (s := s) hspan
      cases herror.symm.trans h
    · rw [readScaled_of_point hspan hne] at h
      obtain ⟨hleft, hread⟩ := readsOn_readTail _ j left h
      refine ⟨hleft.trans hafter, fun rest hends => ?_⟩
      have hspan' : spanDigits (behind ++ rest) = (digits, after ++ rest) := by
        rw [hends.digits.spanDigits_append, hspan]
      rw [List.cons_append, readScaled_of_point hspan' hne]
      exact hread rest hends
  · rw [readScaled_of_no_point hpoint] at h
    obtain ⟨hleft, hread⟩ := readsOn_readTail _ j left h
    refine ⟨hleft, fun rest hends => ?_⟩
    rw [readScaled_of_no_point]
    · exact hread rest hends
    · cases cs with
      | nil => exact hends.head_ne_point
      | cons c cs => exact hpoint

theorem readsOn_finish (digits cs : List Char) :
    ReadsOn (readNumber.finish negative digits) cs := by
  intro j left h
  unfold readNumber.finish at h ⊢
  dsimp only at h ⊢
  split at h
  · rename_i hscaled
    obtain ⟨hleft, hread⟩ := readsOn_readScaled _ j left h
    refine ⟨hleft, fun rest hends => ?_⟩
    rw [hends.continues_append, if_pos hscaled]
    exact hread rest hends
  rename_i hplain
  have hrest : ∀ rest, EndsNumber rest →
      ¬(continuesNumber (cs ++ rest) || (wholeDigits 0 digits).exponent ≠ 0) = true := by
    intro rest hends
    rwa [hends.continues_append]
  split at h
  · rename_i hnegative
    split at h
    · rename_i hrange
      obtain ⟨hleft, hread⟩ := readsOn_ofScaled _ j left h
      refine ⟨hleft, fun rest hends => ?_⟩
      rw [if_neg (hrest rest hends), if_pos hnegative, if_pos hrange]
      exact hread rest hends
    · rename_i hrange
      cases h
      refine ⟨List.suffix_refl _, fun rest hends => ?_⟩
      rw [if_neg (hrest rest hends), if_pos hnegative, if_neg hrange]
  · rename_i hpositive
    cases h
    refine ⟨List.suffix_refl _, fun rest hends => ?_⟩
    rw [if_neg (hrest rest hends), if_neg hpositive]

/-- A number that starts with a zero has no further digits in front of the point. -/
theorem readNumber_zero (h : EndsDigits behind) :
    readNumber negative ('0' :: behind) = readNumber.finish negative ['0'] behind := by
  cases behind with
  | nil => rfl
  | cons d behind =>
    show (if isDigit d = true then _ else _) = _
    rw [if_neg (by rw [h d rfl]; decide)]

theorem readNumber_of_digits (hc : isDigit c = true) (hzero : c ≠ '0')
    (h : spanDigits (c :: behind) = (digits, left)) :
    readNumber negative (c :: behind) = readNumber.finish negative digits left := by
  unfold readNumber
  dsimp only
  rw [if_neg (by rw [hc]; decide), if_neg (by rwa [beq_iff_eq]), h, beq_eq_false_iff_ne.2 hzero]

theorem isDigit_of_readNumber (h : readNumber negative (c :: behind) = .ok (j, left)) :
    isDigit c = true := by
  cases hc : isDigit c with
  | true => rfl
  | false =>
    unfold readNumber at h
    dsimp only at h
    rw [if_pos (by rw [hc]; rfl)] at h
    cases h

theorem endsDigits_of_readNumber (h : readNumber negative ('0' :: behind) = .ok (j, left)) :
    EndsDigits behind := by
  cases behind with
  | nil => exact .nil
  | cons d behind =>
    refine .cons ?_
    cases hd : isDigit d with
    | false => rfl
    | true =>
      have herror : readNumber negative ('0' :: d :: behind) =
          if isDigit d = true then .error (.next .number (d :: behind))
          else readNumber.finish negative ['0'] (d :: behind) := rfl
      rw [herror, if_pos hd] at h
      cases h

/-- **Numbers do not depend on what follows.** -/
theorem readsOn_readNumber (cs : List Char) : ReadsOn (readNumber negative) cs := by
  intro j left h
  cases cs with
  | nil => cases h
  | cons c behind =>
    have hc := isDigit_of_readNumber h
    by_cases hzero : c = '0'
    · subst hzero
      have hends := endsDigits_of_readNumber h
      rw [readNumber_zero hends] at h
      obtain ⟨hleft, hread⟩ := readsOn_finish _ _ j left h
      refine ⟨hleft.trans (List.suffix_cons _ _), fun rest hrest => ?_⟩
      rw [List.cons_append, readNumber_zero (hends.append hrest.digits)]
      exact hread rest hrest
    · rcases hspan : spanDigits (c :: behind) with ⟨digits, after⟩
      rw [readNumber_of_digits hc hzero hspan] at h
      obtain ⟨hleft, hread⟩ := readsOn_finish _ _ j left h
      refine ⟨hleft.trans (spanDigits_suffix hspan), fun rest hrest => ?_⟩
      have hspan' : spanDigits (c :: (behind ++ rest)) = (digits, after ++ rest) := by
        rw [← List.cons_append, hrest.digits.spanDigits_append, hspan]
      rw [List.cons_append, readNumber_of_digits hc hzero hspan']
      exact hread rest hrest

/-! ## 4. Integers -/

/-- Digits that fit 64 bits are all collected. -/
theorem wholeDigits_eq {start : Nat} (h : (valueFrom start digits : Int) ≤ maxUInt64) :
    wholeDigits start digits = ⟨valueFrom start digits, 0⟩ := by
  induction digits generalizing start with
  | nil => rfl
  | cons c digits ih =>
    have hvalue : valueFrom start (c :: digits) = valueFrom (start * 10 + digitValue c) digits := by
      rw [Nat.mul_comm]
      rfl
    rw [hvalue] at h ⊢
    have hfits : ¬overflows start (digitValue c) = true := by
      have hle := le_valueFrom (start * 10 + digitValue c) digits
      rw [overflows, decide_eq_true_eq]
      omega
    rw [wholeDigits, if_neg hfits]
    exact ih h

theorem digitsOf_ne_nil (n : Nat) : digitsOf n ≠ [] :=
  Nat.toDigits_ne_nil

theorem readNumber_digitsOf (n : Nat) (hends : EndsDigits rest) :
    readNumber negative (digitsOf n ++ rest) = readNumber.finish negative (digitsOf n) rest := by
  cases hdigits : digitsOf n with
  | nil => exact absurd hdigits (digitsOf_ne_nil n)
  | cons c ds =>
    have hall : ∀ d ∈ c :: ds, isDigit d = true := by
      rw [← hdigits]
      exact fun _ => isDigit_of_mem_digitsOf
    by_cases hzero : c = '0'
    · subst hzero
      obtain rfl := eq_zero_of_digitsOf hdigits
      cases hdigits
      exact readNumber_zero hends
    · exact readNumber_of_digits (hall c List.mem_cons_self) hzero (spanDigits_of_digits hall hends)

/-- Digits in range make an integer, unless they are a zero with a minus sign. -/
theorem finish_digitsOf {n : Nat} (hn : (n : Int) ≤ maxUInt64) (hends : EndsNumber rest) :
    readNumber.finish negative (digitsOf n) rest =
      if negative then
        if n = 0 ∨ maxInt64 + 1 < n then ofScaled true ⟨n, 0⟩ rest
        else .ok (ofInt (-(n : Int)), rest)
      else .ok (ofNat n, rest) := by
  have hwhole : wholeDigits 0 (digitsOf n) = ⟨n, 0⟩ := by
    rw [wholeDigits_eq (by rwa [valueFrom_digitsOf]), valueFrom_digitsOf]
  unfold readNumber.finish
  rw [hwhole, hends.continues]
  rfl

theorem ofInt_of_range {n : Int} (h : minInt64 ≤ n ∧ n ≤ maxUInt64) :
    ofInt n = .number (.integer n h) :=
  dif_pos h

/-! ## 5. Numbers as values -/

theorem isSpace_of_isDigit (h : isDigit c = true) : isSpace c = false := by
  cases hspace : isSpace c with
  | false => rfl
  | true =>
    simp only [isSpace, Bool.or_eq_true, beq_iff_eq] at hspace
    rcases hspace with ((rfl | rfl) | rfl) | rfl
    all_goals exact absurd h (by decide)

theorem noSpace_of_all (h : (cs.all fun c => !isSpace c) = true) : ∀ c ∈ cs, isSpace c = false := by
  intro c hc
  simpa using List.all_eq_true.1 h c hc

theorem readValue_of_digit (hc : isDigit c = true) :
    readValue (steps + 1) depth (c :: cs) = readNumber false (c :: cs) := by
  have hskip : skipSpace (c :: cs) = c :: cs :=
    List.dropWhile_cons_of_neg (by rw [isSpace_of_isDigit hc]; decide)
  rw [readValue, hskip]
  dsimp only
  split
  case h_8 => exact if_pos hc
  all_goals exact absurd hc (by decide)

/-- The text of a number as its sign and the rest, which starts with a digit and holds no blank. -/
structure SignedText (cs : List Char) (negative : Bool) (body : List Char) : Prop where
  eq : cs = (if negative then ['-'] else []) ++ body
  head : ∃ c behind, body = c :: behind ∧ isDigit c = true
  noSpace : ∀ c ∈ body, isSpace c = false

theorem SignedText.readValue {body : List Char} (h : SignedText cs negative body) (rest : List Char) :
    readValue (steps + 1) depth (cs ++ rest) = readNumber negative (body ++ rest) := by
  obtain ⟨c, behind, rfl, hc⟩ := h.head
  rw [h.eq]
  cases negative with
  | true =>
    show Json.readValue (steps + 1) depth ('-' :: (c :: behind ++ rest)) = _
    rw [Json.readValue]
    rfl
  | false => exact readValue_of_digit hc

theorem signedText_integerDigits (n : Int) :
    SignedText (integerDigits n) (decide (n < 0)) (digitsOf n.natAbs) where
  eq := by
    unfold integerDigits
    by_cases hn : n < 0
    · rw [if_pos hn, decide_eq_true hn]
      rfl
    · rw [if_neg hn, decide_eq_false hn]
      rfl
  head := by
    cases hdigits : digitsOf n.natAbs with
    | nil => exact absurd hdigits (digitsOf_ne_nil _)
    | cons c behind =>
      refine ⟨c, behind, rfl, isDigit_of_mem_digitsOf (n := n.natAbs) ?_⟩
      rw [hdigits]
      exact List.mem_cons_self
  noSpace _ hc := isSpace_of_isDigit (isDigit_of_mem_digitsOf hc)

/-- **Integers are read back.** -/
theorem readValue_integer {n : Int} (h : minInt64 ≤ n ∧ n ≤ maxUInt64) (hends : EndsNumber rest) :
    readValue (steps + 1) depth (integerDigits n ++ rest) = .ok (.number (.integer n h), rest) := by
  have hrange : (n.natAbs : Int) ≤ maxUInt64 := by
    unfold minInt64 maxUInt64 at *
    omega
  rw [(signedText_integerDigits n).readValue, readNumber_digitsOf _ hends.digits,
    finish_digitsOf hrange hends, ← ofInt_of_range h]
  by_cases hn : n < 0
  · have hsmall : ¬(n.natAbs = 0 ∨ maxInt64 + 1 < (n.natAbs : Int)) := by
      unfold minInt64 maxInt64 at *
      omega
    rw [if_pos (decide_eq_true hn), if_neg hsmall, show -(n.natAbs : Int) = n by omega]
  · rw [if_neg (by simpa using hn), ofNat, show (n.natAbs : Int) = n by omega]

/-! ## 6. Doubles -/

/-- The digits of a number written positionally start with one of its digits or a zero. -/
theorem head_positionalDigits {whole : List Char} (lead : Int) (hne : digits ≠ [])
    (hall : ∀ c ∈ digits, isDigit c = true) :
    ∃ c behind, positionalDigits whole digits lead = c :: behind ∧ isDigit c = true := by
  cases digits with
  | nil => exact absurd rfl hne
  | cons c ds =>
    have hc := hall c List.mem_cons_self
    unfold positionalDigits
    split
    · exact ⟨'0', _, rfl, rfl⟩
    · dsimp only
      split
      · exact ⟨c, _, rfl, hc⟩
      · exact ⟨c, _, rfl, hc⟩

theorem head_scientificDigits (plus : Bool) (lead : Int) (hne : digits ≠ [])
    (hall : ∀ c ∈ digits, isDigit c = true) :
    ∃ c behind, scientificDigits plus digits lead = c :: behind ∧ isDigit c = true := by
  cases digits with
  | nil => exact absurd rfl hne
  | cons c ds =>
    have hc := hall c List.mem_cons_self
    cases ds <;> exact ⟨c, _, rfl, hc⟩

theorem noSpace_positionalDigits {whole : List Char} (lead : Int)
    (hwhole : ∀ c ∈ whole, isSpace c = false) (hall : ∀ c ∈ digits, isDigit c = true) :
    ∀ c ∈ positionalDigits whole digits lead, isSpace c = false := by
  have hdigit : ∀ c ∈ digits, isSpace c = false := fun c hc => isSpace_of_isDigit (hall c hc)
  have hzero : ∀ n, ∀ c ∈ List.replicate n '0', isSpace c = false := by
    intro n c hc
    rw [List.eq_of_mem_replicate hc]
    rfl
  unfold positionalDigits
  dsimp only
  split
  · simp only [List.forall_mem_append]
    exact ⟨⟨noSpace_of_all rfl, hzero _⟩, hdigit⟩
  · split
    · simp only [List.forall_mem_append]
      exact ⟨⟨hdigit, hzero _⟩, hwhole⟩
    · simp only [List.forall_mem_append]
      exact ⟨⟨fun c hc => hdigit c (List.mem_of_mem_take hc), noSpace_of_all rfl⟩,
        fun c hc => hdigit c (List.mem_of_mem_drop hc)⟩

theorem noSpace_scientificDigits (plus : Bool) (lead : Int) (hall : ∀ c ∈ digits, isDigit c = true) :
    ∀ c ∈ scientificDigits plus digits lead, isSpace c = false := by
  have hdigit : ∀ c ∈ digits, isSpace c = false := fun c hc => isSpace_of_isDigit (hall c hc)
  unfold scientificDigits
  simp only [List.forall_mem_append]
  refine ⟨⟨⟨?_, noSpace_of_all rfl⟩, ?_⟩, ?_⟩
  · split
    · rename_i first second rest
      obtain ⟨hfirst, hrest⟩ := List.forall_mem_cons.1 hdigit
      exact List.forall_mem_cons.2 ⟨hfirst, List.forall_mem_cons.2 ⟨rfl, hrest⟩⟩
    · exact hdigit
  · repeat' split
    all_goals exact noSpace_of_all rfl
  · exact fun c hc => isSpace_of_isDigit (isDigit_of_mem_digitsOf hc)

/-- A sign and digits, written positionally or not. -/
theorem signedText_digits (negative positional : Bool) (lead : Int) (hne : digits ≠ [])
    (hall : ∀ c ∈ digits, isDigit c = true) :
    ∃ body, SignedText ((if negative then ['-'] else []) ++
      if positional then positionalDigits ['.', '0'] digits lead
      else scientificDigits true digits lead) negative body := by
  refine ⟨_, rfl, ?_, ?_⟩
  · cases positional with
    | true => exact head_positionalDigits lead hne hall
    | false => exact head_scientificDigits true lead hne hall
  · cases positional with
    | true => exact noSpace_positionalDigits lead (noSpace_of_all rfl) hall
    | false => exact noSpace_scientificDigits true lead hall

theorem signedText_spell (h : x.isFinite = true) :
    ∃ body, SignedText (x.spell .json).toList x.isNegative body := by
  unfold Double.spell
  rw [Double.isNaN_of_isFinite h, Double.isInfinite_of_isFinite h]
  cases x.isZero with
  | true =>
    rw [if_neg nofun, if_neg nofun, String.toList_ofList]
    exact signedText_digits _ _ _ nofun (by simp [isDigit])
  | false =>
    rw [if_neg nofun, if_neg nofun, String.toList_ofList]
    exact signedText_digits _ _ _ (digitsOf_ne_nil _) fun _ => isDigit_of_mem_digitsOf

theorem readAll_of_read {k : Json} (h : read j.render = .ok k) : readAll j.chars = .ok k := by
  unfold read at h
  rw [render, String.toList_ofList] at h
  cases hall : readAll j.chars with
  | ok i =>
    rw [hall] at h
    cases h
    rfl
  | error fault =>
    rw [hall] at h
    cases h

/-- A text of a number that is read whole leaves nothing behind. -/
theorem SignedText.readNumber_of_readAll {body : List Char} (h : SignedText cs negative body)
    (hall : readAll cs = .ok j) : readNumber negative body = .ok (j, []) := by
  have hvalue : Json.readValue (3 * cs.length + 3) maxDepth (cs ++ []) =
      readNumber negative (body ++ []) := h.readValue []
  rw [List.append_nil, List.append_nil] at hvalue
  unfold readAll at hall
  rw [hvalue] at hall
  cases hrun : readNumber negative body with
  | error fault =>
    rw [hrun] at hall
    cases hall
  | ok p =>
    obtain ⟨i, left⟩ := p
    rw [hrun] at hall
    dsimp only at hall
    cases left with
    | nil =>
      cases hall
      rfl
    | cons c left =>
      -- what is left would have to be blank, but it is part of the text
      have hc := h.noSpace c ((readsOn_readNumber body i _ hrun).1.subset List.mem_cons_self)
      rw [skipSpace, List.dropWhile_cons_of_neg (by rw [hc]; decide)] at hall
      cases hall

end Json

/-- **A double that is read back**: its text, read alone, is read as the double. -/
def Double.ReadsBack (x : Double) : Prop :=
  Json.read (Json.ofDouble x).render = .ok (Json.ofDouble x)

/-- The double that the text of a double is read as, if it is one. -/
def Double.readAgain? (x : Double) : Option Double :=
  match Json.read (Json.ofDouble x).render with
  | .ok (.number (.double y _)) => some y
  | _ => none

namespace Json

theorem ofDouble_of_finite (h : x.isFinite = true) : ofDouble x = .number (.double x h) :=
  dif_pos h

/-- Whether a finite double is read back can be computed. -/
theorem readsBack_iff (h : x.isFinite = true) : x.ReadsBack ↔ x.readAgain? = some x := by
  rw [Double.ReadsBack, Double.readAgain?]
  constructor
  · intro hread
    rw [hread, ofDouble_of_finite h]
  · intro hagain
    split at hagain
    · next y hy hread =>
      cases hagain
      rw [hread, ofDouble_of_finite h]
    · cases hagain

/-- A finite double that is read back alone is so wherever it stands. -/
theorem readValue_double {rest : List Char} (h : x.isFinite = true) (hback : x.ReadsBack)
    (hends : EndsNumber rest) :
    readValue (steps + 1) depth ((x.spell .json).toList ++ rest) =
      .ok (.number (.double x h), rest) := by
  obtain ⟨body, htext⟩ := signedText_spell h
  have hall := readAll_of_read hback
  rw [ofDouble_of_finite h, chars] at hall
  have hrun := htext.readNumber_of_readAll hall
  rw [htext.readValue, (readsOn_readNumber body _ _ hrun).2 rest hends]
  rfl

end Json

end QueryPlan
