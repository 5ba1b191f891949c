import QueryPlan.Number.Spelling
import QueryPlan.Proofs.Plan.Words
import QueryPlan.Proofs.Text.Edges
import QueryPlan.Text.Hex

/-!
# The characters of constants

What the compiler writes for numbers, bytes, dates, times and intervals is plain, whatever their
value. Minus signs stand in front of negative numbers, years, offsets and intervals, in exponents
and between the parts of a date. In none of these two of them stand side by side; nor do they in
JSON text and string literals, unless a string in them has them so already.
-/

namespace QueryPlan

open Edges

/-! ## 1. Numbers and bytes -/

/-- The edges of a number, which may have a sign in front. -/
def Edges.signed : Edges := ⟨true, false, false, false⟩

theorem fits_minus : (⟨true, true, false, false⟩ : Edges).Fits "-" := by
  decide

theorem fits_plus : solid.Fits "+" := by
  decide

theorem isBareChar_of_mem_digits {n : Nat} {c : Char} (h : c ∈ Nat.toDigits 10 n) : IsBareChar c :=
  isBareChar_of_isDigit (Nat.isDigit_of_mem_toDigits (by decide) (by decide) h)

theorem spans_digits (n : Nat) : solid.Spans (Nat.toDigits 10 n) :=
  .someOfBare (fun _ => isBareChar_of_mem_digits) Nat.toDigits_ne_nil

theorem fits_nat (n : Nat) : solid.Fits (toString n) := by
  rw [Nat.toString_eq_ofList_toDigits]
  exact .ofList (spans_digits n)

theorem fits_int (n : Int) : signed.Fits (toString n) := by
  cases n with
  | ofNat m => exact (fits_nat m).mono rfl
  | negSucc m => exact fits_minus.append (fits_nat (m + 1)) rfl

theorem isBareChar_of_mem_zeros {n : Nat} {c : Char} (h : c ∈ List.replicate n '0') :
    IsBareChar c := by
  rw [List.eq_of_mem_replicate h]
  decide

theorem isBareChar_of_mem_padded {width n : Nat} {c : Char} (h : c ∈ (padded width n).toList) :
    IsBareChar c := by
  rw [padded, String.toList_ofList] at h
  rcases List.mem_append.1 h with h | h
  · exact isBareChar_of_mem_zeros h
  · exact isBareChar_of_mem_digits h

theorem fits_padded (width n : Nat) : solid.Fits (padded width n) := by
  refine .someOfBare (fun _ => isBareChar_of_mem_padded) ?_
  rw [padded, String.toList_ofList]
  exact fun h => Nat.toDigits_ne_nil (List.append_eq_nil_iff.1 h).2

theorem isBareChar_positional {whole digits : List Char} (hw : ∀ c ∈ whole, IsBareChar c)
    (hd : ∀ c ∈ digits, IsBareChar c) (lead : Int) :
    ∀ c ∈ positionalDigits whole digits lead, IsBareChar c := by
  have hfront : ∀ c ∈ ['0', '.'], IsBareChar c := by decide
  have hpoint : ∀ c ∈ ['.'], IsBareChar c := by decide
  unfold positionalDigits
  split
  · exact List.forall_mem_append.2
      ⟨List.forall_mem_append.2 ⟨hfront, fun _ => isBareChar_of_mem_zeros⟩, hd⟩
  · dsimp only
    split
    · exact List.forall_mem_append.2
        ⟨List.forall_mem_append.2 ⟨hd, fun _ => isBareChar_of_mem_zeros⟩, hw⟩
    · refine List.forall_mem_append.2 ⟨List.forall_mem_append.2 ⟨fun c hc => ?_, hpoint⟩, ?_⟩
      · exact hd c (List.mem_of_mem_take hc)
      · exact fun c hc => hd c (List.mem_of_mem_drop hc)

theorem spans_scientific {digits : List Char} (hd : ∀ c ∈ digits, IsBareChar c) (plus : Bool)
    (lead : Int) : firm.Spans (scientificDigits plus digits lead) := by
  have hexponent : solid.Spans ['e'] := .single (by decide)
  have hsign : plain.Spans (if lead < 0 then ['-'] else if plus then ['+'] else []) := by
    split
    · decide
    · cases plus <;> decide
  unfold scientificDigits
  refine Spans.mono (((Spans.append (E := firm) (.ofBare ?_) hexponent rfl).append hsign rfl).append
    (spans_digits lead.natAbs) rfl) rfl
  split
  · rw [List.forall_mem_cons] at hd
    exact List.forall_mem_cons.2 ⟨hd.1, List.forall_mem_cons.2 ⟨by decide, hd.2⟩⟩
  · exact hd

/-- A double, in a spelling that is plain where it is not finite. -/
theorem fits_spell {spelling : Spelling} (hnan : plain.Fits spelling.nan)
    (hinfinity : ∀ b, plain.Fits (spelling.infinity b)) (x : Double) :
    plain.Fits (x.spell spelling) := by
  have hdigits : ∀ c ∈ (if x.isZero then (['0'], (0 : Int)) else
      (digitsOf (x.shortest spelling.tie).digits,
        (x.shortest spelling.tie).exponent +
          ((digitsOf (x.shortest spelling.tie).digits).length - 1 : Nat))).1, IsBareChar c := by
    split
    · decide
    · exact fun _ => isBareChar_of_mem_digits
  have hwhole : ∀ c ∈ (if spelling.fraction then ['.', '0'] else []), IsBareChar c := by
    split <;> decide
  unfold Double.spell
  split
  · exact hnan
  split
  · exact hinfinity _
  refine Spans.mono (Fits.ofList (Spans.append .sign (F := firm) ?_ rfl)) rfl
  split
  · exact .ofBare (isBareChar_positional hwhole hdigits _)
  · exact spans_scientific hdigits _ _

theorem fits_floatLiteral (x : Double) : plain.Fits (x.spell .literal) :=
  fits_spell (by decide) (fun b => by cases b <;> decide) x

theorem fits_jsonNumber (x : Double) : plain.Fits (x.spell .json) :=
  fits_spell (by decide) (fun b => by cases b <;> decide) x

theorem isBareChar_hexDigit : ∀ n < 16, IsBareChar (Text.hexDigit n) := by
  decide

theorem fits_hex (bytes : List UInt8) : firm.Fits (String.ofList (Text.hexEncode bytes)) := by
  exact .ofList (.ofBare (Text.forall_mem_hexEncode isBareChar_hexDigit bytes))

/-! ## 2. Dates, times and intervals -/

theorem fits_date (d : Date) : signed.Fits d.render := by
  have hyear : signed.Fits (Date.yearText d.year) := by
    unfold Date.yearText
    split
    · exact (fits_padded _ _).mono rfl
    · split
      · exact fits_minus.append (fits_padded _ _) rfl
      · exact (fits_plus.append (fits_padded _ _) rfl).mono rfl
  exact ((((hyear.append fits_minus rfl).append (fits_padded _ _) rfl).append fits_minus rfl).append
    (fits_padded _ _) rfl)

theorem fits_clock (c : Clock) : firm.Fits c.render := by
  have hpoint : solid.Fits "." := by decide
  have hcolon : solid.Fits ":" := by decide
  have hfraction : firm.Fits (Clock.fractionText c.fraction) := by
    have hdigits : ∀ width n, firm.Fits ("." ++ padded width n) := fun width n =>
      (hpoint.append (fits_padded width n) rfl).mono rfl
    unfold Clock.fractionText
    split
    · decide
    · split
      · exact hdigits 3 _
      · split
        · exact hdigits 6 _
        · exact hdigits 9 _
  exact ((((((fits_padded _ _).append hcolon rfl).append (fits_padded _ _) rfl).append hcolon
    rfl).append (fits_padded _ _) rfl).append hfraction rfl).mono rfl

theorem fits_timestamp {separator : String} (hs : solid.Fits separator) (t : Timestamp) :
    signed.Fits (t.render separator) :=
  ((fits_date t.date).append hs rfl).append (fits_clock t.clock) rfl

theorem fits_offsetTimestamp {separator : String} (hs : solid.Fits separator)
    (t : OffsetTimestamp) : signed.Fits (t.render separator) := by
  have hcolon : solid.Fits ":" := by decide
  have hoffset : signed.Fits (OffsetTimestamp.offsetText t.offset) := by
    have hsign : (⟨true, true, false, false⟩ : Edges).Fits (if t.offset < 0 then "-" else "+") := by
      split <;> decide
    exact hsign.append (((fits_padded _ _).append hcolon rfl).append (fits_padded _ _) rfl) rfl
  exact (fits_timestamp hs t.localTime).append hoffset rfl

theorem fits_clockText (micros : Int) : plain.Fits (Interval.clockText micros) := by
  have hcolon : solid.Fits ":" := by decide
  have hsign : plain.Fits (if micros < 0 then "-" else "") := by
    split <;> decide
  have hfraction : ∀ n, firm.Fits (String.ofList (Interval.dropBack '0' (padded 6 n).toList)) := by
    intro n
    refine .ofList (.ofBare fun c h => ?_)
    have hc : c ∈ (padded 6 n).toList :=
      List.mem_reverse.1 ((List.dropWhile_sublist _).mem (List.mem_reverse.1 h))
    exact isBareChar_of_mem_padded hc
  have hpoint : ∀ b : Prop, [Decidable b] → ∀ n, firm.Fits (if b then ""
      else "." ++ String.ofList (Interval.dropBack '0' (padded 6 n).toList)) := by
    intro b _ n
    split
    · decide
    · have hdot : solid.Fits "." := by decide
      exact (hdot.append (hfraction n) rfl).mono rfl
  exact ((hsign.append (((((fits_padded _ _).append hcolon rfl).append (fits_padded _ _) rfl).append
    hcolon rfl).append (fits_padded _ _) rfl) rfl).append (hpoint _ _) rfl).mono rfl

theorem fits_counted (n : Int) {unit : String} (hu : firm.Fits unit) :
    plain.Fits (Interval.counted n unit) := by
  have hblank : solid.Fits " " := by decide
  have hplural : firm.Fits (if n.natAbs = 1 then "" else "s") := by
    split <;> decide
  exact ((((fits_int n).append hblank rfl).append hu rfl).append hplural rfl).mono rfl

theorem fits_interval (i : Interval) : plain.Fits i.render := by
  have hpart : ∀ (c : Prop) [Decidable c] (n : Int) (unit : String), firm.Fits unit →
      ∀ t ∈ (if c then [] else [Interval.counted n unit]), plain.Fits t := by
    intro c _ n unit hu t ht
    split at ht
    · cases ht
    · rw [List.mem_singleton.1 ht]
      exact fits_counted n hu
  have hclock : ∀ calendar : List String, (∀ t ∈ calendar, plain.Fits t) →
      ∀ t ∈ (if i.micros ≠ 0 ∨ calendar = [] then calendar ++ [Interval.clockText i.micros.toInt]
        else calendar), plain.Fits t := by
    intro calendar hcalendar t ht
    split at ht
    · rcases List.mem_append.1 ht with ht | ht
      · exact hcalendar t ht
      · rw [List.mem_singleton.1 ht]
        exact fits_clockText _
    · exact hcalendar t ht
  refine .intercalate (by decide) (hclock _ fun t ht => ?_)
  rcases List.mem_append.1 ht with ht | ht
  · rcases List.mem_append.1 ht with ht | ht
    · exact hpart _ _ "year" (by decide) t ht
    · exact hpart _ _ "mon" (by decide) t ht
  · exact hpart _ _ "day" (by decide) t ht

/-! ## 3. JSON and string literals -/

theorem minus_not_mem_escape {c : Char} (hc : c ≠ '-') :
    '-' ∉ Json.escape c ∧ Json.escape c ≠ [] := by
  unfold Json.escape
  repeat' split
  all_goals try exact ⟨by decide, List.cons_ne_nil _ _⟩
  · next hcontrol =>
    refine ⟨fun h => ?_, List.cons_ne_nil _ _⟩
    simp only [Json.hexEscape, List.mem_cons, List.not_mem_nil, or_false] at h
    rcases h with h | h | h | h | h | h
    · cases h
    · cases h
    · cases h
    · cases h
    · exact (isBareChar_hexDigit _ (by omega)).2 h.symm
    · exact (isBareChar_hexDigit _ (by omega)).2 h.symm
  · exact ⟨fun h => hc (List.mem_singleton.1 h).symm, List.cons_ne_nil _ _⟩

theorem spans_quoted {s : String} (h : Apart s) : word.Spans (Json.quoted s) := by
  have hquote : solid.Spans ['"'] := .single (by decide)
  exact ((hquote.append (.flatMap rfl (fun c hc => minus_not_mem_escape hc) h) rfl).append hquote
    rfl).mono rfl

theorem spans_integerDigits (n : Int) : loose.Spans (Json.integerDigits n) := by
  unfold Json.integerDigits
  split
  · exact Spans.loosen (Spans.append fits_minus (spans_digits n.natAbs) rfl)
  · exact (spans_digits n.natAbs).loosen

mutual

/-- JSON text has minus signs apart if its strings and keys have. -/
theorem Json.spans_chars : (j : Json) → (∀ t ∈ j.words, Apart t) → loose.Spans j.chars
  | .null, _ => (Spans.ofBare (by decide)).loosen
  | .bool true, _ => (Spans.ofBare (by decide)).loosen
  | .bool false, _ => (Spans.ofBare (by decide)).loosen
  | .number (.integer n _), _ => spans_integerDigits n
  | .number (.double x _), _ => (fits_jsonNumber x).loosen
  | .text s, h => (spans_quoted (h s List.mem_cons_self)).loosen
  | .array items, h => by
    have hopen : solid.Spans ['['] := .single (by decide)
    have hclose : solid.Spans [']'] := .single (by decide)
    exact ((hopen.append (spans_charsItems items h) rfl).append hclose rfl).loosen
  | .object fields, h => by
    have hopen : solid.Spans ['\x7b'] := .single (by decide)
    have hclose : solid.Spans ['\x7d'] := .single (by decide)
    exact ((hopen.append (spans_charsFields fields h) rfl).append hclose rfl).loosen

theorem Json.spans_charsItems : (items : List Json) → (∀ t ∈ jsonItemWords items, Apart t) →
    loose.Spans (Json.charsItems items)
  | [], _ => (Spans.ofBare (by decide)).loosen
  | [item], h => Json.spans_chars item fun t ht => h t (List.mem_append_left _ ht)
  | item :: next :: rest, h => by
    have hcomma : solid.Spans [','] := .single (by decide)
    have hitem := Json.spans_chars item fun t ht => h t (List.mem_append_left _ ht)
    have hrest := spans_charsItems (next :: rest) fun t ht => h t (List.mem_append_right _ ht)
    exact (hitem.append (hcomma.append hrest rfl) rfl).loosen

theorem Json.spans_charsFields : (fields : List (String × Json)) →
    (∀ t ∈ jsonFieldWords fields, Apart t) → loose.Spans (Json.charsFields fields)
  | [], _ => (Spans.ofBare (by decide)).loosen
  | [(name, value)], h => by
    have hcolon : solid.Spans [':'] := .single (by decide)
    have hname := spans_quoted (h name List.mem_cons_self)
    have hvalue := Json.spans_chars value fun t ht =>
      h t (List.mem_cons_of_mem _ (List.mem_append_left _ ht))
    exact (hname.append (hcolon.append hvalue rfl) rfl).loosen
  | (name, value) :: next :: rest, h => by
    have hcolon : solid.Spans [':'] := .single (by decide)
    have hcomma : solid.Spans [','] := .single (by decide)
    have hname := spans_quoted (h name List.mem_cons_self)
    have hvalue := Json.spans_chars value fun t ht =>
      h t (List.mem_cons_of_mem _ (List.mem_append_left _ ht))
    have hrest := spans_charsFields (next :: rest) fun t ht =>
      h t (List.mem_cons_of_mem _ (List.mem_append_right _ ht))
    have hfield := hname.append (hcolon.append hvalue rfl) rfl
    exact (hfield.append (hcomma.append hrest rfl) rfl).loosen

end

theorem Json.apart_render {j : Json} (h : ∀ t ∈ j.words, Apart t) : Apart j.render :=
  Fits.apart (.ofList (Json.spans_chars j h))

theorem Json.words_ofDouble (x : Double) : (Json.ofDouble x).words = [] := by
  unfold Json.ofDouble
  split <;> rfl

mutual

/-- The texts that values become in JSON have minus signs apart if their own have none. -/
theorem Value.apart_toJson : (v : Value) → (∀ t ∈ v.words, '-' ∉ t.toList) →
    ∀ t ∈ v.toJson.words, Apart t
  | .decimal digits, h => fun t ht => .ofNone (h t ht)
  | .text s, h => fun t ht => .ofNone (h t ht)
  | .bytes b, _ => fun t ht => by
    rw [List.mem_singleton.1 ht]
    exact (fits_hex b).apart
  | .date d, _ => fun t ht => List.mem_singleton.1 ht ▸ (fits_date d).apart
  | .time c, _ => fun t ht => List.mem_singleton.1 ht ▸ (fits_clock c).apart
  | .timestamp m, _ => fun t ht =>
    List.mem_singleton.1 ht ▸ (fits_timestamp (by decide) m).apart
  | .timestampTz m, _ => fun t ht =>
    List.mem_singleton.1 ht ▸ (fits_offsetTimestamp (by decide) m).apart
  | .interval i, _ => fun t ht => List.mem_singleton.1 ht ▸ (fits_interval i).apart
  | .point p, _ => fun t ht => by
    have hwords : (Value.pointJson p).words = ["x", "y"] := by
      simp [Value.pointJson, Json.words, jsonFieldWords, Json.words_ofDouble]
    rw [Value.toJson, hwords] at ht
    simp only [List.mem_cons, List.not_mem_nil, or_false] at ht
    rcases ht with rfl | rfl <;> decide
  | .json j, h => fun t ht => .ofNone (h t ht)
  | .array items, h => Value.apart_toJsonItems items h
  | .object fields, h => Value.apart_toJsonFields fields h
  | .float x, _ => fun t ht => by
    rw [Value.toJson, Json.words_ofDouble] at ht
    cases ht
  | .null, _ | .bool _, _ | .int _, _ | .uint _, _ => fun t ht => absurd ht List.not_mem_nil

theorem Value.apart_toJsonItems : (items : List Value) → (∀ t ∈ itemWords items, '-' ∉ t.toList) →
    ∀ t ∈ jsonItemWords (Value.toJsonItems items), Apart t
  | [], _ => fun t ht => absurd ht List.not_mem_nil
  | item :: rest, h => fun t ht => by
    rcases List.mem_append.1 ht with ht | ht
    · exact Value.apart_toJson item (fun t ht => h t (List.mem_append_left _ ht)) t ht
    · exact Value.apart_toJsonItems rest (fun t ht => h t (List.mem_append_right _ ht)) t ht

theorem Value.apart_toJsonFields : (fields : List (String × Value)) →
    (∀ t ∈ fieldWords fields, '-' ∉ t.toList) →
      ∀ t ∈ jsonFieldWords (Value.toJsonFields fields), Apart t
  | [], _ => fun t ht => absurd ht List.not_mem_nil
  | (name, value) :: rest, h => fun t ht => by
    rcases List.mem_cons.1 ht with rfl | ht
    · exact .ofNone (h _ List.mem_cons_self)
    · rcases List.mem_append.1 ht with ht | ht
      · exact Value.apart_toJson value
          (fun t ht => h t (List.mem_cons_of_mem _ (List.mem_append_left _ ht))) t ht
      · exact Value.apart_toJsonFields rest
          (fun t ht => h t (List.mem_cons_of_mem _ (List.mem_append_right _ ht))) t ht

end

/-! ## 4. Conventions -/

theorem fits_quotedText (backslash : Bool) {text : String} (h : Apart text) :
    word.Fits (Conventions.quotedText backslash text) := by
  refine .ofList (.quoted ?_ (fun _ _ => Conventions.eq_of_mem_escapeChar) (fun x => ?_) (by decide)
    (by decide) h)
  · cases backslash <;> decide
  · unfold Conventions.escapeChar
    split
    · exact List.cons_ne_nil _ _
    · split <;> exact List.cons_ne_nil _ _

/-- Conventions that bring neither characters of placeholders nor minus signs side by side. -/
structure Conventions.Orderly (c : Conventions) : Prop where
  isPlain : ∀ {t : String}, IsPlain t → IsPlain (c.stringLiteral t)
  fits : ∀ {t : String}, Apart t → word.Fits (c.stringLiteral t)
  intervalValue : ∀ {i : Interval} {t : String}, c.intervalValue i = .ok t → plain.Fits t

theorem Conventions.fits_singleUnitValue {i : Interval} {t : String}
    (h : singleUnitValue i = .ok t) : plain.Fits t := by
  have hunit : ∀ (n : Int) (unit : String), firm.Fits unit → plain.Fits (toString n ++ unit) :=
    fun n _ hu => ((fits_int n).append hu rfl).mono rfl
  unfold singleUnitValue at h
  split at h
  · next text htext =>
    cases h
    unfold singleUnit? at htext
    dsimp only at htext
    repeat' split at htext
    all_goals cases htext
    · decide
    · exact hunit _ " YEAR" (by decide)
    · exact hunit _ " MONTH" (by decide)
    · exact hunit _ " DAY" (by decide)
    · exact hunit _ " SECOND" (by decide)
    · exact hunit _ " MICROSECOND" (by decide)
  · cases h

theorem Conventions.orderly_standard : standard.Orderly where
  isPlain := isPlain_quotedText false
  fits := fits_quotedText false
  intervalValue {i _} h := by
    cases h
    have hinterval := fits_interval i
    exact { (fits_quotedText false hinterval.apart).loosen with
      isPlain := fun _ => isPlain_quotedText false (hinterval.isPlain rfl) }

theorem Conventions.orderly_mySql : mySql.Orderly :=
  ⟨isPlain_quotedText true, fits_quotedText true, fits_singleUnitValue⟩

end QueryPlan
