import QueryPlan.Compile.Literal
import QueryPlan.Dialect.BuiltIn
import QueryPlan.Proofs.Compile.PairedStep
import QueryPlan.Proofs.Decode.Columns
import QueryPlan.Proofs.Lexical.Numeral

/-!
# Constants as tokens

A constant that is printed in place may hold free text: a text, a document or a decimal. By the
lexical rules of a built-in engine the printed constant is made of complete tokens, which are the
same for all free texts but for one token that stands for each of them
(`Setting.literal_keeps_to_frame_iff`). For texts and documents this holds because their string
literals cannot be left; a decimal is printed as it is, so that it holds of those that are numbers.
-/

namespace QueryPlan

open Lexicon

variable {σ : Setting} {kind : DialectKind} {form : LiteralKind} {f : Fragment} {text : String}
  {cs : List Char} {ts : List Token} {i : Interval}

/-! ## 1. The forms of literals -/

/-- A template as the text in front of its first slot, and its slots with the text behind each. The
    keyword is text. -/
def Template.parts (keyword : String) : List Segment → List Char × List (String × List Char)
  | [] => ([], [])
  | .text t :: rest => Prod.map (t.toList ++ ·) id (parts keyword rest)
  | .slot name _ :: rest =>
    if name = "keyword" then Prod.map (keyword.toList ++ ·) id (parts keyword rest)
    else ([], (name, (parts keyword rest).1) :: (parts keyword rest).2)

/-- The text of a template, from its parts. -/
def Template.assemble (slots : String → String) (parts : List Char × List (String × List Char)) :
    List Char :=
  parts.1 ++ parts.2.flatMap fun part => (slots part.1).toList ++ part.2

theorem Template.toList_renderWith (t : Template) {params : Params} {keyword : String}
    (hkeyword : slotText params keyword "keyword" = keyword) :
    (t.renderWith params keyword).toList =
      assemble (slotText params keyword) (parts keyword t.segments) := by
  rw [renderWith_eq]
  induction t.segments with
  | nil => rfl
  | cons segment rest ih =>
    rw [List.map_cons, String.join_cons, String.toList_append, ih]
    cases segment with
    | text t => exact (List.append_assoc _ _ _).symm
    | slot name strength =>
      by_cases hname : name = "keyword"
      · rw [parts, if_pos hname, Segment.fill, hname, hkeyword]
        exact (List.append_assoc _ _ _).symm
      · rw [parts, if_neg hname, Segment.fill]
        exact (List.append_assoc _ _ _).symm

/-- How a built-in engine writes the literals of a form. -/
def DialectKind.literalForm (kind : DialectKind) (form : LiteralKind) :
    List Char × List (String × List Char) :=
  let r := kind.dialect.formats.literals
  Template.parts (r.keyword form) (r.template form []).segments

theorem DialectKind.template_literals (kind : DialectKind) (form : LiteralKind) (params : Params) :
    kind.dialect.formats.literals.template form params =
      kind.dialect.formats.literals.template form [] := by
  cases kind <;> cases form <;> rfl

/-- The text of a literal, from its form. -/
theorem Setting.toList_writeLiteral (hσ : σ.dialect = kind.dialect) {params : Params}
    (hkeyword : Fields.get? params "keyword" = none) (h : σ.writeLiteral form params = .ok f) :
    ∃ keyword, f.text.toList =
      Template.assemble (Template.slotText params keyword) (kind.literalForm form) := by
  obtain ⟨text, hget, hf⟩ := Except.bind_eq_ok_iff.1 h
  obtain ⟨l, hlookup, hl⟩ := Except.bind_eq_ok_iff.1 hget
  cases hf
  cases hl
  unfold Registry.lookup at hlookup
  split at hlookup
  · cases hlookup
  · cases hlookup
    refine ⟨σ.dialect.formats.literals.keyword form, ?_⟩
    have hslot : ∀ keyword, Template.slotText params keyword "keyword" = keyword := by
      intro keyword
      rw [Template.slotText, hkeyword]
      rfl
    rw [DialectKind.literalForm, ← kind.template_literals form params, ← hσ]
    exact Template.toList_renderWith _ (hslot _)

/-! ## 2. Forms around a token -/

/-- The tokens around the only slot of a form, if they are cut off from what begins there with a
    character. -/
def Lexicon.around? (L : Lexicon) (slot : String) (first : Char) :
    List Char × List (String × List Char) → Option (List Token × List Token)
  | (front, [(name, back)]) =>
    match L.cut? front, L.lexes? back with
    | some (before, m), some after =>
      if name = slot ∧ (L.extend m first).isNone = true ∧
          back.head?.all (separators.contains ·) = true then some (before, after)
      else none
    | _, _ => none
  | _ => none

theorem Lexicon.breaks_of_all (h : cs.head?.all (separators.contains ·) = true) : Breaks cs := by
  intro c hc
  rw [hc] at h
  simpa using h

/-- What stands in the slot keeps its tokens. -/
theorem Lexicon.lexes_around {L : Lexicon} {slot : String} {first : Char} {inside : List Char}
    {parts : List Char × List (String × List Char)} {before after : List Token}
    (slots : String → String) (h : L.around? slot first parts = some (before, after))
    (hfirst : (slots slot).toList = first :: inside) (hts : L.Lexes (first :: inside) ts) :
    L.Lexes (Template.assemble slots parts) (before ++ (ts ++ after)) := by
  unfold around? at h
  split at h
  · next front name back =>
    split at h
    · next before' m after' hfront hback =>
      split at h
      · next hcheck =>
        obtain ⟨hname, hcut, hsep⟩ := hcheck
        cases h
        rw [Template.assemble, List.flatMap_singleton, hname, hfirst]
        exact .behind hfront (Option.isNone_iff_eq_none.1 hcut)
          (hts.append (.ofEq hback) (breaks_of_all hsep))
      · cases h
    · cases h
  · cases h

/-- The forms that take a string literal. -/
def quotedForms : List LiteralKind :=
  [.text, .date, .time, .timestamp, .timestampTz, .interval, .json]

theorem DialectKind.isSome_around? (kind : DialectKind) :
    (quotedForms.all fun form =>
      (kind.lexicon.around? "value" '\x27' (kind.literalForm form)).isSome) = true := by
  cases kind <;> decide +kernel

/-- The tokens around the string literal in a form. -/
def DialectKind.around (kind : DialectKind) (form : LiteralKind) : List Token × List Token :=
  (kind.lexicon.around? "value" '\x27' (kind.literalForm form)).getD ([], [])

theorem DialectKind.around?_eq (kind : DialectKind) (h : form ∈ quotedForms) :
    kind.lexicon.around? "value" '\x27' (kind.literalForm form) = some (kind.around form) := by
  obtain ⟨r, hr⟩ := Option.isSome_iff_exists.1 (List.all_eq_true.1 kind.isSome_around? form h)
  rw [around, hr]
  rfl

theorem DialectKind.toList_stringLiteral (kind : DialectKind) (text : String) :
    (kind.conventions.stringLiteral text).toList =
      Conventions.literalChars kind.lexicon.backslash text.toList := by
  rw [kind.stringLiteral_eq, Conventions.quotedText, String.toList_ofList]
  rfl

theorem DialectKind.usualQuotes (kind : DialectKind) : kind.lexicon.UsualQuotes := by
  unfold UsualQuotes
  cases kind <;> decide

/-- A character that stands for itself in every string literal. -/
def isBare (c : Char) : Bool :=
  c != '\x27' && c != '\\'

/-- A text without quotes and backslashes stands in a string literal as it is. -/
theorem literalChars_of_isBare (backslash : Bool) (h : ∀ c ∈ cs, isBare c = true) :
    Conventions.literalChars backslash cs = '\x27' :: (cs ++ ['\x27']) := by
  have hself : ∀ c ∈ cs, Conventions.escapeChar backslash c = [c] := by
    intro c hc
    obtain ⟨hquote, hslash⟩ := Bool.and_eq_true_iff.1 (h c hc)
    rw [Conventions.escapeChar, if_neg (bne_iff_ne.1 hquote),
      if_neg (fun hboth => bne_iff_ne.1 hslash hboth.2)]
  rw [Conventions.literalChars, List.flatMap_congr hself, List.flatMap_singleton']
  rfl

/-- Quotes that belong to a form make a string literal of a text that has none. -/
theorem Lexicon.lexes_enclosed {L : Lexicon} (front back : List Char)
    (haround : (L.around? "" '\x27' (front, [("", back)])).isSome = true)
    (h : ∀ c ∈ cs, isBare c = true) :
    ∃ ts, L.Lexes (front ++ '\x27' :: (cs ++ '\x27' :: back)) ts := by
  obtain ⟨⟨before, after⟩, heq⟩ := Option.isSome_iff_exists.1 haround
  have hchars := literalChars_of_isBare L.backslash h
  have hlexes := lexes_literalChars (L := L) cs
  rw [hchars] at hlexes
  have hform := lexes_around (fun _ => String.ofList ('\x27' :: (cs ++ ['\x27']))) heq
    String.toList_ofList hlexes
  rw [Template.assemble, List.flatMap_singleton, String.toList_ofList, List.cons_append,
    List.append_assoc] at hform
  exact ⟨_, hform⟩

/-- What is not finite is a word, which may have a sign in front. -/
theorem spell_cases (x : Double) :
    x.spell .literal ∈ ["NaN", "inf", "-inf"] ∨ x.isFinite = true := by
  by_cases hfinite : x.isFinite = true
  · exact .inr hfinite
  · left
    have hexponent : (x.exponentField == 2047) = true := by simpa [Double.isFinite] using hfinite
    unfold Double.spell Double.isNaN Double.isInfinite
    rw [hexponent, Bool.true_and, Bool.true_and]
    cases hzero : x.fractionField == 0 with
    | true =>
      rw [bne, hzero, Bool.not_true, if_neg Bool.false_ne_true, if_pos rfl]
      cases x.isNegative <;> decide
    | false =>
      rw [bne, hzero, Bool.not_false, if_pos rfl]
      decide

theorem isBare_of_mem_spell {x : Double} : ∀ c ∈ (x.spell .literal).toList, isBare c = true := by
  rcases spell_cases x with hword | hfinite
  · have hwords : (["NaN", "inf", "-inf"].all fun word => word.toList.all isBare) = true := by
      decide +kernel
    exact List.all_eq_true.1 (List.all_eq_true.1 hwords _ hword)
  · refine forall_mem_of_isNumeral (fun c hc => ?_) ?_ (isNumeral_spell hfinite)
    · rw [isBare, Bool.and_eq_true_iff, bne_iff_ne, bne_iff_ne]
      constructor
      · rintro rfl
        exact absurd hc (by decide)
      · rintro rfl
        exact absurd hc (by decide)
    · rintro c (rfl | rfl | rfl | rfl | rfl) <;> rfl

/-- A double in a literal has tokens of its own. -/
theorem lexes_double (kind : DialectKind) (x : Double) :
    ∃ ts, kind.lexicon.Lexes (x.spell .literal).toList ts := by
  rcases spell_cases x with hword | hfinite
  · have hwords : (["NaN", "inf", "-inf"].all fun word =>
        (kind.lexicon.lexes? word.toList).isSome) = true := by
      cases kind <;> decide +kernel
    obtain ⟨ts, hts⟩ := Option.isSome_iff_exists.1 (List.all_eq_true.1 hwords _ hword)
    exact ⟨ts, .ofEq hts⟩
  · exact ⟨_, lexes_of_isNumeral kind.usualQuotes (isNumeral_spell hfinite)⟩

theorem DialectKind.cut?_comma (kind : DialectKind) :
    kind.lexicon.cut? [',', ' '] = some ([.symbol ','], .between) := by
  cases kind <;> decide +kernel

theorem Lexicon.breaks_comma (cs : List Char) : Breaks ([',', ' '] ++ cs) := by
  rintro c hc
  cases hc
  decide

/-- Two doubles with a comma between them, in parentheses behind a name. -/
theorem lexes_pair (kind : DialectKind) (x y : Double) {front back : List Char}
    {before after : List Token} (hfront : kind.lexicon.cut? front = some (before, .symbol '('))
    (hback : kind.lexicon.lexes? back = some after) (hbreaks : Breaks back) :
    ∃ ts, kind.lexicon.Lexes (front ++ ((x.spell .literal).toList ++ ([',', ' '] ++
      ((y.spell .literal).toList ++ back)))) ts := by
  obtain ⟨xs, hx⟩ := lexes_double kind x
  obtain ⟨ys, hy⟩ := lexes_double kind y
  have hyback := hy.append (.ofEq hback) hbreaks
  have hsecond := Lexes.behindAll kind.cut?_comma (fun _ => rfl) hyback
  exact ⟨_, .behindAll hfront (fun _ => rfl) (hx.append hsecond (breaks_comma _))⟩

/-- An interval of a single unit is a number and a word. -/
theorem singleUnit?_cases (h : Conventions.singleUnit? i = some text) :
    ∃ n : Int, ∃ unit ∈ [" YEAR", " MONTH", " DAY", " SECOND", " MICROSECOND"],
      text = toString n ++ unit := by
  unfold Conventions.singleUnit? at h
  dsimp only at h
  repeat' split at h
  all_goals cases h
  · exact ⟨0, " SECOND", by decide, rfl⟩
  · exact ⟨_, " YEAR", by decide, rfl⟩
  · exact ⟨_, " MONTH", by decide, rfl⟩
  · exact ⟨_, " DAY", by decide, rfl⟩
  · exact ⟨_, " SECOND", by decide, rfl⟩
  · exact ⟨_, " MICROSECOND", by decide, rfl⟩

theorem lexes_singleUnit (kind : DialectKind) (h : Conventions.singleUnit? i = some text) :
    ∃ ts, kind.lexicon.Lexes text.toList ts := by
  obtain ⟨n, unit, hunit, rfl⟩ := singleUnit?_cases h
  have hunits : ([" YEAR", " MONTH", " DAY", " SECOND", " MICROSECOND"].all fun unit =>
      (kind.lexicon.lexes? unit.toList).isSome && unit.toList.head? == some ' ') = true := by
    cases kind <;> decide +kernel
  obtain ⟨hlexes, hblank⟩ := Bool.and_eq_true_iff.1 (List.all_eq_true.1 hunits unit hunit)
  obtain ⟨ts, hts⟩ := Option.isSome_iff_exists.1 hlexes
  have hbreaks : Breaks unit.toList := by
    intro c hc
    rw [beq_iff_eq.1 hblank] at hc
    cases hc
    decide
  rw [String.toList_append]
  exact ⟨_, (lexes_of_isNumeral kind.usualQuotes (isNumeral_int n)).append (.ofEq hts) hbreaks⟩

/-- Whether a value is no array and has no text that a user could choose freely. -/
def Value.isFixed : Value → Bool
  | .decimal _ => false
  | .text _ => false
  | .json _ => false
  | .array _ => false
  | .object _ => false
  | _ => true

section Literals

variable (hσ : σ.dialect = kind.dialect)
include hσ

/-- A form around a string literal has one token for it. -/
theorem lexes_quotedLiteral (hform : form ∈ quotedForms) (h : σ.quotedLiteral form text = .ok f) :
    kind.lexicon.Lexes f.text.toList
      ((kind.around form).1 ++ ([.string text.toList] ++ (kind.around form).2)) := by
  obtain ⟨keyword, htext⟩ := Setting.toList_writeLiteral hσ rfl h
  rw [htext]
  refine lexes_around _ (kind.around?_eq hform) ?_ (lexes_literalChars text.toList)
  rw [hσ]
  exact kind.toList_stringLiteral text

/-! ## 3. Constants without free text -/

theorem lexes_fixed (hform : form ∈ [.null, .true, .false]) (h : σ.writeLiteral form [] = .ok f) :
    ∃ ts, kind.lexicon.Lexes f.text.toList ts := by
  have hfixed : ([LiteralKind.null, .true, .false].all fun form =>
      (kind.literalForm form).2.isEmpty && (kind.lexicon.lexes? (kind.literalForm form).1).isSome) =
        true := by
    cases kind <;> decide +kernel
  obtain ⟨hslots, hlexes⟩ := Bool.and_eq_true_iff.1 (List.all_eq_true.1 hfixed form hform)
  obtain ⟨ts, hts⟩ := Option.isSome_iff_exists.1 hlexes
  obtain ⟨keyword, htext⟩ := Setting.toList_writeLiteral hσ rfl h
  rw [htext, Template.assemble, List.isEmpty_iff.1 hslots, List.flatMap_nil, List.append_nil]
  exact ⟨ts, .ofEq hts⟩

theorem lexes_bytes {bytes : List UInt8} (h : σ.literal (.bytes bytes) = .ok f) :
    ∃ ts, kind.lexicon.Lexes f.text.toList ts := by
  rw [Setting.literal] at h
  obtain ⟨keyword, htext⟩ := Setting.toList_writeLiteral hσ rfl h
  have hslot : (Template.slotText [("hex", String.ofList (Text.hexEncode bytes))] keyword
      "hex").toList = Text.hexEncode bytes := String.toList_ofList
  have hbare : ∀ c ∈ Text.hexEncode bytes, isBare c = true :=
    Text.forall_mem_hexEncode (by decide) bytes
  -- The forms differ in what stands in front of the digits and behind them.
  have hquoted : ∀ front back, kind.literalForm .bytes =
      (front ++ ['\x27'], [("hex", '\x27' :: back)]) →
      (kind.lexicon.around? "" '\x27' (front, [("", back)])).isSome = true →
      ∃ ts, kind.lexicon.Lexes f.text.toList ts := by
    intro front back hform haround
    rw [htext, hform, Template.assemble, List.flatMap_singleton, hslot, List.append_assoc]
    exact lexes_enclosed front back haround hbare
  cases kind with
  | postgres =>
    exact hquoted "decode(".toList ", \x27hex\x27)".toList (by decide +kernel) (by decide +kernel)
  | generic | mySql | sqLite => exact hquoted "X".toList [] (by decide +kernel) (by decide +kernel)
  | msSql =>
    have hform : DialectKind.msSql.literalForm .bytes = (['0', 'x'], [("hex", [])]) := by
      decide +kernel
    rw [htext, hform, Template.assemble, List.flatMap_singleton, hslot, List.append_nil]
    exact ⟨_, lexes_byteString DialectKind.msSql.usualQuotes bytes⟩

theorem lexes_point {p : Point} (h : σ.literal (.point p) = .ok f) :
    ∃ ts, kind.lexicon.Lexes f.text.toList ts := by
  rw [Setting.literal] at h
  obtain ⟨keyword, htext⟩ := Setting.toList_writeLiteral hσ rfl h
  have hx : Template.slotText [("x", p.x.spell .literal), ("y", p.y.spell .literal)] keyword "x" =
      p.x.spell .literal := rfl
  have hy : Template.slotText [("x", p.x.spell .literal), ("y", p.y.spell .literal)] keyword "y" =
      p.y.spell .literal := rfl
  have hpair : ∀ front back before after,
      kind.literalForm .point = (front, [("x", [',', ' ']), ("y", back)]) →
      kind.lexicon.cut? front = some (before, .symbol '(') →
      kind.lexicon.lexes? back = some after → back.head?.all (separators.contains ·) = true →
      ∃ ts, kind.lexicon.Lexes f.text.toList ts := by
    intro front back before after hform hfront hback hsep
    rw [htext, hform, Template.assemble, List.flatMap_cons, List.flatMap_singleton, hx, hy,
      List.append_assoc]
    exact lexes_pair kind p.x p.y hfront hback (breaks_of_all hsep)
  cases kind with
  | generic | sqLite =>
    exact hpair "POINT(".toList [')'] [.word "POINT".toList, .symbol '('] [.symbol ')']
      (by decide +kernel) (by decide +kernel) (by decide +kernel) (by decide)
  | postgres =>
    exact hpair "point(".toList [')'] [.word "point".toList, .symbol '('] [.symbol ')']
      (by decide +kernel) (by decide +kernel) (by decide +kernel) (by decide)
  | msSql =>
    exact hpair "geometry::Point(".toList ", 0)".toList
      [.word "geometry".toList, .symbol ':', .symbol ':', .word "Point".toList, .symbol '(']
      [.symbol ',', .number ['0'], .symbol ')']
      (by decide +kernel) (by decide +kernel) (by decide +kernel) (by decide)
  | mySql =>
    -- The quotes belong to the form, and the numbers have none.
    have hform : DialectKind.mySql.literalForm .point =
        ("ST_GeomFromText(\x27POINT(".toList, [("x", [' ']), ("y", ")\x27)".toList)]) := by
      decide +kernel
    have hbare : ∀ c ∈ "POINT(".toList ++ ((p.x.spell .literal).toList ++
        (' ' :: ((p.y.spell .literal).toList ++ [')']))), isBare c = true := by
      simp only [List.forall_mem_append, List.forall_mem_cons]
      exact ⟨List.all_eq_true.1 (by decide), isBare_of_mem_spell, rfl, isBare_of_mem_spell, rfl,
        List.forall_mem_nil _⟩
    obtain ⟨ts, hts⟩ := lexes_enclosed (L := DialectKind.mySql.lexicon)
      "ST_GeomFromText(".toList [')'] (by decide +kernel) hbare
    refine ⟨ts, ?_⟩
    rw [htext, hform, Template.assemble, List.flatMap_cons, List.flatMap_singleton, hx, hy]
    simpa using hts

/-- Intervals are string literals, or a number and a unit. -/
theorem lexes_interval (h : σ.literal (.interval i) = .ok f) :
    ∃ ts, kind.lexicon.Lexes f.text.toList ts := by
  rw [Setting.literal] at h
  obtain ⟨text, hvalue, hwrite⟩ := Except.bind_eq_ok_iff.1 h
  rw [hσ] at hvalue
  by_cases hkind : kind = .mySql
  · subst hkind
    obtain ⟨keyword, htext⟩ := Setting.toList_writeLiteral hσ rfl hwrite
    have hform : DialectKind.mySql.literalForm .interval =
        ("INTERVAL ".toList, [("value", [])]) := by
      decide +kernel
    have hfront : DialectKind.mySql.lexicon.cut? "INTERVAL ".toList =
        some ([.word "INTERVAL".toList], .between) := by
      decide +kernel
    have hunit : Conventions.singleUnit? i = some text := by
      change Conventions.singleUnitValue i = .ok text at hvalue
      unfold Conventions.singleUnitValue at hvalue
      split at hvalue
      · cases hvalue
        assumption
      · cases hvalue
    obtain ⟨ts, hts⟩ := lexes_singleUnit .mySql hunit
    rw [htext, hform, Template.assemble, List.flatMap_singleton, List.append_nil]
    exact ⟨_, .behindAll hfront (fun _ => rfl) hts⟩
  · have hquoted : kind.conventions.intervalValue i =
        .ok (kind.conventions.stringLiteral i.render) := by
      cases kind with
      | mySql => exact absurd rfl hkind
      | _ => rfl
    have heq : text = σ.dialect.conventions.stringLiteral i.render := by
      rw [hσ]
      exact (Except.ok.inj (hquoted.symm.trans hvalue)).symm
    rw [heq] at hwrite
    exact ⟨_, lexes_quotedLiteral hσ (by decide) hwrite⟩

/-- **A constant without free text has tokens of its own.** -/
theorem lexes_literal_of_isFixed {v : Value} (hv : v.isFixed = true) (h : σ.literal v = .ok f) :
    ∃ ts, kind.lexicon.Lexes f.text.toList ts := by
  have hnumber : ∀ text, isNumeral text.toList = true →
      ∃ ts, kind.lexicon.Lexes (Fragment.number text).text.toList ts := by
    intro text hnumeral
    rw [Pairing.text_number]
    exact ⟨_, lexes_of_isNumeral kind.usualQuotes hnumeral⟩
  have hquoted : ∀ form ∈ quotedForms, ∀ text, σ.quotedLiteral form text = .ok f →
      ∃ ts, kind.lexicon.Lexes f.text.toList ts :=
    fun form hform text hf => ⟨_, lexes_quotedLiteral hσ hform hf⟩
  cases v with
  | null => exact lexes_fixed hσ (by decide) h
  | bool b =>
    cases b <;> exact lexes_fixed hσ (by decide) h
  | int n =>
    cases h
    exact hnumber (toString n.toInt) (isNumeral_int n.toInt)
  | uint n =>
    cases h
    exact hnumber (toString n.toNat) (isNumeral_nat n.toNat)
  | float x =>
    rw [Setting.literal] at h
    split at h
    · next hfinite =>
      cases h
      exact hnumber (x.spell .literal) (isNumeral_spell hfinite)
    · cases h
  | bytes bytes => exact lexes_bytes hσ h
  | date d => exact hquoted .date (by decide) _ h
  | time t => exact hquoted .time (by decide) _ h
  | timestamp t => exact hquoted .timestamp (by decide) _ h
  | timestampTz t => exact hquoted .timestampTz (by decide) _ h
  | interval i => exact lexes_interval hσ h
  | point p => exact lexes_point hσ h
  | decimal _ | text _ | json _ | array _ | object _ => cases hv

end Literals

/-! ## 4. Free text -/

mutual

/-- A value with one text in place of all free text. -/
def Value.outline : Value → Value
  | .decimal _ => .decimal ""
  | .text _ => .text ""
  | .json _ => .json .null
  | .object _ => .object []
  | .array items => .array (outlines items)
  | v => v

def Value.outlines : List Value → List Value
  | [] => []
  | item :: rest => outline item :: outlines rest

end

mutual

/-- The free text of a value, by the tokens that it should be. -/
def Value.payloads : Value → List Token
  | .decimal digits => [.number digits.toList]
  | .text s => [.string s.toList]
  | .json j => [.string j.render.toList]
  | .object fields => [.string (Value.object fields).toJson.render.toList]
  | .array items => payloadsAll items
  | _ => []

def Value.payloadsAll : List Value → List Token
  | [] => []
  | item :: rest => payloads item ++ payloadsAll rest

end

def Value.isArray : Value → Bool
  | .array _ => true
  | _ => false

/-- Puts tokens into the gaps of a frame, all of them and in order. -/
def Lexicon.fill : List (Option Token) → List Token → Option (List Token)
  | [], [] => some []
  | [], _ :: _ => none
  | some t :: frame, ps => (fill frame ps).map (t :: ·)
  | none :: frame, p :: ps => (fill frame ps).map (p :: ·)
  | none :: _, [] => none

theorem Lexicon.fill_append {frame frame' : List (Option Token)} {ps ps' ts' : List Token}
    (h : fill frame ps = some ts) (h' : fill frame' ps' = some ts') :
    fill (frame ++ frame') (ps ++ ps') = some (ts ++ ts') := by
  fun_induction fill frame ps generalizing ts with
  | case1 =>
    cases h
    exact h'
  | case2 => cases h
  | case3 t frame ps ih =>
    obtain ⟨others, hothers, rfl⟩ := Option.map_eq_some_iff.1 h
    rw [List.cons_append, fill, ih hothers]
    rfl
  | case4 frame p ps ih =>
    obtain ⟨others, hothers, rfl⟩ := Option.map_eq_some_iff.1 h
    rw [List.cons_append, List.cons_append, fill, ih hothers]
    rfl
  | case5 => cases h

theorem Lexicon.fill_fixed (ts : List Token) : fill (ts.map some) [] = some ts := by
  induction ts with
  | nil => rfl
  | cons t ts ih =>
    rw [List.map_cons, fill, ih]
    rfl

theorem Lexicon.fill_gap (t : Token) : fill [none] [t] = some [t] := rfl

theorem Lexicon.subset_of_fill {frame : List (Option Token)} {ps : List Token}
    (h : fill frame ps = some ts) : ps ⊆ ts := by
  fun_induction fill frame ps generalizing ts with
  | case1 => exact List.nil_subset _
  | case2 => cases h
  | case3 t frame ps ih =>
    obtain ⟨others, hothers, rfl⟩ := Option.map_eq_some_iff.1 h
    exact List.subset_cons_of_subset t (ih hothers)
  | case4 frame p ps ih =>
    obtain ⟨others, hothers, rfl⟩ := Option.map_eq_some_iff.1 h
    exact List.cons_subset_cons p (ih hothers)
  | case5 => cases h

/-- The tokens of a form around a string literal, with a gap for it. -/
def DialectKind.gap (kind : DialectKind) (form : LiteralKind) : List (Option Token) :=
  (kind.around form).1.map some ++ ([none] ++ (kind.around form).2.map some)

mutual

/-- The tokens of a constant, with a gap for each free text. -/
def DialectKind.frame (kind : DialectKind) (σ : Setting) : Value → List (Option Token)
  | .decimal _ => [none]
  | .text _ => kind.gap .text
  | .json _ => kind.gap .json
  | .object _ => kind.gap .json
  | .array items =>
    [some (.word "ARRAY".toList), some (.symbol '[')] ++
      (frames kind σ items ++ [some (.symbol ']')])
  | v =>
    match σ.literal v with
    | .ok f => ((kind.lexicon.scan f.text.toList).getD []).map some
    | .error _ => []

def DialectKind.frames (kind : DialectKind) (σ : Setting) : List Value → List (Option Token)
  | [] => []
  | [item] => frame kind σ item
  | item :: next :: rest =>
    frame kind σ item ++ ([some (.symbol ',')] ++ frames kind σ (next :: rest))

end

mutual

theorem DialectKind.frame_outline (kind : DialectKind) (σ : Setting) :
    ∀ v : Value, kind.frame σ v.outline = kind.frame σ v
  | .array items => by
    rw [Value.outline, frame, frame, frames_outlines kind σ items]
  | .null | .bool _ | .int _ | .uint _ | .float _ | .decimal _ | .text _ | .bytes _ | .date _
  | .time _ | .timestamp _ | .timestampTz _ | .interval _ | .point _ | .json _ | .object _ => rfl

theorem DialectKind.frames_outlines (kind : DialectKind) (σ : Setting) :
    ∀ items : List Value, kind.frames σ (Value.outlines items) = kind.frames σ items
  | [] => rfl
  | [item] => kind.frame_outline σ item
  | item :: next :: rest => by
    have hrest : kind.frames σ (next.outline :: Value.outlines rest) =
        kind.frames σ (next :: rest) := frames_outlines kind σ (next :: rest)
    rw [Value.outlines, Value.outlines, frames, frames, kind.frame_outline σ item, hrest]

end

/-! ## 5. Constants -/

/-- A text has the tokens of a frame, with free text in the gaps. -/
def DialectKind.Fits (kind : DialectKind) (frame : List (Option Token)) (payloads : List Token)
    (text : List Char) : Prop :=
  ∃ ts, fill frame payloads = some ts ∧ kind.lexicon.Lexes text ts

section Constants

variable (hσ : σ.dialect = kind.dialect)
include hσ

theorem fits_quoted (hform : form ∈ quotedForms) (h : σ.quotedLiteral form text = .ok f) :
    kind.Fits (kind.gap form) [.string text.toList] f.text.toList :=
  ⟨_, fill_append (fill_fixed _) (fill_append (fill_gap (.string text.toList)) (fill_fixed _)),
    lexes_quotedLiteral hσ hform h⟩

/-- The frame of a constant without free text is made of its tokens. -/
theorem fits_fixed {v : Value} (hv : v.isFixed = true) (h : σ.literal v = .ok f) :
    kind.Fits (kind.frame σ v) v.payloads f.text.toList := by
  obtain ⟨ts, hts⟩ := lexes_literal_of_isFixed hσ hv h
  have hframe : kind.frame σ v = (match σ.literal v with
      | .ok f => ((kind.lexicon.scan f.text.toList).getD []).map some
      | .error _ => []) ∧ v.payloads = [] := by
    cases v with
    | decimal _ | text _ | json _ | array _ | object _ => cases hv
    | _ => exact ⟨rfl, rfl⟩
  refine ⟨ts, ?_, hts⟩
  rw [hframe.1, hframe.2, h]
  dsimp only
  rw [hts.scan_eq]
  exact fill_fixed ts

omit hσ in
theorem Setting.literals_cons {item : Value} {rest : List Value} {texts : List String}
    (h : σ.literals (item :: rest) = .ok texts) :
    ∃ f others, σ.literal item = .ok f ∧ σ.literals rest = .ok others ∧
      texts = f.text :: others := by
  rw [Setting.literals] at h
  obtain ⟨f, hf, h⟩ := Except.bind_eq_ok_iff.1 h
  obtain ⟨others, hothers, h⟩ := Except.bind_eq_ok_iff.1 h
  cases h
  exact ⟨f, others, hf, hothers, rfl⟩

/-- The brackets of an array are symbols where they do not quote identifiers. -/
theorem fits_array (hkind : kind ≠ .msSql) {elements : String} {frame : List (Option Token)}
    {payloads : List Token}
    (h : σ.writeLiteral .array [("elements", elements)] = .ok f)
    (hfits : kind.Fits frame payloads elements.toList) :
    kind.Fits ([some (.word "ARRAY".toList), some (.symbol '[')] ++ (frame ++ [some (.symbol ']')]))
      payloads f.text.toList := by
  obtain ⟨ts, hfill, hlexes⟩ := hfits
  have hform : kind.literalForm .array = ("ARRAY[".toList, [("elements", [']'])]) := by
    cases kind <;> decide +kernel
  have hfront : kind.lexicon.cut? "ARRAY[".toList =
      some ([.word "ARRAY".toList, .symbol '['], .symbol '[') := by
    cases kind with
    | msSql => exact absurd rfl hkind
    | _ => decide +kernel
  have hback : kind.lexicon.lexes? [']'] = some [.symbol ']'] := by
    cases kind <;> decide +kernel
  obtain ⟨keyword, htext⟩ := Setting.toList_writeLiteral hσ rfl h
  refine ⟨[.word "ARRAY".toList, .symbol '['] ++ (ts ++ [.symbol ']']), ?_, ?_⟩
  · have hinner := fill_append hfill (fill_fixed [.symbol ']'])
    rw [List.append_nil] at hinner
    exact fill_append (fill_fixed [.word "ARRAY".toList, .symbol '[']) hinner
  · rw [htext, hform, Template.assemble, List.flatMap_singleton]
    exact .behindAll hfront (fun _ => rfl) (hlexes.append (.ofEq hback) (breaks_of_all (by decide)))

end Constants

mutual

/-- A constant whose decimals are numbers has the tokens of its frame. -/
theorem fits_literal (hσ : σ.dialect = kind.dialect) :
    ∀ (v : Value) (f : Fragment), (kind = .msSql → v.isArray = false) → σ.literal v = .ok f →
    (∀ digits, Token.number digits ∈ v.payloads → isNumeral digits = true) →
    kind.Fits (kind.frame σ v) v.payloads f.text.toList
  | .decimal digits, f, _, h, hnumeral => by
    cases h
    refine ⟨[.number digits.toList], fill_gap _, ?_⟩
    rw [Pairing.text_number]
    exact lexes_of_isNumeral kind.usualQuotes (hnumeral _ List.mem_cons_self)
  | .text s, f, _, h, _ => fits_quoted hσ (by decide) h
  | .json j, f, _, h, _ => fits_quoted hσ (by decide) h
  | .object fields, f, _, h, _ => fits_quoted hσ (by decide) h
  | .array items, f, hkind, h, hnumeral => by
    have hkind : kind ≠ .msSql := fun hms => Bool.false_ne_true (hkind hms).symm
    rw [Setting.literal] at h
    obtain ⟨texts, htexts, hwrite⟩ := Except.bind_eq_ok_iff.1 h
    rw [DialectKind.frame]
    exact fits_array hσ hkind hwrite (fits_literals hσ hkind items texts htexts hnumeral)
  | .null, f, _, h, _ | .bool _, f, _, h, _ | .int _, f, _, h, _ | .uint _, f, _, h, _
  | .float _, f, _, h, _ | .bytes _, f, _, h, _ | .date _, f, _, h, _ | .time _, f, _, h, _
  | .timestamp _, f, _, h, _ | .timestampTz _, f, _, h, _ | .interval _, f, _, h, _
  | .point _, f, _, h, _ => fits_fixed hσ rfl h

theorem fits_literals (hσ : σ.dialect = kind.dialect) (hkind : kind ≠ .msSql) :
    ∀ (items : List Value) (texts : List String),
    σ.literals items = .ok texts →
    (∀ digits, Token.number digits ∈ Value.payloadsAll items → isNumeral digits = true) →
    kind.Fits (kind.frames σ items) (Value.payloadsAll items) (", ".intercalate texts).toList
  | [], texts, h, _ => by
    cases h
    exact ⟨[], rfl, .nil⟩
  | [item], texts, h, hnumeral => by
    obtain ⟨f, others, hf, hothers, rfl⟩ := Setting.literals_cons h
    cases hothers
    rw [Value.payloadsAll, Value.payloadsAll, List.append_nil] at hnumeral ⊢
    rw [String.intercalate_singleton]
    exact fits_literal hσ item f (fun hms => absurd hms hkind) hf hnumeral
  | item :: next :: rest, texts, h, hnumeral => by
    obtain ⟨f, others, hf, hothers, rfl⟩ := Setting.literals_cons h
    rw [Value.payloadsAll] at hnumeral ⊢
    obtain ⟨ts, hfill, hlexes⟩ := fits_literal hσ item f (fun hms => absurd hms hkind) hf
      fun digits hd => hnumeral digits (List.mem_append_left _ hd)
    obtain ⟨us, hfills, hlexeses⟩ := fits_literals hσ hkind (next :: rest) others hothers
      fun digits hd => hnumeral digits (List.mem_append_right _ hd)
    obtain ⟨g, more, -, -, rfl⟩ := Setting.literals_cons hothers
    refine ⟨ts ++ ([.symbol ','] ++ us), ?_, ?_⟩
    · have hinner := fill_append (fill_fixed [.symbol ',']) hfills
      rw [List.nil_append] at hinner
      exact fill_append hfill hinner
    · rw [String.intercalate_cons_cons, String.toList_append, String.toList_append,
        List.append_assoc]
      exact hlexes.append (.behindAll kind.cut?_comma (fun _ => rfl) hlexeses) (breaks_comma _)

end

/-- Where brackets quote identifiers, those of an array do: what stands in them up to the first
    closing bracket that is not doubled is a name, and no constant. -/
theorem scan_array (hσ : σ.dialect = DialectKind.msSql.dialect) {items : List Value}
    (h : σ.literal (.array items) = .ok f) :
    ∃ texts, σ.literals items = .ok texts ∧ ∀ rest,
      DialectKind.msSql.lexicon.scan (f.text.toList ++ rest) =
        (readDelimited ']' false ((", ".intercalate texts).toList ++ ']' :: rest)).bind fun r =>
          (DialectKind.msSql.lexicon.scan r.2).map ([.word "ARRAY".toList, .ident r.1] ++ ·) := by
  rw [Setting.literal] at h
  obtain ⟨texts, htexts, hwrite⟩ := Except.bind_eq_ok_iff.1 h
  obtain ⟨keyword, htext⟩ := Setting.toList_writeLiteral hσ rfl hwrite
  have hform : DialectKind.msSql.literalForm .array = ("ARRAY[".toList, [("elements", [']'])]) := by
    decide +kernel
  have hfront : DialectKind.msSql.lexicon.run .between "ARRAY[".toList =
      some ([.word "ARRAY".toList], .ident []) := by
    decide +kernel
  refine ⟨texts, htexts, fun rest => ?_⟩
  have hslot : Template.slotText [("elements", ", ".intercalate texts)] keyword "elements" =
      ", ".intercalate texts := rfl
  rw [htext, hform, Template.assemble, List.flatMap_singleton, hslot, List.append_assoc,
    List.append_assoc]
  exact scan_ident hfront _

/-- **A constant in place stays one literal if and only if its decimals are numbers.**

    * All constants that differ in their free text only have the tokens of one frame, in which each
      free text stands in its gap as one token, whatever follows.
    * Where brackets quote identifiers, this is not so of arrays: whatever an array holds, it is
      scanned as a word and an identifier, which ends with the first closing bracket that is not
      doubled, and what stands behind that bracket is scanned as other text. -/
theorem Setting.literal_keeps_to_frame_iff (kind : DialectKind) (σ : Setting)
    (hσ : σ.dialect = kind.dialect) (outline : Value) :
    (∃ frame : List (Option Token), ∀ (v : Value) (f : Fragment), v.outline = outline →
      (kind = .msSql → v.isArray = false) → σ.literal v = .ok f →
      ((∃ ts, fill frame v.payloads = some ts ∧ ∀ rest, Breaks rest →
          kind.lexicon.scan (f.text.toList ++ rest) = (kind.lexicon.scan rest).map (ts ++ ·)) ↔
        ∀ digits, Token.number digits ∈ v.payloads → isNumeral digits = true)) ∧
    (kind = .msSql → ∀ (items : List Value) (f : Fragment), σ.literal (.array items) = .ok f →
      ∃ texts, σ.literals items = .ok texts ∧ ∀ rest,
        kind.lexicon.scan (f.text.toList ++ rest) =
          (readDelimited ']' false ((", ".intercalate texts).toList ++ ']' :: rest)).bind fun r =>
            (kind.lexicon.scan r.2).map ([.word "ARRAY".toList, .ident r.1] ++ ·)) := by
  constructor
  · refine ⟨kind.frame σ outline, ?_⟩
    rintro v f rfl hkind hf
    rw [kind.frame_outline σ v]
    constructor
    · rintro ⟨ts, hfill, hscan⟩ digits hdigits
      have htext := hscan [] fun _ hc => absurd hc (Option.not_mem_none _)
      have hnil : kind.lexicon.scan [] = some [] := rfl
      rw [List.append_nil, hnil, Option.map_some, List.append_nil] at htext
      exact isNumeral_of_mem_scan htext (subset_of_fill hfill hdigits)
    · intro hnumeral
      obtain ⟨ts, hfill, hlexes⟩ := fits_literal hσ v f hkind hf hnumeral
      exact ⟨ts, hfill, fun rest hrest => hlexes.scan_append hrest⟩
  · rintro rfl items f hf
    exact scan_array hσ hf

/-- Texts with a quote and a comment in them, and a negative decimal. -/
def mixedConstant : Value :=
  .array [.text "it\x27s; --", .decimal "-1.50", .json (.text "\x27")]

def mixedText : String :=
  "ARRAY[\x27it\x27\x27s; --\x27, -1.50, \x27\"\x27\x27\"\x27::json]"

/-- An array of one text with brackets in it. -/
def bracketedConstant : Value :=
  .array [.text "a] OR [b"]

theorem Setting.literal_keeps_to_frame_here :
    ((Setting.ofOptions .postgres {}).literal mixedConstant = .ok (.atom mixedText) ∧
      ∃ frame ts, fill frame mixedConstant.payloads = some ts ∧
        DialectKind.postgres.lexicon.scan (mixedText.toList ++ ", 2".toList) =
          (DialectKind.postgres.lexicon.scan ", 2".toList).map (ts ++ ·)) ∧
    ((Setting.ofOptions .msSql { strict := false }).literal bracketedConstant =
        .ok (.atom "ARRAY[N\x27a] OR [b\x27]") ∧
      DialectKind.msSql.lexicon.scan "ARRAY[N\x27a] OR [b\x27]".toList =
        some [.word "ARRAY".toList, .ident "N\x27a".toList, .word "OR".toList,
          .ident "b\x27".toList]) := by
  constructor
  · have hliteral : (Setting.ofOptions .postgres {}).literal mixedConstant =
        .ok (.atom mixedText) := rfl
    obtain ⟨⟨frame, hframe⟩, -⟩ := literal_keeps_to_frame_iff .postgres
      (Setting.ofOptions .postgres {}) rfl mixedConstant.outline
    have hnumeral : ∀ digits, .number digits ∈ mixedConstant.payloads →
        isNumeral digits = true := by
      intro digits hdigits
      simp only [mixedConstant, Value.payloads, Value.payloadsAll, List.cons_append,
        List.nil_append, List.mem_cons, reduceCtorEq, List.not_mem_nil, or_false, false_or,
        Token.number.injEq] at hdigits
      subst hdigits
      decide
    obtain ⟨ts, hfill, hscan⟩ := (hframe mixedConstant (.atom mixedText) rfl
      (fun h => absurd h (by decide)) hliteral).2 hnumeral
    exact ⟨hliteral, frame, ts, hfill, hscan ", 2".toList (breaks_of_all (by decide))⟩
  · have hliteral : (Setting.ofOptions .msSql { strict := false }).literal bracketedConstant =
        .ok (.atom "ARRAY[N\x27a] OR [b\x27]") := rfl
    obtain ⟨texts, htexts, hscan⟩ := (literal_keeps_to_frame_iff .msSql
      (Setting.ofOptions .msSql { strict := false }) rfl bracketedConstant).2 rfl _ _ hliteral
    cases htexts
    refine ⟨hliteral, ?_⟩
    rw [← List.append_nil "ARRAY[N\x27a] OR [b\x27]".toList]
    exact (hscan []).trans (by decide +kernel)

-- A decimal that is no number adds what tokens it likes.
example : (DialectKind.postgres.lexicon.scan "1; DROP TABLE users".toList).map List.length =
    some 5 := by
  decide +kernel

end QueryPlan
