import Mathlib.Data.List.Chain
import Mathlib.Data.List.TakeWhile
import QueryPlan.Format.Template
import QueryPlan.Proofs.Calendar.TextColumns
import QueryPlan.Proofs.Number.Numerals

/-!
# Templates read back from their source

A list of segments is written as a source by doubling the braces of its texts and putting its slots
into braces (`Template.print`). Many sources are read as the same segments, since blanks around a
strength and a brace that opens no slot are allowed; the printed one is the one without them.

What is read is always in normal form (`Template.Normal`): no text is empty, no two texts are
neighbours, and slots have names. Segments in normal form are read back from what is printed for
them, so that the normal forms are exactly what reading can give (`Template.parse_inverts_print`).
-/

namespace QueryPlan

variable {segments : List Segment} {c : Char}

open Numeral

/-! ## 1. Printing and normal forms -/

namespace Segment

def isText : Segment → Bool
  | text _ => true
  | slot _ _ => false

/-- The names of slots: ASCII letters, digits and underscores, at least one of them. -/
def IsName (name : String) : Prop :=
  name ≠ "" ∧ ∀ c ∈ name.toList, c.isAlphanum = true ∨ c = '_'

def WellFormed : Segment → Prop
  | text t => t ≠ ""
  | slot name _ => IsName name

end Segment

namespace Template

/-- A text with every brace doubled. -/
def escape (cs : List Char) : List Char :=
  cs.flatMap fun c => if c = '\x7b' ∨ c = '\x7d' then [c, c] else [c]

/-- What stands between the braces of a slot. -/
def slotBody (name : String) : Option Strength → List Char
  | none => name.toList
  | some strength => name.toList ++ ':' :: (toString strength.toInt).toList

def segmentSource : Segment → List Char
  | .text t => escape t.toList
  | .slot name strength => '\x7b' :: slotBody name strength ++ ['\x7d']

/-- The source of a list of segments. -/
def print (segments : List Segment) : String :=
  String.ofList (segments.flatMap segmentSource)

/-- Segments that cannot be merged. -/
structure Normal (segments : List Segment) : Prop where
  each : ∀ s ∈ segments, s.WellFormed
  apart : segments.IsChain fun s t => s.isText = false ∨ t.isText = false

namespace Normal

variable {s : Segment} {segments : List Segment}

theorem nil : Normal [] :=
  ⟨fun _ hs => (List.not_mem_nil hs).elim, .nil⟩

theorem cons (hs : s.WellFormed) (h : Normal segments)
    (hfront : s.isText = false ∨ ∀ t ∈ segments.head?, t.isText = false) :
    Normal (s :: segments) := by
  refine ⟨List.forall_mem_cons.2 ⟨hs, h.each⟩, h.apart.cons fun t ht => ?_⟩
  exact hfront.imp_right fun hall => hall t ht

theorem tail (h : Normal (s :: segments)) : Normal segments :=
  ⟨fun t ht => h.each t (List.mem_cons_of_mem s ht), h.apart.tail⟩

end Normal

/-! ## 2. Slots -/

variable {name : String} {cs rest text : List Char}

theorem isNameChar_iff : isNameChar c = true ↔ c.isAlphanum = true ∨ c = '_' := by
  simp [isNameChar]

/-- A character that no name has ends the name. -/
theorem not_mem_name (hname : Segment.IsName name) (hc : isNameChar c = false) :
    c ∉ name.toList := by
  intro hmem
  rw [isNameChar_iff.2 (hname.2 c hmem)] at hc
  cases hc

theorem strength?_toString (strength : Strength) :
    strength? (toString strength.toInt).toList = some strength := by
  have hblank : ∀ c ∈ (toString strength.toInt).toList, Text.isBlank c = false := by
    intro c hc
    rcases mem_toString hc with rfl | hdigit
    · rfl
    · exact Numeral.isBlank_of_isDigit hdigit
  have hleast : minInt32 ≤ strength.toInt := strength.le_toInt
  have hgreatest : strength.toInt ≤ maxInt32 := Int.le_of_lt_add_one strength.toInt_lt
  rw [strength?, Text.trim_of_noBlank hblank, integerIn?, integer?_toString]
  simp [hleast, hgreatest]

/-- What is printed between braces is read as the slot. -/
theorem slot?_slotBody (hname : Segment.IsName name) (strength : Option Strength) :
    slot? (slotBody name strength) = some (.slot name strength) := by
  have hne : name.toList.isEmpty = false := by simpa using hname.1
  have hall : name.toList.all isNameChar = true :=
    List.all_eq_true.2 fun c hc => isNameChar_iff.2 (hname.2 c hc)
  have hcolon : ∀ c ∈ name.toList, (c != ':') = true := by
    intro c hc
    refine bne_iff_ne.2 ?_
    rintro rfl
    exact not_mem_name hname rfl hc
  cases strength with
  | none =>
    have htake : name.toList.takeWhile (· != ':') = name.toList :=
      List.takeWhile_eq_self_iff.2 hcolon
    have hdrop : name.toList.dropWhile (· != ':') = [] := List.dropWhile_eq_nil_iff.2 hcolon
    rw [slotBody, slot?, htake, hdrop]
    simp [hne, hall]
  | some strength =>
    have hread := strength?_toString strength
    generalize hdigits : (toString strength.toInt).toList = digits at hread
    have htake : (name.toList ++ ':' :: digits).takeWhile (· != ':') = name.toList := by
      rw [List.takeWhile_append_of_pos hcolon, List.takeWhile_cons_of_neg (by decide),
        List.append_nil]
    have hdrop : (name.toList ++ ':' :: digits).dropWhile (· != ':') = ':' :: digits := by
      rw [List.dropWhile_append_of_pos hcolon, List.dropWhile_cons_of_neg (by decide)]
    rw [slotBody, hdigits, slot?, htake, hdrop]
    simp [hne, hall, hread]

theorem not_mem_slotBody (hname : Segment.IsName name) (strength : Option Strength) :
    '\x7d' ∉ slotBody name strength := by
  have hbrace : '\x7d' ∉ name.toList := not_mem_name hname rfl
  cases strength with
  | none => exact hbrace
  | some strength =>
    have hdigits : '\x7d' ∉ (toString strength.toInt).toList := not_mem_toString (by decide) rfl
    rw [slotBody, List.mem_append, List.mem_cons]
    exact not_or.2 ⟨hbrace, not_or.2 ⟨by decide, hdigits⟩⟩

/-- The slot is read up to its closing brace, whatever follows. -/
theorem slotAt?_slotBody (hname : Segment.IsName name) (strength : Option Strength) :
    slotAt? (slotBody name strength ++ '\x7d' :: rest) =
      some (.slot name strength, (slotBody name strength).length + 1) := by
  have hbrace : ∀ c ∈ slotBody name strength, (c != '\x7d') = true := by
    intro c hc
    refine bne_iff_ne.2 ?_
    rintro rfl
    exact not_mem_slotBody hname strength hc
  have htake : (slotBody name strength ++ '\x7d' :: rest).takeWhile (· != '\x7d') =
      slotBody name strength := by
    rw [List.takeWhile_append_of_pos hbrace, List.takeWhile_cons_of_neg (by decide),
      List.append_nil]
  simp [slotAt?, htake, slot?_slotBody hname strength]

/-- What is read as a slot is one, with a name. -/
theorem wellFormed_of_slot? {body : List Char} {s : Segment} (h : slot? body = some s) :
    s.WellFormed ∧ s.isText = false := by
  have hvalid : ∀ (name : List Char) (strength : Option Strength),
      (if !name.isEmpty && name.all isNameChar then
        some (Segment.slot (String.ofList name) strength) else none) = some s →
        s.WellFormed ∧ s.isText = false := by
    intro name strength h
    split at h
    · next hname =>
      cases h
      rw [Bool.and_eq_true, List.all_eq_true] at hname
      refine ⟨⟨by simpa using hname.1, fun c hc => ?_⟩, rfl⟩
      rw [String.toList_ofList] at hc
      exact isNameChar_iff.1 (hname.2 c hc)
    · cases h
  rw [slot?] at h
  split at h
  all_goals
    obtain ⟨strength, -, h⟩ := Option.bind_eq_some_iff.1 h
    exact hvalid _ strength h

/-! ## 3. Scanning -/

/-- Characters that have been read already are left out. -/
theorem scan_skip (skip : Nat) : scan skip text cs = scan 0 text (cs.drop skip) := by
  induction cs generalizing skip with
  | nil =>
    rw [List.drop_nil, scan, scan]
  | cons c cs ih =>
    cases skip with
    | zero => rfl
    | succ skip => rw [scan, ih, List.drop_succ_cons]

/-- A doubled brace is one brace of the text. -/
theorem scan_brace (hc : c = '\x7b' ∨ c = '\x7d') :
    scan 0 text (c :: c :: rest) = scan 0 (c :: text) rest := by
  rcases hc with rfl | rfl
  · rw [scan, if_pos rfl, List.head?_cons, if_pos rfl, scan_skip, List.drop_succ_cons,
      List.drop_zero]
  · rw [scan, if_neg (by decide), if_pos ⟨rfl, rfl⟩, scan_skip, List.drop_succ_cons,
      List.drop_zero]

theorem scan_char (hc : ¬(c = '\x7b' ∨ c = '\x7d')) :
    scan 0 text (c :: rest) = scan 0 (c :: text) rest := by
  rw [not_or] at hc
  rw [scan, if_neg hc.1, if_neg fun h => hc.2 h.1]

/-- A text with its braces doubled is read as the text. -/
theorem scan_escape (cs : List Char) :
    scan 0 text (escape cs ++ rest) = scan 0 (cs.reverse ++ text) rest := by
  induction cs generalizing text with
  | nil => rfl
  | cons c cs ih =>
    have hstep : scan 0 text (escape (c :: cs) ++ rest) =
        scan 0 (c :: text) (escape cs ++ rest) := by
      rw [escape, List.flatMap_cons]
      by_cases hc : c = '\x7b' ∨ c = '\x7d'
      · rw [if_pos hc]
        exact scan_brace hc
      · rw [if_neg hc]
        exact scan_char hc
    rw [hstep, ih, List.reverse_cons, List.append_assoc]
    rfl

/-- A printed slot ends the text in front of it. -/
theorem scan_slot (hname : Segment.IsName name) (strength : Option Strength) :
    scan 0 text (segmentSource (.slot name strength) ++ rest) =
      flush text (.slot name strength :: scan 0 [] rest) := by
  have hsource : segmentSource (.slot name strength) ++ rest =
      '\x7b' :: (slotBody name strength ++ '\x7d' :: rest) := by
    simp [segmentSource]
  -- A name is not empty, so that the opening brace is not doubled.
  have hhead : ¬(slotBody name strength ++ '\x7d' :: rest).head? = some '\x7b' := by
    have hbrace : '\x7b' ∉ name.toList := not_mem_name hname rfl
    have hne : name.toList ≠ [] := by simpa using hname.1
    cases hchars : name.toList with
    | nil => exact absurd hchars hne
    | cons c cs =>
      rw [hchars] at hbrace
      have hc : c ≠ '\x7b' := fun h => hbrace (h ▸ List.mem_cons_self)
      cases strength <;> simp [slotBody, hchars, hc]
  have hdrop : (slotBody name strength ++ '\x7d' :: rest).drop
      ((slotBody name strength).length + 1) = rest := by
    rw [List.drop_append]
    simp
  rw [hsource, scan, if_pos rfl, if_neg hhead, slotAt?_slotBody hname]
  dsimp only
  rw [scan_skip, hdrop]

/-- Segments in normal form are read back, behind a text if they do not begin with one. -/
theorem scan_print (h : Normal segments)
    (hfront : text = [] ∨ ∀ s ∈ segments.head?, s.isText = false) :
    scan 0 text (segments.flatMap segmentSource) = flush text segments := by
  induction segments generalizing text with
  | nil => rw [List.flatMap_nil, scan]
  | cons s segments ih =>
    rw [List.flatMap_cons]
    cases s with
    | slot name strength =>
      have hname : Segment.IsName name := h.each _ List.mem_cons_self
      rw [scan_slot hname, ih h.tail (.inl rfl)]
      rfl
    | text t =>
      have hempty : text = [] := hfront.resolve_right fun hall =>
        Bool.false_ne_true (hall _ rfl).symm
      have hbehind : ∀ s ∈ segments.head?, s.isText = false := fun s hs =>
        (h.apart.rel_head? hs).resolve_left Bool.false_ne_true.symm
      have hne : t ≠ "" := h.each _ List.mem_cons_self
      have hchars : t.toList.reverse.isEmpty = false := by simpa using hne
      rw [hempty, segmentSource, scan_escape, List.append_nil, ih h.tail (.inr hbehind), flush,
        hchars, if_neg Bool.false_ne_true, List.reverse_reverse, String.ofList_toList]
      rfl

theorem normal_flush (h : Normal segments) (hfront : ∀ s ∈ segments.head?, s.isText = false) :
    Normal (flush text segments) := by
  unfold flush
  split
  · exact h
  · next hne => exact .cons (by simpa [Segment.WellFormed] using hne) h (.inr hfront)

/-- What is read is in normal form: a text is ended by a slot or by the end only. -/
theorem normal_scan (skip : Nat) (text cs : List Char) : Normal (scan skip text cs) := by
  fun_induction scan skip text cs with
  | case1 skip text =>
    refine normal_flush .nil fun s hs => ?_
    cases hs
  | case2 skip text c cs ih | case3 text cs hdouble ih => exact ih
  | case4 text cs hdouble s length hat ih =>
    have hslot : s.WellFormed ∧ s.isText = false := by
      rw [slotAt?] at hat
      split at hat
      · obtain ⟨t, ht, heq⟩ := Option.map_eq_some_iff.1 hat
        cases heq
        exact wellFormed_of_slot? ht
      · cases hat
    refine normal_flush (.cons hslot.1 ih (.inl hslot.2)) fun t ht => ?_
    cases ht
    exact hslot.2
  | case5 text cs hdouble hat ih => exact ih
  | case6 text c cs hopen hclose ih | case7 text c cs hopen hclose ih => exact ih

/-! ## 4. Reading what is printed -/

theorem normal_parse (source : String) : Normal (parse source).segments :=
  normal_scan 0 [] source.toList

theorem segments_parse_print (h : Normal segments) :
    (parse (print segments)).segments = segments := by
  rw [parse, print, String.toList_ofList]
  exact scan_print h (.inl rfl)

/-- **Reading inverts printing.** Segments in normal form are read back from what is printed for
    them; what is read of any source is in normal form, so that printing it and reading it again
    changes nothing. -/
theorem parse_inverts_print :
    (∀ segments, Normal segments → (parse (print segments)).segments = segments) ∧
      ∀ source, Normal (parse source).segments ∧
        (parse (print (parse source).segments)).segments = (parse source).segments :=
  ⟨fun _ h => segments_parse_print h,
    fun source => ⟨normal_parse source, segments_parse_print (normal_parse source)⟩⟩

/-- Braces at both ends of a slot, the least strength, and neighbours that are both slots. -/
theorem parse_inverts_print_here :
    Normal [.text "a\x7b", .slot "left" (some (-2147483648)), .slot "_1" none, .text "\x7dé"] ∧
    (parse "a\x7b\x7b\x7bleft:-2147483648\x7d\x7b_1\x7d\x7d\x7dé").segments =
      [.text "a\x7b", .slot "left" (some (-2147483648)), .slot "_1" none, .text "\x7dé"] := by
  have hleft : Segment.IsName "left" := ⟨by decide, by simp⟩
  have hright : Segment.IsName "_1" := ⟨by decide, by simp⟩
  have hnormal : Normal
      [.text "a\x7b", .slot "left" (some (-2147483648)), .slot "_1" none, .text "\x7dé"] := by
    refine ⟨?_, by simp [Segment.isText]⟩
    simp [Segment.WellFormed, hleft, hright]
  have hprint : print
      [.text "a\x7b", .slot "left" (some (-2147483648)), .slot "_1" none, .text "\x7dé"] =
        "a\x7b\x7b\x7bleft:-2147483648\x7d\x7b_1\x7d\x7d\x7dé" := rfl
  have hread := parse_inverts_print.1 _ hnormal
  rw [hprint] at hread
  exact ⟨hnormal, hread⟩

end Template

end QueryPlan
