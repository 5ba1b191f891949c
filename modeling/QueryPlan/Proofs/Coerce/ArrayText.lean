import QueryPlan.Proofs.Calendar.ReadBack
import QueryPlan.Proofs.Coerce.Typing

/-!
# Arrays read back from their text

A database writes an array of texts as a list in braces. A missing item is `NULL`; any text may
stand in quotes, with a backslash before each quote and each backslash, and a text that cannot be
mistaken for something else may stand there as it is (`Form`). Whichever of the forms is taken for
each item, the array that is read is the one that was written (`written_read_back`).

The reader keeps one item that is not finished yet. Every lemma about a piece of text says what this
item becomes, with what follows the piece left open.
-/

namespace QueryPlan.ArrayText

/-! ## 1. The written form -/

/-- The blanks that a database looks for in a text: the space and the control characters from tab
    to carriage return. -/
def isSpace (c : Char) : Bool :=
  c == ' ' || (9 ≤ c.toNat && c.toNat ≤ 13)

/-- Whether a character has no meaning in the text of an array. -/
def isBareChar (c : Char) : Bool :=
  !(['\x7b', '\x7d', ',', '"', '\\'].contains c) && !isSpace c

/-- Whether a text may stand without quotes. -/
def isBare (cs : List Char) : Bool :=
  !cs.isEmpty && cs.map Char.toLower != "null".toList && cs.all isBareChar

/-- A text with a backslash before each quote and each backslash. -/
def escape (cs : List Char) : List Char :=
  cs.flatMap fun c => if c = '"' ∨ c = '\\' then ['\\', c] else [c]

def quote (cs : List Char) : List Char :=
  '"' :: escape cs ++ ['"']

/-- The forms of an item. A text that may stand without quotes may still have them. -/
inductive Form : Option String → List Char → Prop where
  | missing : Form none ['N', 'U', 'L', 'L']
  | quoted (s : String) : Form (some s) (quote s.toList)
  | bare (s : String) (h : isBare s.toList = true) : Form (some s) s.toList

/-- Items with commas between them, in braces. -/
def braced (forms : List (List Char)) : List Char :=
  '\x7b' :: [','].intercalate forms ++ ['\x7d']

/-- A text of an array, with each item in one of its forms. -/
def Written (xs : List (Option String)) (cs : List Char) : Prop :=
  ∃ forms, List.Forall₂ Form xs forms ∧ cs = braced forms

/-- The form of an item that has quotes only where they are needed. -/
def shortForm : Option String → List Char
  | none => ['N', 'U', 'L', 'L']
  | some s => if isBare s.toList then s.toList else quote s.toList

/-- The text of an array that has quotes only where they are needed. -/
def print (xs : List (Option String)) : String :=
  String.ofList (braced (xs.map shortForm))

theorem form_shortForm (x : Option String) : Form x (shortForm x) := by
  cases x with
  | none => exact .missing
  | some s =>
    rw [shortForm]
    split
    · next hbare => exact .bare s hbare
    · exact .quoted s

theorem written_print (xs : List (Option String)) : Written xs (print xs).toList := by
  refine ⟨xs.map shortForm, ?_, String.toList_ofList⟩
  rw [List.forall₂_map_right_iff, List.forall₂_same]
  exact fun x _ => form_shortForm x

/-! ## 2. Steps of the reader -/

variable {c : Char} {cs rest current : List Char} {quoted wasQuoted : Bool}

theorem items?_quote :
    items? current quoted wasQuoted ('"' :: rest) = items? current (!quoted) true rest := by
  rw [items?]

/-- In quotes a backslash takes the next character as it is. -/
theorem items?_backslash : items? current true wasQuoted ('\\' :: c :: rest) =
    items? (c :: current) true wasQuoted rest := by
  rw [items?, if_pos rfl]

theorem items?_char (hquote : c ≠ '"') (hbackslash : c ≠ '\\') (hcomma : c ≠ ',' ∨ quoted = true) :
    items? current quoted wasQuoted (c :: rest) = items? (c :: current) quoted wasQuoted rest := by
  rw [items?]
  · rw [if_neg]
    rintro ⟨rfl, hq⟩
    cases quoted with
    | true => exact Bool.false_ne_true hq
    | false => exact hcomma.elim (fun h => h rfl) Bool.false_ne_true
  · exact fun h => hquote h
  · exact fun _ _ h => absurd h hbackslash
  · exact fun h => absurd h hbackslash

/-- Outside of quotes a comma ends the item. -/
theorem items?_comma : items? current false wasQuoted (',' :: rest) =
    (items? [] false false rest).map (item current.reverse wasQuoted :: ·) := by
  rw [items?]
  · rw [if_pos ⟨rfl, rfl⟩]
  · decide
  · exact fun _ _ h => absurd h (by decide)
  · exact fun h => absurd h (by decide)

/-! ## 3. Items -/

/-- What is escaped in quotes is taken over as it was. -/
theorem items?_escape (cs : List Char) : items? current true wasQuoted (escape cs ++ rest) =
    items? (cs.reverse ++ current) true wasQuoted rest := by
  induction cs generalizing current with
  | nil => rfl
  | cons c cs ih =>
    have hstep : items? current true wasQuoted (escape (c :: cs) ++ rest) =
        items? (c :: current) true wasQuoted (escape cs ++ rest) := by
      rw [escape, List.flatMap_cons]
      by_cases hc : c = '"' ∨ c = '\\'
      · rw [if_pos hc]
        exact items?_backslash
      · rw [if_neg hc]
        exact items?_char (fun h => hc (.inl h)) (fun h => hc (.inr h)) (.inr rfl)
    rw [hstep, ih, List.reverse_cons, List.append_assoc]
    rfl

/-- Characters without a meaning are taken over as they are. -/
theorem items?_bare (h : ∀ c ∈ cs, isBareChar c = true) :
    items? current false wasQuoted (cs ++ rest) =
      items? (cs.reverse ++ current) false wasQuoted rest := by
  induction cs generalizing current with
  | nil => rfl
  | cons c cs ih =>
    obtain ⟨hc, hcs⟩ := List.forall_mem_cons.1 h
    simp only [isBareChar, Bool.and_eq_true, Bool.not_eq_true', List.contains_eq_mem,
      List.mem_cons, List.not_mem_nil, or_false, decide_eq_false_iff_not, not_or] at hc
    obtain ⟨⟨-, -, hcomma, hquote, hbackslash⟩, -⟩ := hc
    rw [List.cons_append, items?_char hquote hbackslash (.inl hcomma), ih hcs, List.reverse_cons,
      List.append_assoc]
    rfl

/-- The value of an item. -/
def valueOf : Option String → Value
  | none => .null
  | some s => .text s

/-- Any form of an item is read as a whole, and yields its value. -/
theorem Form.items? {x : Option String} (h : Form x cs) :
    ∃ current wasQuoted, item current.reverse wasQuoted = valueOf x ∧
      ∀ rest, ArrayText.items? [] false false (cs ++ rest) =
        ArrayText.items? current false wasQuoted rest := by
  cases h with
  | missing =>
    exact ⟨['L', 'L', 'U', 'N'], false, rfl, fun rest => items?_bare (List.all_eq_true.1 rfl)⟩
  | quoted s =>
    refine ⟨s.toList.reverse, true, ?_, fun rest => ?_⟩
    · rw [List.reverse_reverse, item, Bool.not_true, Bool.false_and, if_neg Bool.false_ne_true,
        String.ofList_toList]
      rfl
    · rw [quote, List.cons_append, List.cons_append, items?_quote, List.append_assoc,
        Bool.not_false, items?_escape, List.append_nil, List.singleton_append, items?_quote]
      rfl
  | bare s hbare =>
    simp only [isBare, Bool.and_eq_true, bne_iff_ne, ne_eq] at hbare
    obtain ⟨⟨-, hnull⟩, hall⟩ := hbare
    refine ⟨s.toList.reverse, false, ?_, fun rest => ?_⟩
    · rw [List.reverse_reverse, item, beq_eq_false_iff_ne.2 hnull, Bool.and_false,
        if_neg Bool.false_ne_true, String.ofList_toList]
      rfl
    · rw [items?_bare (List.all_eq_true.1 hall), List.append_nil]

theorem Form.ne_nil {x : Option String} (h : Form x cs) : cs ≠ [] := by
  cases h with
  | missing | quoted s => exact List.cons_ne_nil _ _
  | bare s hbare =>
    intro hnil
    rw [hnil] at hbare
    cases hbare

/-! ## 4. Arrays -/

/-- Items with commas between them are read one by one. -/
theorem items?_intercalate {x : Option String} {xs : List (Option String)} {cs : List Char}
    {forms : List (List Char)} (hx : Form x cs) (hxs : List.Forall₂ Form xs forms) :
    items? [] false false ([','].intercalate (cs :: forms)) = some ((x :: xs).map valueOf) := by
  induction hxs generalizing x cs with
  | nil =>
    obtain ⟨current, wasQuoted, hitem, hread⟩ := hx.items?
    have hend := hread []
    rw [List.append_nil] at hend
    rw [List.intercalate_singleton, hend, ArrayText.items?, if_neg Bool.false_ne_true, hitem]
    rfl
  | cons hy _ ih =>
    obtain ⟨current, wasQuoted, hitem, hread⟩ := hx.items?
    rw [List.intercalate_cons_cons, List.append_assoc, hread, List.singleton_append, items?_comma,
      ih hy, hitem]
    rfl

/-- The text between the braces is empty for the empty array only. -/
theorem intercalate_ne_nil {x : Option String} {forms : List (List Char)} (hx : Form x cs) :
    [','].intercalate (cs :: forms) ≠ [] := by
  cases forms with
  | nil =>
    rw [List.intercalate_singleton]
    exact hx.ne_nil
  | cons ds forms =>
    rw [List.intercalate_cons_cons]
    simp [hx.ne_nil]

theorem parse?_braces (hne : cs ≠ []) :
    parse? ('\x7b' :: cs ++ ['\x7d']) = items? [] false false cs := by
  rw [List.cons_append, parse?, List.getLast?_concat, List.dropLast_concat]
  simp [hne]

theorem parse?_written {xs : List (Option String)} (h : Written xs cs) :
    parse? cs = some (xs.map valueOf) := by
  obtain ⟨forms, hforms, rfl⟩ := h
  cases hforms with
  | nil => rfl
  | cons hx hxs =>
    rw [braced, parse?_braces (intercalate_ne_nil hx), items?_intercalate hx hxs]

/-- Braces have no blanks around them. -/
theorem trim_braces (cs : List Char) :
    Text.trim ('\x7b' :: cs ++ ['\x7d']) = '\x7b' :: cs ++ ['\x7d'] := by
  have hfront : Text.trimFront ('\x7b' :: cs ++ ['\x7d']) = '\x7b' :: cs ++ ['\x7d'] :=
    Calendar.trimFront_cons rfl
  rw [Text.trim, hfront, Text.trimBack, List.reverse_append]
  have hback : ∀ ds, (['\x7d'].reverse ++ ds).dropWhile Text.isBlank = ['\x7d'].reverse ++ ds :=
    fun ds => Calendar.trimFront_cons rfl
  rw [hback, List.reverse_append, List.reverse_reverse, List.reverse_reverse]

theorem coerce_valueOf (xs : List (Option String)) :
    (xs.map valueOf).mapM (Value.coerce .text) = .ok (xs.map valueOf) := by
  rw [mapM_eq_ok_iff, List.forall₂_same]
  intro v hv
  obtain ⟨x, -, rfl⟩ := List.mem_map.1 hv
  cases x with
  | none => exact Value.coerce_null .text
  | some s => exact Value.coerce_of_hasType rfl

/-- **An array of texts is read back.** Whichever form each item has been written in, the items are
    read as they were, and so is the array when its text is coerced. Every array has such a text. -/
theorem written_read_back (xs : List (Option String)) :
    Written xs (print xs).toList ∧ ∀ s : String, Written xs s.toList →
      parse? s.toList = some (xs.map valueOf) ∧
      (Value.text s).coerce (.array .text) = .ok (.array (xs.map valueOf)) := by
  refine ⟨written_print xs, fun s hs => ?_⟩
  have hparse := parse?_written hs
  refine ⟨hparse, ?_⟩
  have hitems : (Value.text s).toItems .text = .ok (xs.map valueOf) := by
    obtain ⟨forms, -, htext⟩ := hs
    have htrim : Text.trim s.toList = s.toList := by
      rw [htext]
      exact trim_braces _
    have hhead : ¬s.toList.head? = some '[' := by
      rw [htext, braced]
      simp
    rw [Value.toItems, Value.itemsOfText]
    simp only [htrim, if_neg hhead, hparse]
  rw [Value.coerce_array (by simp)]
  exact Except.bind_eq_ok_iff.2 ⟨_, hitems, Except.bind_eq_ok_iff.2 ⟨_, coerce_valueOf xs, rfl⟩⟩

/-- An empty text, a missing item, the word for it as a text, a text of special characters, and one
    that needs no quotes but has them. -/
theorem written_read_back_here :
    Written [some "", none, some "Null", some "\x7b\\,\"", some "b c", some "d", some "e"]
      "\x7b\"\",NULL,\"Null\",\"\x7b\\\\,\\\"\",\"b c\",\"d\",e\x7d".toList ∧
    (Value.text "\x7b\"\",NULL,\"Null\",\"\x7b\\\\,\\\"\",\"b c\",\"d\",e\x7d").coerce
      (.array .text) = .ok (.array [.text "", .null, .text "Null", .text "\x7b\\,\"", .text "b c",
        .text "d", .text "e"]) := by
  have hwritten : Written
      [some "", none, some "Null", some "\x7b\\,\"", some "b c", some "d", some "e"]
      "\x7b\"\",NULL,\"Null\",\"\x7b\\\\,\\\"\",\"b c\",\"d\",e\x7d".toList := by
    refine ⟨[quote "".toList, "NULL".toList, quote "Null".toList, quote "\x7b\\,\"".toList,
      quote "b c".toList, quote "d".toList, "e".toList], ?_, rfl⟩
    exact .cons (.quoted _) (.cons .missing (.cons (.quoted _) (.cons (.quoted _)
      (.cons (.quoted _) (.cons (.quoted _) (.cons (.bare _ rfl) .nil))))))
  exact ⟨hwritten, ((written_read_back _).2 _ hwritten).2⟩

end QueryPlan.ArrayText
