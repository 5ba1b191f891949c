import QueryPlan.Dialect.Conventions

/-!
# Plain texts

A text is plain (`IsPlain`) if it has none of the characters that placeholders begin with. A string
literal is plain if its text is. A character is bare (`IsBareChar`) if it begins neither a
placeholder nor, as a minus sign may, a comment.
-/

namespace QueryPlan

/-- A character that no placeholder begins with. -/
def IsPlainChar (c : Char) : Prop :=
  c ≠ '?' ∧ c ≠ '$'

instance (c : Char) : Decidable (IsPlainChar c) :=
  inferInstanceAs (Decidable (_ ∧ _))

-- Characters are finitely many, but only those of the list are to be tried.
instance (cs : List Char) : Decidable (∀ c ∈ cs, IsPlainChar c) :=
  List.decidableBAll IsPlainChar cs

/-- A text without the characters that placeholders begin with. -/
def IsPlain (t : String) : Prop :=
  ∀ c ∈ t.toList, IsPlainChar c

instance (t : String) : Decidable (IsPlain t) :=
  inferInstanceAs (Decidable (∀ c ∈ t.toList, IsPlainChar c))

/-- A character that begins neither a placeholder nor a comment. -/
def IsBareChar (c : Char) : Prop :=
  IsPlainChar c ∧ c ≠ '-'

instance (c : Char) : Decidable (IsBareChar c) :=
  inferInstanceAs (Decidable (_ ∧ _))

instance (cs : List Char) : Decidable (∀ c ∈ cs, IsBareChar c) :=
  List.decidableBAll IsBareChar cs

theorem isBareChar_of_isDigit {c : Char} (h : c.isDigit = true) : IsBareChar c := by
  have hne : ∀ d : Char, d.isDigit = false → c ≠ d := by
    rintro d hd rfl
    rw [h] at hd
    cases hd
  exact ⟨⟨hne '?' rfl, hne '$' rfl⟩, hne '-' rfl⟩

namespace IsPlain

theorem ofList {cs : List Char} (h : ∀ c ∈ cs, IsPlainChar c) : IsPlain (String.ofList cs) := by
  intro c hc
  rw [String.toList_ofList] at hc
  exact h c hc

theorem append {a b : String} (ha : IsPlain a) (hb : IsPlain b) : IsPlain (a ++ b) := by
  intro c hc
  rw [String.toList_append, List.mem_append] at hc
  exact hc.elim (ha c) (hb c)

/-- Between quotes, with some characters doubled, a text is as plain as it is. -/
theorem quoted {t : String} (h : IsPlain t) {f : Char → List Char}
    (hf : ∀ x, ∀ c ∈ f x, c = x) {opening closing : Char} (ho : IsPlainChar opening)
    (hc : IsPlainChar closing) :
    IsPlain (String.ofList (opening :: t.toList.flatMap f ++ [closing])) := by
  refine .ofList fun c hmem => ?_
  rcases List.mem_append.1 hmem with hmem | hmem
  · rcases List.mem_cons.1 hmem with rfl | hmem
    · exact ho
    · obtain ⟨x, hx, hmem⟩ := List.mem_flatMap.1 hmem
      exact hf x c hmem ▸ h x hx
  · exact List.mem_singleton.1 hmem ▸ hc

end IsPlain

/-- An escaped character is doubled at most. -/
theorem Conventions.eq_of_mem_escapeChar {backslash : Bool} {x c : Char}
    (h : c ∈ escapeChar backslash x) : c = x := by
  unfold escapeChar at h
  split at h
  · next hx => simpa [hx] using h
  · split at h
    · next hx => simpa [hx.2] using h
    · exact List.mem_singleton.1 h

theorem isPlain_quotedText (backslash : Bool) {text : String} (h : IsPlain text) :
    IsPlain (Conventions.quotedText backslash text) :=
  h.quoted (fun _ _ => Conventions.eq_of_mem_escapeChar) (by decide) (by decide)

end QueryPlan
