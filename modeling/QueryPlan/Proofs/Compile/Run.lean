import Mathlib.Data.List.Forall2
import QueryPlan.Compile.Monad

/-!
# Single compilations

What a step of a compilation gives in a setting and a state. `bind_run` follows a compilation step
by step where the steps are known to succeed, and `bind_eq_ok` takes one apart that has succeeded.
-/

namespace QueryPlan.Compile

variable {α β : Type} {s : Setting} {c c' c₁ : Context}

variable {f : α → Compile β} {x : Compile α} {xs : List α}

@[simp] theorem dialect_run : dialect s c = .ok (s.dialect, c) := rfl

@[simp] theorem read_run : (read : Compile Setting) s c = .ok (s, c) := rfl

@[simp] theorem get_run : (get : Compile Context) s c = .ok (c, c) := rfl

/-- A step that succeeds can be taken. -/
theorem bind_run {a : α} (h : x s c = .ok (a, c₁)) : (x >>= f) s c = f a s c₁ := by
  show (x s c >>= fun p => f p.1 s p.2) = _
  rw [h]
  rfl

/-- A step that fails ends what it stands in. -/
theorem bind_error {e : Error} (h : x s c = .error e) : (x >>= f) s c = .error e := by
  show (x s c >>= fun p => f p.1 s p.2) = _
  rw [h]
  rfl

theorem missing_run (feature : String) :
    missing feature s c =
      if s.strict then .error (Error.unsupported feature) else .ok (⟨⟩, c) := by
  unfold missing
  rw [bind_run read_run]
  split <;> rfl

theorem bind_eq_ok {b : β} :
    (x >>= f) s c = .ok (b, c') ↔ ∃ a c₁, x s c = .ok (a, c₁) ∧ f a s c₁ = .ok (b, c') := by
  constructor
  · intro h
    cases hx : x s c with
    | error e =>
      rw [bind_error hx] at h
      cases h
    | ok p =>
      obtain ⟨a, c₁⟩ := p
      exact ⟨a, c₁, rfl, by rw [← h, bind_run hx]⟩
  · rintro ⟨a, c₁, hx, hf⟩
    rw [bind_run hx, hf]

/-- Outside of an output clause the scopes alone decide about a qualifier. -/
theorem qualifier_run (h : c.outputTable = none) (label name : String) :
    qualifier label name s c =
      .ok (qualifier? s.dialect s.simplifyReferences c.scopes label name, c) := by
  unfold qualifier
  rw [bind_run get_run, bind_run dialect_run, bind_run read_run, h]
  rfl

/-- Steps that leave the state as it is can be taken one after another. -/
theorem mapM_run {g : α → β} (h : ∀ x ∈ xs, f x s c = .ok (g x, c)) :
    xs.mapM f s c = .ok (xs.map g, c) := by
  induction xs with
  | nil => rfl
  | cons x xs ih =>
    rw [List.mapM_cons, bind_run (h x List.mem_cons_self),
      bind_run (ih fun y hy => h y (List.mem_cons_of_mem x hy))]
    rfl

/-- The first of them that fails ends the others. -/
theorem mapM_error {e : Error} (h : ∀ x ∈ xs, (∃ b, f x s c = .ok (b, c)) ∨ f x s c = .error e)
    (hx : ∃ x ∈ xs, f x s c = .error e) : xs.mapM f s c = .error e := by
  induction xs with
  | nil =>
    obtain ⟨x, hx, -⟩ := hx
    cases hx
  | cons x xs ih =>
    rw [List.mapM_cons]
    rcases h x List.mem_cons_self with ⟨b, hb⟩ | hfail
    · have hrest : ∃ y ∈ xs, f y s c = .error e := by
        obtain ⟨y, hy, hfail⟩ := hx
        rcases List.mem_cons.1 hy with rfl | hy
        · rw [hb] at hfail
          cases hfail
        · exact ⟨y, hy, hfail⟩
      rw [bind_run hb]
      exact bind_error (ih (fun y hy => h y (List.mem_cons_of_mem x hy)) hrest)
    · exact bind_error hfail

/-- A list of steps that has succeeded has done so step by step. -/
theorem forall₂_of_mapM {ys : List β} (h : xs.mapM f s c = .ok (ys, c')) :
    List.Forall₂ (fun x y => ∃ c₁ c₂, f x s c₁ = .ok (y, c₂)) xs ys := by
  induction xs generalizing ys c with
  | nil =>
    rw [List.mapM_nil] at h
    cases h
    exact .nil
  | cons x xs ih =>
    rw [List.mapM_cons] at h
    obtain ⟨y, c₁, hy, h⟩ := bind_eq_ok.1 h
    obtain ⟨ys, c₂, hys, h⟩ := bind_eq_ok.1 h
    cases h
    exact .cons ⟨c, c₁, hy⟩ (ih hys)

end QueryPlan.Compile
