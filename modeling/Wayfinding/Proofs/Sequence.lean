import Mathlib.Logic.Basic

/-!
# Steps that may fail

What steps in a row amount to: each one is taken only if those before it succeed.
-/

namespace Wayfinding

variable {α β ε : Type} {x : Except ε α} {f : α → Except ε β} {b : β} {e : ε}

theorem ok_bind (a : α) (f : α → Except ε β) : (Except.ok a >>= f) = f a :=
  rfl

/-- Two steps succeed through the first one. -/
theorem bind_eq_ok (h : x >>= f = .ok b) : ∃ a, x = .ok a ∧ f a = .ok b := by
  cases x with
  | error e => cases h
  | ok a => exact ⟨a, rfl, h⟩

theorem bind_eq_ok_iff : x >>= f = .ok b ↔ ∃ a, x = .ok a ∧ f a = .ok b := by
  constructor
  · exact bind_eq_ok
  · intro h
    obtain ⟨a, rfl, hf⟩ := h
    exact hf

/-- Two steps fail in the first one or in the second one. -/
theorem bind_eq_error (h : x >>= f = .error e) :
    x = .error e ∨ ∃ a, x = .ok a ∧ f a = .error e := by
  cases x with
  | error e' =>
      cases h
      exact Or.inl rfl
  | ok a => exact Or.inr ⟨a, rfl, h⟩

/-- Steps succeed that each succeed by themselves. -/
theorem mapM_eq_ok {g : α → β} {l : List α} (h : ∀ a ∈ l, f a = .ok (g a)) :
    l.mapM f = .ok (l.map g) := by
  induction l with
  | nil => rfl
  | cons a l ih =>
      rw [List.mapM_cons, h a List.mem_cons_self, ih fun b hb => h b (List.mem_cons_of_mem _ hb)]
      rfl

/-- Steps are taken by what each of them stands for. -/
theorem foldlM_eq_map {γ σ : Type} {step : σ → α → Except ε σ} {move : σ → γ → Except ε σ}
    {g : α → γ} {l : List α} (h : ∀ a ∈ l, ∀ s, step s a = move s (g a)) (s : σ) :
    l.foldlM step s = (l.map g).foldlM move s := by
  induction l generalizing s with
  | nil => rfl
  | cons a l ih =>
      rw [List.map_cons, List.foldlM_cons, List.foldlM_cons, h a List.mem_cons_self]
      exact bind_congr (ih fun b hb => h b (List.mem_cons_of_mem _ hb))

end Wayfinding
