import CueCheck.Failure

/-!
Results that may be failures: what a computation that succeeds says of its steps.
-/

namespace CueCheck

variable {ε α β : Type} {x : Except ε α} {b : β}

theorem exists_of_bind_eq_ok {f : α → Except ε β} (h : x >>= f = .ok b) :
    ∃ a, x = .ok a ∧ f a = .ok b := by
  cases x with
  | error failure => cases h
  | ok a => exact ⟨a, rfl, h⟩

/-- A bind fails in its first step, or in its second. -/
theorem eq_error_of_bind {f : α → Except ε β} {failure : ε} (h : x >>= f = .error failure) :
    x = .error failure ∨ ∃ a, x = .ok a ∧ f a = .error failure := by
  cases x with
  | error other =>
    injection h with h
    exact .inl (congrArg _ h)
  | ok a => exact .inr ⟨a, rfl, h⟩

theorem exists_of_map_eq_ok {f : α → β} (h : x.map f = .ok b) : ∃ a, x = .ok a ∧ f a = b := by
  cases x with
  | error failure => cases h
  | ok a =>
    injection h with h
    exact ⟨a, rfl, h⟩

theorem exists_return_iff {f : α → β} :
    (∃ b, (do return f (← x)) = Except.ok b) ↔ ∃ a, x = .ok a := by
  cases x with
  | error failure => exact ⟨fun ⟨_, h⟩ => (nomatch h), fun ⟨_, h⟩ => (nomatch h)⟩
  | ok a => exact iff_of_true ⟨f a, rfl⟩ ⟨a, rfl⟩

end CueCheck
