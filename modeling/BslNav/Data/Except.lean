/-!
# BslNav.Data.Except

When a computation that may fail succeeds.

`Except` opens by cases on its parts; these are the equivalences that proofs
rewrite with instead.
-/

namespace BslNav

universe u v

variable {ε : Type u} {α β : Type v}

/-- A computation in two steps succeeds exactly if both do. -/
theorem bind_eq_ok_iff {x : Except ε α} {f : α → Except ε β} {b : β} :
    (x >>= f) = .ok b ↔ ∃ a, x = .ok a ∧ f a = .ok b := by
  cases x <;> simp [bind, Except.bind]

/-- What is done to a result is done exactly if there is one. -/
theorem map_eq_ok_iff {x : Except ε α} {f : α → β} {b : β} :
    x.map f = .ok b ↔ ∃ a, x = .ok a ∧ b = f a := by
  cases x <;> simp [Except.map, eq_comm]

end BslNav
