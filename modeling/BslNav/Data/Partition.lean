/-!
# BslNav.Data.Partition

Binary search for the place where a property stops holding.

When a property holds of a first stretch of an array and of nothing after it,
`partitionPoint` is the length of that stretch, found by halving.  Sorted
tables of line starts and of usages are searched this way:

* `partitionPoint_le_size` — the point lies within the array;
* `of_lt_partitionPoint` — the property holds before the point;
* `not_of_partitionPoint_le` — and nowhere from the point on.
-/

namespace BslNav

/-- Halve the window `[lo, hi)` until it is empty, keeping the half that holds
the first index where `p` fails. -/
def firstFailure (p : Nat → Bool) (lo hi : Nat) : Nat :=
  if lo < hi then
    if p (lo + (hi - lo) / 2) then
      firstFailure p (lo + (hi - lo) / 2 + 1) hi
    else
      firstFailure p lo (lo + (hi - lo) / 2)
  else lo
termination_by hi - lo

theorem firstFailure_bounds (p : Nat → Bool) (lo hi : Nat) (h : lo ≤ hi) :
    lo ≤ firstFailure p lo hi ∧ firstFailure p lo hi ≤ hi := by
  fun_induction firstFailure p lo hi with
  | case1 lo hi hlt hp ih => have := ih (by omega); omega
  | case2 lo hi hlt hp ih => have := ih (by omega); omega
  | case3 lo hi hlt => omega

/-- A window in which `p` never holds again once it has failed is split at the
point found. -/
theorem firstFailure_spec (p : Nat → Bool) (lo hi : Nat)
    (hdown : ∀ i j, i ≤ j → j < hi → p j = true → p i = true) (i : Nat) (hlo : lo ≤ i)
    (hhi : i < hi) : p i = true ↔ i < firstFailure p lo hi := by
  fun_induction firstFailure p lo hi with
  | case1 lo hi hlt hp ih =>
      by_cases hi' : lo + (hi - lo) / 2 + 1 ≤ i
      · exact ih hdown hi' hhi
      · have hb := (firstFailure_bounds p (lo + (hi - lo) / 2 + 1) hi (by omega)).1
        exact ⟨fun _ => by omega, fun _ => hdown i _ (by omega) (by omega) hp⟩
  | case2 lo hi hlt hp ih =>
      by_cases hi' : i < lo + (hi - lo) / 2
      · exact ih (fun a b hab hb => hdown a b hab (by omega)) hlo hi'
      · have hb := (firstFailure_bounds p lo (lo + (hi - lo) / 2) (by omega)).2
        exact ⟨fun hpi => absurd (hdown _ i (by omega) hhi hpi) hp, fun _ => by omega⟩
  | case3 lo hi hlt => omega

/-- The number of leading elements of `xs` that satisfy `p`, given that none
after them does. -/
def partitionPoint (p : α → Bool) (xs : Array α) : Nat :=
  firstFailure (fun i => xs[i]?.any p) 0 xs.size

theorem partitionPoint_le_size (p : α → Bool) (xs : Array α) :
    partitionPoint p xs ≤ xs.size :=
  (firstFailure_bounds _ 0 xs.size (Nat.zero_le _)).2

/-- The elements that satisfy `p` come first. -/
def Partitioned (p : α → Bool) (xs : Array α) : Prop :=
  ∀ (i j : Nat) (x y : α), i ≤ j → xs[i]? = some x → xs[j]? = some y → p y = true → p x = true

/-- In a partitioned array an element satisfies `p` exactly when it stands
before the partition point. -/
theorem holds_iff_lt_partitionPoint {p : α → Bool} {xs : Array α} (h : Partitioned p xs)
    {i : Nat} {x : α} (hx : xs[i]? = some x) : p x = true ↔ i < partitionPoint p xs := by
  have hi : i < xs.size := (Array.getElem?_eq_some_iff.1 hx).1
  have hdown : ∀ a b, a ≤ b → b < xs.size →
      (xs[b]?.any p) = true → (xs[a]?.any p) = true := by
    intro a b hab hb hpb
    have ha : a < xs.size := by omega
    simp only [Array.getElem?_eq_getElem ha, Array.getElem?_eq_getElem hb, Option.any_some] at *
    exact h a b _ _ hab (Array.getElem?_eq_getElem ha) (Array.getElem?_eq_getElem hb) hpb
  have := firstFailure_spec (fun i => xs[i]?.any p) 0 xs.size hdown i (Nat.zero_le _) hi
  simpa [hx, partitionPoint] using this

theorem of_lt_partitionPoint {p : α → Bool} {xs : Array α} (h : Partitioned p xs)
    {i : Nat} {x : α} (hx : xs[i]? = some x) (hi : i < partitionPoint p xs) : p x = true :=
  (holds_iff_lt_partitionPoint h hx).2 hi

theorem not_of_partitionPoint_le {p : α → Bool} {xs : Array α} (h : Partitioned p xs)
    {i : Nat} {x : α} (hx : xs[i]? = some x) (hi : partitionPoint p xs ≤ i) : p x = false := by
  have := mt (holds_iff_lt_partitionPoint h hx).1 (by omega)
  simpa using this

/-- In a partitioned array the partition point is the number of elements that
satisfy `p`. -/
theorem partitionPoint_eq_countP {p : α → Bool} {xs : Array α} (h : Partitioned p xs) :
    partitionPoint p xs = xs.toList.countP p := by
  have hsize : partitionPoint p xs ≤ xs.toList.length := by
    simpa using partitionPoint_le_size p xs
  have hbefore : ∀ x ∈ xs.toList.take (partitionPoint p xs), p x = true := by
    intro x hx
    obtain ⟨i, hi, rfl⟩ := List.mem_take_iff_getElem.1 hx
    exact of_lt_partitionPoint h (i := i) (by simp) (by omega)
  have hafter : ∀ x ∈ xs.toList.drop (partitionPoint p xs), ¬ p x = true := by
    intro x hx
    obtain ⟨i, hi, rfl⟩ := List.mem_drop_iff_getElem.1 hx
    rw [Bool.not_eq_true]
    exact not_of_partitionPoint_le h (i := partitionPoint p xs + i) (by simp) (by omega)
  calc
    partitionPoint p xs = (xs.toList.take (partitionPoint p xs)).countP p
        + (xs.toList.drop (partitionPoint p xs)).countP p := by
      rw [List.countP_eq_length.2 hbefore, List.countP_eq_zero.2 hafter,
        List.length_take_of_le hsize, Nat.add_zero]
    _ = xs.toList.countP p := by rw [← List.countP_append, List.take_append_drop]

end BslNav
