/-!
# BslNav.Data.Sort

Sorting a list by inserting its elements one by one.

Elements that the order does not separate stay in the order in which they
stood.  For a total and transitive order:

* `sortBy_perm` — nothing is lost and nothing added;
* `pairwise_sortBy` — every element comes no later than those after it;
* `sortBy_eq_self` — a sorted list stays as it is.
-/

namespace BslNav

/-- Put an element before the first one that it may precede. -/
def insertBy (le : α → α → Bool) (x : α) : List α → List α
  | [] => [x]
  | y :: ys => if le x y then x :: y :: ys else y :: insertBy le x ys

/-- The elements in ascending order. -/
def sortBy (le : α → α → Bool) (xs : List α) : List α := xs.foldr (insertBy le) []

theorem insertBy_perm (le : α → α → Bool) (x : α) (ys : List α) :
    (insertBy le x ys).Perm (x :: ys) := by
  induction ys with
  | nil => exact .refl _
  | cons y ys ih =>
      unfold insertBy
      split
      · exact .refl _
      · exact (ih.cons y).trans (.swap x y ys)

theorem sortBy_perm (le : α → α → Bool) (xs : List α) : (sortBy le xs).Perm xs := by
  induction xs with
  | nil => exact .refl _
  | cons x xs ih => exact (insertBy_perm le x _).trans (ih.cons x)

theorem pairwise_insertBy {le : α → α → Bool} (total : ∀ a b, le a b || le b a)
    (trans : ∀ a b c, le a b → le b c → le a c) (x : α) {ys : List α}
    (h : ys.Pairwise fun a b => le a b) : (insertBy le x ys).Pairwise fun a b => le a b := by
  induction ys with
  | nil => simp [insertBy]
  | cons y ys ih =>
      have hy := List.pairwise_cons.1 h
      unfold insertBy
      split <;> rename_i hxy
      · refine List.pairwise_cons.2 ⟨fun z hz => ?_, h⟩
        rcases List.mem_cons.1 hz with rfl | hz
        · exact hxy
        · exact trans x y z hxy (hy.1 z hz)
      · refine List.pairwise_cons.2 ⟨fun z hz => ?_, ih hy.2⟩
        rcases List.mem_cons.1 ((insertBy_perm le x ys).mem_iff.1 hz) with rfl | hz
        · have := total z y
          simp_all
        · exact hy.1 z hz

theorem pairwise_sortBy {le : α → α → Bool} (total : ∀ a b, le a b || le b a)
    (trans : ∀ a b c, le a b → le b c → le a c) (xs : List α) :
    (sortBy le xs).Pairwise fun a b => le a b := by
  induction xs with
  | nil => exact .nil
  | cons x xs ih => exact pairwise_insertBy total trans x ih

theorem sortBy_eq_self {le : α → α → Bool} {xs : List α} (h : xs.Pairwise fun a b => le a b) :
    sortBy le xs = xs := by
  induction xs with
  | nil => rfl
  | cons x xs ih =>
      have hx := List.pairwise_cons.1 h
      show insertBy le x (sortBy le xs) = x :: xs
      rw [ih hx.2]
      cases xs with
      | nil => rfl
      | cons y ys => simp [insertBy, hx.1 y List.mem_cons_self]

end BslNav
