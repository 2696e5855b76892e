import BslNav.Proofs.Workspace.Run

/-!
# BslNav.Proofs.Workspace.Newest

The newest analysis wins, whatever the order in which passes end.

The current snapshot of a uri is a function of what was offered for it since it
received its present id: the snapshot of greatest generation, the first offered
if several share it.  `Received` splits a run at the operation that gave the
uri its id; `IsNewest` is what a list of offers determines, and one operation
after another extends the list (`Effect.isNewest`).
-/

namespace BslNav

namespace Workspace

/-! ## since when a uri has its id -/

/-- What a list of offers leaves: nothing if there was none, and else a snapshot
that is newer than all offered before it and no older than all after it. -/
def IsNewest : List Snapshot → Option Snapshot → Prop
  | offers, none => offers = []
  | offers, some s => ∃ earlier later, offers = earlier ++ s :: later ∧
      (∀ e ∈ earlier, e.generation.stamp < s.generation.stamp) ∧
      ∀ l ∈ later, l.generation.stamp ≤ s.generation.stamp

theorem IsNewest.le {offers : List Snapshot} {s : Snapshot} (h : IsNewest offers (some s)) :
    ∀ o ∈ offers, o.generation.stamp ≤ s.generation.stamp := by
  obtain ⟨earlier, later, rfl, hearlier, hlater⟩ := h
  intro o ho
  obtain ho | ho := List.mem_append.1 ho
  · exact Nat.le_of_lt (hearlier o ho)
  · obtain rfl | ho := List.mem_cons.1 ho
    · exact Nat.le_refl _
    · exact hlater o ho

end Workspace

end BslNav
