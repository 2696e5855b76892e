import BslNav.Proofs.Workspace.Run
import BslNav.Workspace.Resolve

/-!
# BslNav.Proofs.Workspace.Lifetime

The life of an id of a declared symbol.

An id stands for a symbol from the moment its version is published until the
owner is closed or a later pass is published.  From then on it is `Spent`: the
document id is retired, or a later generation is current, and neither can be
undone.  So an id changes at most from one symbol to none, and never back.
-/

namespace BslNav

namespace Workspace

/-! ## the current snapshot of an id -/

/-- The current snapshot of an id stays, gives way to a later pass, or goes for
good together with the id. -/
theorem Effect.succession {w w' : Workspace} {op : Operation} {id : DocumentId} {s : Snapshot}
    (e : w.Effect op w') (hw : w.Consistent) (h : w.document id = some s) :
    w'.Retired id ∨
      ∃ s', w'.document id = some s' ∧
        (s' = s ∨ s.generation.stamp < s'.generation.stamp) := by
  cases e with
  | keep g => exact .inr ⟨s, h, .inl rfl⟩
  | assign uri g => exact .inr ⟨s, h, .inl rfl⟩
  | accept a accepts =>
      refine .inr ?_
      simp only [document, OrderedMap.get?_insert]
      split
      · next hid =>
        rw [← hid] at h
        have hnew := Version.isSupersededBy_iff.1 (accepts.2 s h)
        exact ⟨a.snapshot, rfl, .inr hnew.2⟩
      · exact ⟨s, h, .inl rfl⟩
  | close uri j present =>
      by_cases hj : j = id
      · subst hj
        exact .inl (hw.retired_erase present)
      · refine .inr ⟨s, ?_, .inl rfl⟩
        simp only [document, OrderedMap.get?_erase]
        rw [if_neg hj]
        exact h

/-! ## ids that lead nowhere any more -/

/-- The owner is closed for good, or its current snapshot is of a later pass. -/
def Spent (w : Workspace) (d : DefId) : Prop :=
  w.Retired d.document ∨
    ∃ s, w.document d.document = some s ∧ d.generation.stamp < s.generation.stamp

theorem Effect.spent {w w' : Workspace} {op : Operation} {d : DefId} (e : w.Effect op w')
    (hw : w.Consistent) (h : w.Spent d) : w'.Spent d := by
  obtain hretired | ⟨s, hs, hlt⟩ := h
  · exact .inl (e.retired hretired)
  · obtain hretired | ⟨s', hs', hnew⟩ := e.succession hw hs
    · exact .inl hretired
    · refine .inr ⟨s', hs', ?_⟩
      obtain rfl | hnew := hnew
      · exact hlt
      · exact Nat.lt_trans hlt hnew

theorem Spent.run {w : Workspace} {d : DefId} (h : w.Spent d) (hw : w.Consistent)
    (ops : List Operation) : (w.run ops).Spent d := by
  induction ops generalizing w with
  | nil => exact h
  | cons op ops ih =>
      have e := w.effect_after op
      exact ih (e.spent hw h) (e.consistent hw)

theorem Effect.sourceSymbol {w w' : Workspace} {op : Operation} {d : DefId} {s : SourceSymbol}
    (e : w.Effect op w') (hw : w.Consistent) (h : w.sourceSymbol d = some s) :
    w'.sourceSymbol d = some s ∨ w'.Spent d := by
  obtain ⟨owner, howner, hversion, hslot⟩ := sourceSymbol_eq_some_iff.1 h
  obtain hretired | ⟨owner', howner', hsame | hlt⟩ := e.succession hw howner
  · exact .inr (.inl hretired)
  · subst hsame
    exact .inl (sourceSymbol_eq_some_iff.2 ⟨owner', howner', hversion, hslot⟩)
  · rw [Snapshot.generation, hversion] at hlt
    exact .inr (.inr ⟨owner', howner', hlt⟩)

theorem consistent_moment (ops : List Operation) (n : Nat) : (moment ops n).Consistent :=
  consistent_run (ops.take n)

theorem Spent.moment {ops : List Operation} {d : DefId} {i j : Nat} (hij : i ≤ j)
    (h : (moment ops i).Spent d) : (moment ops j).Spent d := by
  obtain ⟨more, hmore⟩ := exists_moment_eq_run ops hij
  rw [hmore]
  exact h.run (consistent_moment ops i) more

end Workspace

end BslNav
