import BslNav.Proofs.Workspace.Navigation

/-!
# BslNav.Proofs.Workspace.Identity

Ids and stamps are given once.

A workspace forgets a uri when it closes, so what it holds at a moment does not
show what it has handed out before.  `yielded` gathers what operations returned
along a run: the versions issued (`issued`) and the snapshots taken up
(`published`).  What was issued has `Passed`: both counters of the workspace lie
above it, and its id is in use for no other uri than the one it was issued for.
One operation preserves this (`Effect.passed`), so whole runs do.

* `ids_run` — a uri keeps its id until it closes;
* `passed_of_mem_issued` — everything issued along a run has passed;
* `identities_run` — the two together, with what follows for a late pass.
-/

namespace BslNav

namespace Workspace

/-! ## what operations returned -/

/-- A version that was issued, and the uri it was issued for. -/
structure Issue where
  uri : String
  version : Version

/-- What an operation issues. -/
def issue? (w : Workspace) : Operation → Option Issue
  | .beginPass uri => some ⟨uri, (w.beginAnalysis uri).1⟩
  | _ => none

/-- The snapshot that an operation makes current. -/
def publication? (w : Workspace) : Operation → Option Snapshot
  | .offer a => if (w.publish a.snapshot).1.isAccepted then some a.snapshot else none
  | _ => none

/-- What the operations of a run return, in order. -/
def yielded {α : Type} (returns : Workspace → Operation → Option α) (w : Workspace) :
    List Operation → List α
  | [] => []
  | op :: ops => (returns w op).toList ++ yielded returns (w.after op) ops

theorem yielded_append {α : Type} (returns : Workspace → Operation → Option α) (w : Workspace)
    (ops more : List Operation) :
    yielded returns w (ops ++ more) =
      yielded returns w ops ++ yielded returns (w.run ops) more := by
  induction ops generalizing w with
  | nil => rfl
  | cons op ops ih => simp only [List.cons_append, yielded, ih, run_cons, List.append_assoc]

/-- The versions issued along a run. -/
def issued (ops : List Operation) : List Issue := yielded issue? empty ops

/-- The snapshots that became current along a run. -/
def published (ops : List Operation) : List Snapshot := yielded publication? empty ops

theorem issue?_eq_some_iff {w : Workspace} {op : Operation} {i : Issue} :
    w.issue? op = some i ↔
      ∃ uri, op = .beginPass uri ∧ i = ⟨uri, (w.beginAnalysis uri).1⟩ := by
  cases op <;> simp [issue?, eq_comm]

/-- A version is issued for the uri whose pass begins. -/
theorem mem_of_mem_yielded_issue? {w : Workspace} {ops : List Operation} {i : Issue}
    (h : i ∈ yielded issue? w ops) : .beginPass i.uri ∈ ops := by
  induction ops generalizing w with
  | nil => simp [yielded] at h
  | cons op ops ih =>
      obtain h | h := List.mem_append.1 h
      · obtain ⟨uri, rfl, rfl⟩ := issue?_eq_some_iff.1 (Option.mem_toList.1 h)
        exact List.mem_cons_self
      · exact List.mem_cons_of_mem op (ih h)

theorem publication?_offer {w : Workspace} {a : Analysis} (h : w.Accepts a.snapshot) :
    w.publication? (.offer a) = some a.snapshot := by
  have haccepted : (w.publish a.snapshot).1.isAccepted = true := by
    rw [publish_fst]
    exact (isAccepted_judge_iff w a.snapshot).2 h
  rw [publication?, if_pos haccepted]

/-- What is current after an operation was so before, or the operation made it
so. -/
theorem Effect.kept_or_published {w w' : Workspace} {op : Operation} {id : DocumentId}
    {s : Snapshot} (e : w.Effect op w') (h : w'.document id = some s) :
    w.document id = some s ∨ w.publication? op = some s := by
  cases e with
  | keep g => exact .inl h
  | assign uri g => exact .inl h
  | accept a accepts =>
      simp only [document, OrderedMap.get?_insert] at h
      split at h
      · rw [← h]
        exact .inr (publication?_offer accepts)
      · exact .inl h
  | close uri =>
      simp only [document, OrderedMap.get?_erase] at h
      split at h
      · contradiction
      · exact .inl h

theorem kept_or_mem_yielded {w : Workspace} {ops : List Operation} {id : DocumentId}
    {s : Snapshot} (h : (w.run ops).document id = some s) :
    w.document id = some s ∨ s ∈ yielded publication? w ops := by
  induction ops generalizing w with
  | nil => exact .inl h
  | cons op ops ih =>
      obtain hdoc | hmem := ih h
      · obtain hdoc | hpublished := (w.effect_after op).kept_or_published hdoc
        · exact .inl hdoc
        · refine .inr (List.mem_append_left _ ?_)
          rw [hpublished]
          exact Option.mem_toList.2 rfl
      · exact .inr (List.mem_append_right _ hmem)

/-- What is current was published on the way. -/
theorem mem_published_of_document {ops : List Operation} {id : DocumentId} {s : Snapshot}
    (h : (empty.run ops).document id = some s) : s ∈ published ops := by
  obtain hdoc | hmem := kept_or_mem_yielded h
  · simp [empty, document] at hdoc
  · exact hmem

/-! ## a uri keeps its id -/

theorem documentId_of_present {w : Workspace} {uri : String} {id : DocumentId}
    (h : w.ids.get? uri = some id) : w.documentId uri = (id, w) := by
  simp only [documentId, h]

theorem documentId_of_absent {w : Workspace} {uri : String} (h : w.ids.get? uri = none) :
    (w.documentId uri).1 = ⟨w.nextIndex⟩ := by
  simp only [documentId, h]

/-- A pass gets the stamp after the last one. -/
theorem generation_beginAnalysis (w : Workspace) (uri : String) :
    (w.beginAnalysis uri).1.generation = w.lastGeneration.next := by
  cases h : w.ids.get? uri <;> simp [beginAnalysis, documentId, DocumentId.atPass, h]

/-- Whoever asks for an id finds it registered. -/
theorem ids_documentId (w : Workspace) (uri : String) :
    (w.documentId uri).2.ids.get? uri = some (w.documentId uri).1 := by
  cases h : w.ids.get? uri with
  | some id => rw [documentId_of_present h, h]
  | none => simp [documentId, h, OrderedMap.get?_insert]

/-- A request registers the uri under the id that it is told. -/
theorem ids_after_request (w : Workspace) {uri : String} {op : Operation}
    (h : op = .identify uri ∨ op = .beginPass uri) :
    (w.after op).ids.get? uri = some (w.documentId uri).1 := by
  obtain rfl | rfl := h <;> exact ids_documentId w uri

theorem Effect.ids_kept {w w' : Workspace} {op : Operation} {uri : String} {id : DocumentId}
    (e : w.Effect op w') (h : w.ids.get? uri = some id) (hop : op ≠ .close uri) :
    w'.ids.get? uri = some id := by
  cases e with
  | keep g => exact h
  | accept a => exact h
  | assign u g _ absent =>
      have hne : u ≠ uri := by
        rintro rfl
        rw [absent] at h
        contradiction
      rw [OrderedMap.get?_insert, if_neg hne, h]
  | close u j =>
      have hne : u ≠ uri := by
        rintro rfl
        exact hop rfl
      rw [OrderedMap.get?_erase, if_neg hne, h]

theorem ids_run {w : Workspace} {uri : String} {id : DocumentId} {ops : List Operation}
    (h : w.ids.get? uri = some id) (hops : .close uri ∉ ops) :
    (w.run ops).ids.get? uri = some id := by
  induction ops generalizing w with
  | nil => exact h
  | cons op ops ih =>
      rw [List.mem_cons, not_or] at hops
      exact ih ((w.effect_after op).ids_kept h (Ne.symm hops.1)) hops.2

/-- After a request the uri has the id that the request was told, until it
closes. -/
theorem ids_run_request (ops : List Operation) {more : List Operation} {uri : String}
    {op : Operation} (h : op = .identify uri ∨ op = .beginPass uri) (hmore : .close uri ∉ more) :
    (empty.run (ops ++ op :: more)).ids.get? uri = some ((empty.run ops).documentId uri).1 := by
  rw [run_append, run_cons]
  exact ids_run (ids_after_request _ h) hmore

/-- An id in use is told to no other uri. -/
theorem Consistent.documentId_ne {w : Workspace} (hw : w.Consistent) {u v : String}
    {id : DocumentId} (h : w.ids.get? u = some id) (hne : u ≠ v) : (w.documentId v).1 ≠ id := by
  rintro rfl
  cases hv : w.ids.get? v with
  | some j =>
      rw [documentId_of_present hv] at h
      exact hne (hw.uri_eq h hv)
  | none =>
      rw [documentId_of_absent hv] at h
      exact Nat.lt_irrefl _ (hw.index_lt h)

/-! ## an id that was given up -/

/-- Closing retires the id that it gives up. -/
theorem Consistent.retired_after_close {w : Workspace} (hw : w.Consistent) {uri : String}
    {c : Closed} (h : (w.close uri).1 = some c) : (w.after (.close uri)).Retired c.id := by
  rw [after]
  unfold Workspace.close at h ⊢
  cases hid : w.ids.get? uri with
  | none => simp [hid] at h
  | some id =>
      simp only [hid, Option.some.injEq] at h
      rw [← h]
      exact hw.retired_erase hid

theorem Retired.documentId_ne {w : Workspace} {id : DocumentId} (h : w.Retired id) (uri : String) :
    (w.documentId uri).1 ≠ id := by
  rintro rfl
  cases huri : w.ids.get? uri with
  | some j =>
      rw [documentId_of_present huri] at h
      exact h.2 ⟨uri, huri⟩
  | none =>
      rw [documentId_of_absent huri] at h
      exact Nat.lt_irrefl _ h.1

/-- An offer under a retired id is turned down, whatever its uri. -/
theorem Retired.publish {w : Workspace} {s : Snapshot} (h : w.Retired s.id) :
    (w.publish s).1.isAccepted = false ∧ (w.publish s).2 = w := by
  have hrefused : ¬ w.Accepts s := fun haccepts => h.2 ⟨s.uri, haccepts.1⟩
  refine ⟨?_, publish_of_not_accepts hrefused⟩
  rw [publish_fst, ← Bool.not_eq_true, isAccepted_judge_iff]
  exact hrefused

/-! ## what was issued is not issued again -/

/-- The workspace has moved on past an issue: its counters lie above the version,
and no uri but the one that it was issued for has the id. -/
structure Passed (w : Workspace) (i : Issue) : Prop where
  stamp_le : i.version.generation.stamp ≤ w.lastGeneration.stamp
  index_lt : i.version.document.index < w.nextIndex
  uri_eq : ∀ uri, w.ids.get? uri = some i.version.document → uri = i.uri

theorem Effect.passed {w w' : Workspace} {op : Operation} {i : Issue} (e : w.Effect op w')
    (h : w.Passed i) : w'.Passed i := by
  cases e with
  | keep g stamp => exact ⟨Nat.le_trans h.stamp_le stamp, h.index_lt, h.uri_eq⟩
  | accept a => exact ⟨h.stamp_le, h.index_lt, h.uri_eq⟩
  | assign u g stamp =>
      refine ⟨Nat.le_trans h.stamp_le stamp, Nat.lt_succ_of_lt h.index_lt, ?_⟩
      intro uri huri
      rw [OrderedMap.get?_insert] at huri
      split at huri
      · -- the id that is assigned now lies above the one issued before
        have hlt := h.index_lt
        rw [← Option.some.inj huri] at hlt
        exact absurd hlt (Nat.lt_irrefl _)
      · exact h.uri_eq uri huri
  | close u id =>
      refine ⟨h.stamp_le, h.index_lt, ?_⟩
      intro uri huri
      rw [OrderedMap.get?_erase] at huri
      split at huri
      · contradiction
      · exact h.uri_eq uri huri

theorem Passed.run {w : Workspace} {i : Issue} (h : w.Passed i) (ops : List Operation) :
    (w.run ops).Passed i := by
  induction ops generalizing w with
  | nil => exact h
  | cons op ops ih => exact ih ((w.effect_after op).passed h)

/-- What a pass is issued lies behind the workspace at once. -/
theorem Consistent.passed_beginAnalysis {w : Workspace} (hw : w.Consistent) (uri : String) :
    (w.after (.beginPass uri)).Passed ⟨uri, (w.beginAnalysis uri).1⟩ := by
  have hnext := (w.effect_after (.beginPass uri)).consistent hw
  have hid := w.ids_after_request (.inr (Eq.refl (Operation.beginPass uri)))
  refine ⟨Nat.le_refl _, hnext.index_lt hid, ?_⟩
  intro v hv
  exact hnext.uri_eq hv hid

theorem Consistent.passed_of_mem {w : Workspace} (hw : w.Consistent) {ops : List Operation}
    {i : Issue} (h : i ∈ yielded issue? w ops) : (w.run ops).Passed i := by
  induction ops generalizing w with
  | nil => simp [yielded] at h
  | cons op ops ih =>
      obtain h | h := List.mem_append.1 h
      · obtain ⟨uri, rfl, rfl⟩ := issue?_eq_some_iff.1 (Option.mem_toList.1 h)
        exact (hw.passed_beginAnalysis uri).run ops
      · exact ih ((w.effect_after op).consistent hw) h

/-- Everything issued along a run lies behind where it ends. -/
theorem passed_of_mem_issued {ops : List Operation} {i : Issue} (h : i ∈ issued ops) :
    (empty.run ops).Passed i := consistent_empty.passed_of_mem h

/-- A pass is stamped above all that were issued before it. -/
theorem stamp_lt_beginAnalysis {ops : List Operation} {i : Issue} (h : i ∈ issued ops)
    (uri : String) :
    i.version.generation.stamp < ((empty.run ops).beginAnalysis uri).1.generation.stamp := by
  rw [generation_beginAnalysis]
  exact Nat.lt_succ_of_le (passed_of_mem_issued h).stamp_le

/-! ## the latest pass over a uri -/

/-- The last version that a uri was issued is the highest issued for its id. -/
theorem stamp_lt_of_mem_issued {ops since : List Operation} {uri : String} {i : Issue}
    (hlast : .beginPass uri ∉ since) (hopen : .close uri ∉ since)
    (hi : i ∈ issued (ops ++ .beginPass uri :: since))
    (hdocument : i.version.document = ((empty.run ops).beginAnalysis uri).1.document)
    (hne : i.version ≠ ((empty.run ops).beginAnalysis uri).1) :
    i.version.generation.stamp < ((empty.run ops).beginAnalysis uri).1.generation.stamp := by
  have hpresent := ids_run_request ops (.inr rfl) hopen
  have huri : uri = i.uri := (passed_of_mem_issued hi).uri_eq uri (by rw [hpresent, hdocument]; rfl)
  rw [issued, yielded_append] at hi
  obtain hbefore | hi := List.mem_append.1 hi
  · exact stamp_lt_beginAnalysis hbefore uri
  · obtain hnow | hafter := List.mem_append.1 hi
    · obtain ⟨v, hv, rfl⟩ := issue?_eq_some_iff.1 (Option.mem_toList.1 hnow)
      cases hv
      exact absurd rfl hne
    · rw [huri] at hlast
      exact absurd (mem_of_mem_yielded_issue? hafter) hlast

/-- **Ids and stamps are never used twice.**  A pass is stamped above all passes
before it, over whichever document, and carries the id of its uri.  A uri is told
one id from its registration to its closing, and no other uri is told it.  An id
that was given up is told to no uri and shows no snapshot from then on, and an
offer under it changes nothing.  So while a uri stays open, an offer at the last
version issued for it is taken up, if whatever was published came of other passes. -/
theorem identities_run (ops : List Operation) :
    (∀ uri, ((empty.run ops).beginAnalysis uri).1.document = ((empty.run ops).documentId uri).1 ∧
      ∀ i ∈ issued ops,
        i.version.generation.stamp < ((empty.run ops).beginAnalysis uri).1.generation.stamp) ∧
    (∀ uri op more, op = .identify uri ∨ op = .beginPass uri → .close uri ∉ more →
      ((empty.run (ops ++ op :: more)).documentId uri).1 = ((empty.run ops).documentId uri).1) ∧
    (∀ u v id, (empty.run ops).ids.get? u = some id → u ≠ v →
      ((empty.run ops).documentId v).1 ≠ id) ∧
    (∀ uri c more, ((empty.run ops).close uri).1 = some c →
      (∀ v, ((empty.run (ops ++ .close uri :: more)).documentId v).1 ≠ c.id) ∧
      (empty.run (ops ++ .close uri :: more)).document c.id = none ∧
      ∀ s : Snapshot, s.id = c.id →
        ((empty.run (ops ++ .close uri :: more)).publish s).1.isAccepted = false ∧
        ((empty.run (ops ++ .close uri :: more)).publish s).2 =
          empty.run (ops ++ .close uri :: more)) ∧
    ∀ uri since s, .beginPass uri ∉ since → .close uri ∉ since →
      s.uri = uri → s.version = ((empty.run ops).beginAnalysis uri).1 →
      (∀ t ∈ published (ops ++ .beginPass uri :: since), t.version ≠ s.version ∧
        ∃ i ∈ issued (ops ++ .beginPass uri :: since), i.version = t.version) →
      ((empty.run (ops ++ .beginPass uri :: since)).publish s).1.isAccepted = true := by
  have hw := consistent_run ops
  refine ⟨?_, ?_, ?_, ?_, ?_⟩
  · intro uri
    exact ⟨rfl, fun i hi => stamp_lt_beginAnalysis hi uri⟩
  · intro uri op more hop hmore
    rw [documentId_of_present (ids_run_request ops hop hmore)]
  · intro u v id hu hne
    exact hw.documentId_ne hu hne
  · intro uri c more hc
    have hretired : (empty.run (ops ++ .close uri :: more)).Retired c.id := by
      rw [run_append, run_cons]
      exact (hw.retired_after_close hc).run more
    refine ⟨hretired.documentId_ne, hretired.document_eq_none (consistent_run _), ?_⟩
    intro s hs
    rw [← hs] at hretired
    exact hretired.publish
  · intro uri since s hlast hopen huri hversion hpublished
    rw [publish_fst, isAccepted_judge_iff]
    constructor
    · rw [huri, ids_run_request ops (.inr rfl) hopen, Snapshot.id, hversion]
      rfl
    · intro current hcurrent
      obtain ⟨hne, i, hi, hissue⟩ := hpublished current (mem_published_of_document hcurrent)
      have hsame : current.version.document = s.version.document :=
        (consistent_run _).id_eq hcurrent
      rw [Version.isSupersededBy_iff]
      refine ⟨hsame, ?_⟩
      rw [hversion] at hsame hne ⊢
      rw [← hissue] at hsame hne ⊢
      exact stamp_lt_of_mem_issued hlast hopen hi hsame hne

/-! ## an earlier pass that ends first -/

/-- What the second of two passes over the first document finds. -/
def secondPass : Snapshot := blankSnapshot ⟨⟨0⟩, ⟨2⟩⟩ "owner"

/-- Two passes over the document, of which the first has ended. -/
def twoPasses : List Operation :=
  [.beginPass "owner"] ++ .beginPass "owner" :: [.offer sampleOwner]

theorem published_twoPasses : ∀ t ∈ published twoPasses, t.version ≠ secondPass.version ∧
    ∃ i ∈ issued twoPasses, i.version = t.version := by
  intro t ht
  obtain rfl : t = sampleOwner.snapshot := List.mem_singleton.1 ht
  exact ⟨by decide, ⟨"owner", ⟨⟨0⟩, ⟨1⟩⟩⟩, List.mem_cons_self, rfl⟩

theorem isAccepted_publish_secondPass :
    .beginPass "owner" ∉ [Operation.offer sampleOwner] ∧
    .close "owner" ∉ [Operation.offer sampleOwner] ∧ secondPass.uri = "owner" ∧
    secondPass.version = ((empty.run [.beginPass "owner"]).beginAnalysis "owner").1 ∧
    (∀ t ∈ published twoPasses, t.version ≠ secondPass.version ∧
      ∃ i ∈ issued twoPasses, i.version = t.version) ∧
    ((empty.run twoPasses).publish secondPass).1.isAccepted = true := by
  have hlast : .beginPass "owner" ∉ [Operation.offer sampleOwner] := by simp
  have hopen : .close "owner" ∉ [Operation.offer sampleOwner] := by simp
  exact ⟨hlast, hopen, rfl, rfl, published_twoPasses,
    (identities_run [.beginPass "owner"]).2.2.2.2 "owner" _ secondPass hlast hopen rfl rfl
      published_twoPasses⟩

end Workspace

end BslNav
