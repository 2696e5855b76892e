import Mathlib.Data.Set.Card
import BslNav.Proofs.Workspace.Run

/-!
# BslNav.Proofs.Workspace.Listing

The list of current snapshots and the two ways to look one up.

A workspace keeps its ids by uri and its snapshots by id, in two maps that four
operations update under different conditions.  What `Consistent` says of the two
maps entry by entry is read here off the whole of them:

* `Consistent.document_eq_some_iff` — looking up by id and by uri find the same;
* `Consistent.map_id_snapshots` — the snapshots are listed by id, so that no id
  and no uri is listed twice;
* `Consistent.encard_uris` — and there are as many as uris that show one.
-/

namespace BslNav

namespace Workspace

/-- A snapshot is current for an id exactly if it is of that id and current for
its uri. -/
theorem Consistent.document_eq_some_iff {w : Workspace} (h : w.Consistent) {id : DocumentId}
    {s : Snapshot} :
    w.document id = some s ↔ s.id = id ∧ w.documentByUri s.uri = some s := by
  constructor
  · intro hs
    exact ⟨h.id_eq hs, h.documentByUri_uri hs⟩
  · rintro ⟨rfl, hs⟩
    exact (h.of_documentByUri hs).2.2

theorem mem_snapshots_iff {w : Workspace} {s : Snapshot} :
    s ∈ w.snapshots ↔ ∃ id, w.document id = some s := OrderedMap.mem_values_iff

theorem Consistent.mem_snapshots_iff_documentByUri {w : Workspace} (h : w.Consistent)
    {s : Snapshot} : s ∈ w.snapshots ↔ w.documentByUri s.uri = some s := by
  rw [mem_snapshots_iff]
  simp only [h.document_eq_some_iff, exists_eq_left']

/-! ## the list -/

/-- The snapshots are listed by the ids under which they stand. -/
theorem Consistent.map_id_snapshots {w : Workspace} (h : w.Consistent) :
    w.snapshots.map Snapshot.id = w.documents.keys := by
  rw [snapshots, OrderedMap.values, OrderedMap.keys, List.map_map]
  refine List.map_congr_left fun e he => ?_
  exact h.id_eq (OrderedMap.get?_eq_some_iff.2 he)

theorem Consistent.nodup_map_id {w : Workspace} (h : w.Consistent) :
    (w.snapshots.map Snapshot.id).Nodup := by
  rw [h.map_id_snapshots]
  exact w.documents.nodup

/-- A uri shows one snapshot at most. -/
theorem Consistent.nodup_map_uri {w : Workspace} (h : w.Consistent) :
    (w.snapshots.map Snapshot.uri).Nodup := by
  have hids := List.pairwise_map.1 h.nodup_map_id
  refine List.pairwise_map.2 (hids.imp_of_mem fun {s t} hs ht hne huri => hne ?_)
  have hsdoc := h.mem_snapshots_iff_documentByUri.1 hs
  have htdoc := h.mem_snapshots_iff_documentByUri.1 ht
  rw [huri, htdoc] at hsdoc
  rw [Option.some.inj hsdoc]

theorem Consistent.mem_map_uri_iff {w : Workspace} (h : w.Consistent) {uri : String} :
    uri ∈ w.snapshots.map Snapshot.uri ↔ (w.documentByUri uri).isSome = true := by
  rw [List.mem_map, Option.isSome_iff_exists]
  constructor
  · rintro ⟨s, hs, rfl⟩
    exact ⟨s, h.mem_snapshots_iff_documentByUri.1 hs⟩
  · rintro ⟨s, hs⟩
    obtain ⟨rfl, -, hdoc⟩ := h.of_documentByUri hs
    exact ⟨s, mem_snapshots_iff.2 ⟨s.id, hdoc⟩, rfl⟩

/-- There are as many snapshots as uris that show one. -/
theorem Consistent.encard_uris {w : Workspace} (h : w.Consistent) :
    {uri | (w.documentByUri uri).isSome = true}.encard = w.size := by
  have huris : {uri | (w.documentByUri uri).isSome = true} =
      ((w.snapshots.map Snapshot.uri).toFinset : Set String) := by
    ext uri
    rw [List.coe_toFinset]
    exact h.mem_map_uri_iff.symm
  rw [huris, Set.encard_coe_eq_coe_finsetCard, List.toFinset_card_of_nodup h.nodup_map_uri,
    List.length_map, snapshots, OrderedMap.length_values, size]

/-- **Ids, uris and snapshots belong together, whatever was done.**  No two uris
share an id, and the ids in use lie below the next one.  A snapshot stands under
its own id, which its uri has, so that an id shows exactly the snapshot of that
id that its uri shows.  The list has every current snapshot, no id and no uri
twice, and its length is the number of uris that show a snapshot. -/
theorem snapshots_run (ops : List Operation) :
    (∀ u v id, (empty.run ops).ids.get? u = some id → (empty.run ops).ids.get? v = some id →
      u = v) ∧
    (∀ u id, (empty.run ops).ids.get? u = some id → id.index < (empty.run ops).nextIndex) ∧
    (∀ id s, (empty.run ops).document id = some s →
      s.id = id ∧ (empty.run ops).ids.get? s.uri = some id) ∧
    (∀ id s, (empty.run ops).document id = some s ↔
      s.id = id ∧ (empty.run ops).documentByUri s.uri = some s) ∧
    (∀ s, s ∈ (empty.run ops).snapshots ↔ ∃ id, (empty.run ops).document id = some s) ∧
    ((empty.run ops).snapshots.map Snapshot.id).Nodup ∧
    ((empty.run ops).snapshots.map Snapshot.uri).Nodup ∧
    (empty.run ops).size = (empty.run ops).snapshots.length ∧
    {uri | ((empty.run ops).documentByUri uri).isSome = true}.encard = (empty.run ops).size := by
  have hw := consistent_run ops
  refine ⟨fun _ _ _ hu hv => hw.uri_eq hu hv, fun _ _ hu => hw.index_lt hu, ?_, ?_, ?_,
    hw.nodup_map_id, hw.nodup_map_uri, ?_, hw.encard_uris⟩
  · intro id s hs
    exact ⟨hw.id_eq hs, hw.ids_uri hs⟩
  · intro id s
    exact hw.document_eq_some_iff
  · intro s
    exact mem_snapshots_iff
  · rw [snapshots, OrderedMap.length_values, size]

end Workspace

end BslNav
