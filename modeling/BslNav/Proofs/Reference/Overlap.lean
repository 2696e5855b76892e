import BslNav.Proofs.Document.Analysis
import BslNav.Proofs.Reference.Order

/-!
# BslNav.Proofs.Reference.Overlap

Which recordings of usages are refused.

The index sorts the usages by start alone and compares neighbours.  A range may
cover others that come much later in this order, contain them or start with them:
none of this gets by.

* `not_overlapping_iff` — a recording is free of overlaps if no two of its usages
  meet;
* `firstOverlap_sortBy_eq_none_iff` — and sorting brings neighbours together that
  meet, if any do;
* `refused_iff_overlapping` — so a recording is refused exactly if two of its
  usages share a position, by the index and by the draft that builds it.
-/

namespace BslNav

open OccurrenceIndex

/-- Usages at two different places of a recording share a position. -/
def Overlapping (recorded : List Occurrence) : Prop :=
  ∃ (i j : Nat) (a b : Occurrence), i ≠ j ∧ recorded[i]? = some a ∧ recorded[j]? = some b ∧
    ∃ p, a.range.contains p = true ∧ b.range.contains p = true

section Recording

variable {recorded : List Occurrence}

theorem not_overlapping_iff (valid : ∀ o ∈ recorded, o.range.Valid) :
    ¬ Overlapping recorded ↔ Apart recorded := by
  have hmeet : ∀ {a b : Occurrence}, a ∈ recorded → b ∈ recorded →
      (a.range.intersects b.range = true ↔
        ∃ p, a.range.contains p = true ∧ b.range.contains p = true) :=
    fun ha hb => Range.intersects_iff_exists (valid _ ha) (valid _ hb)
  constructor
  · intro h
    refine ⟨valid, List.pairwise_iff_getElem.mpr fun i j hi hj hij => ?_⟩
    apply Bool.eq_false_iff.mpr
    intro hboth
    have hshare := (hmeet (List.getElem_mem hi) (List.getElem_mem hj)).mp hboth
    exact h ⟨i, j, _, _, Nat.ne_of_lt hij, List.getElem?_eq_getElem hi,
      List.getElem?_eq_getElem hj, hshare⟩
  · rintro ⟨-, disjoint⟩ ⟨i, j, a, b, hij, ha, hb, hshare⟩
    obtain ⟨hi, rfl⟩ := List.getElem?_eq_some_iff.mp ha
    obtain ⟨hj, rfl⟩ := List.getElem?_eq_some_iff.mp hb
    have hboth := (hmeet (List.getElem_mem hi) (List.getElem_mem hj)).mpr hshare
    have hpair := List.pairwise_iff_getElem.mp disjoint
    obtain hlt | hlt := Nat.lt_or_gt_of_ne hij
    · simp [hpair i j hi hj hlt] at hboth
    · rw [Range.intersects_comm] at hboth
      simp [hpair j i hj hi hlt] at hboth

/-- Comparing neighbours after sorting compares all pairs. -/
theorem firstOverlap_sortBy_eq_none_iff (valid : ∀ o ∈ recorded, o.range.Valid) :
    firstOverlap (sortBy startsNoLater recorded) = none ↔ Apart recorded := by
  have hperm := sortBy_perm startsNoLater recorded
  have hsorted := pairwise_sortBy startsNoLater_total startsNoLater_trans recorded
  have hvalid : ∀ o ∈ sortBy startsNoLater recorded, o.range.Valid :=
    fun o ho => valid o (hperm.mem_iff.mp ho)
  rw [firstOverlap_eq_none_iff hsorted hvalid]
  constructor
  · intro row
    have hdisjoint : (sortBy startsNoLater recorded).Pairwise
        fun a b => a.range.intersects b.range = false :=
      (hsorted.and row).imp_of_mem fun _ hb hab =>
        (intersects_eq_false_iff hab.1 (hvalid _ hb)).mpr hab.2
    exact Apart.of_perm ⟨hvalid, hdisjoint⟩ hperm.symm
  · exact Apart.precedes_sortBy

theorem ofList_eq_error_iff :
    (∃ v, ofList recorded = .error v) ↔ firstOverlap (sortBy startsNoLater recorded) ≠ none := by
  rw [ofList]
  cases firstOverlap (sortBy startsNoLater recorded) <;> simp

/-- A draft is refused exactly if the index of its usages is. -/
theorem Draft.finish_eq_error_iff {d : Draft} :
    (∃ v, d.finish = .error v) ↔ ∃ v, ofList d.recorded = .error v := by
  unfold finish
  split
  · next hindex => simp [hindex]
  · next hindex => simp [hindex]

/-- **Overlap detection is complete.**  A recording of ranges that are the right way
round is refused exactly if usages at two different places of it share a position:
by the index, and by every draft in which the usages were recorded. -/
theorem refused_iff_overlapping (valid : ∀ o ∈ recorded, o.range.Valid) :
    ((∃ v, ofList recorded = .error v) ↔ Overlapping recorded) ∧
    ∀ (d : Draft) (declared : List SourceSymbol), d.Holds declared recorded →
      ((∃ v, d.finish = .error v) ↔ Overlapping recorded) := by
  have hindex : (∃ v, ofList recorded = .error v) ↔ Overlapping recorded := by
    rw [ofList_eq_error_iff, Ne, firstOverlap_sortBy_eq_none_iff valid,
      ← not_overlapping_iff valid, Classical.not_not]
  refine ⟨hindex, fun d declared hd => ?_⟩
  rw [Draft.finish_eq_error_iff, hd.recorded_eq]
  exact hindex

end Recording

/-- The last one recorded starts together with the second, covers it, and ends where
the first begins. -/
def nestedUsages : List Occurrence :=
  [usageAt "c" ⟨⟨2, 0⟩, ⟨2, 4⟩⟩, usageAt "b" ⟨⟨0, 0⟩, ⟨0, 3⟩⟩, usageAt "a" ⟨⟨0, 0⟩, ⟨2, 0⟩⟩]

theorem refused_nestedUsages :
    (∀ o ∈ nestedUsages, o.range.Valid) ∧ Overlapping nestedUsages ∧
      (∃ v, ofList nestedUsages = .error v) ∧
      ∃ v, ((Draft.start ⟨⟨0⟩, ⟨0⟩⟩ "a" "" default).record nestedUsages).finish = .error v := by
  have hvalid : ∀ o ∈ nestedUsages, o.range.Valid := by decide
  have hoverlap : Overlapping nestedUsages :=
    ⟨0, 2, _, _, by decide, rfl, rfl, ⟨2, 0⟩, by decide, by decide⟩
  obtain ⟨hindex, hdraft⟩ := refused_iff_overlapping hvalid
  have hholds := Draft.Holds.record nestedUsages (.start ⟨⟨0⟩, ⟨0⟩⟩ "a" "" default)
  exact ⟨hvalid, hoverlap, hindex.mpr hoverlap, (hdraft _ _ hholds).mpr hoverlap⟩

end BslNav
