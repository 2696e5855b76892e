import BslNav.Proofs.Reference.Lookup

/-!
# BslNav.Proofs.Reference.Order

Usages that do not meet have one index, whatever the order of recording.

Ranges that are the right way round and do not meet start at different
positions, so sorting them by start leaves nothing open: any two recordings of
the same usages come out as the same row.  Look-up in that row is a scan of
either recording:

* `Apart.precedes_sortBy` — sorted by start, the usages stand in a row;
* `eq_of_precedes_of_perm` — of the same usages there is one row only;
* `filter_contains_eq_find?` — at a position the recording has what the search
  finds, and nothing else.
-/

namespace BslNav

open OccurrenceIndex

/-- Usages as a collector promises them: every range is the right way round and
no two of them meet. -/
structure Apart (os : List Occurrence) : Prop where
  valid : ∀ o ∈ os, o.range.Valid
  disjoint : os.Pairwise fun a b => a.range.intersects b.range = false

namespace Apart

theorem of_perm {os os' : List Occurrence} (h : Apart os) (hperm : os'.Perm os) : Apart os' where
  valid := fun o ho => h.valid o (hperm.mem_iff.1 ho)
  disjoint := by
    refine (hperm.pairwise_iff fun {a b} hab => ?_).2 h.disjoint
    rw [Range.intersects_comm]
    exact hab

/-- Sorted by start, the usages stand in a row. -/
theorem precedes_sortBy {os : List Occurrence} (h : Apart os) :
    (sortBy startsNoLater os).Pairwise Occurrence.Precedes := by
  have hsorted := h.of_perm (sortBy_perm startsNoLater os)
  have horder := pairwise_sortBy startsNoLater_total startsNoLater_trans os
  refine (horder.and hsorted.disjoint).imp_of_mem fun _ hb hab => ?_
  exact (intersects_eq_false_iff hab.1 (hsorted.valid _ hb)).1 hab.2

end Apart

namespace OccurrenceIndex

/-- In a row the starts increase. -/
theorem start_lt_of_precedes {os : List Occurrence} (row : os.Pairwise Occurrence.Precedes)
    (valid : ∀ o ∈ os, o.range.Valid) :
    os.Pairwise fun a b => a.range.start < b.range.start :=
  row.imp_of_mem fun ha _ hab => Position.lt_of_le_of_lt (valid _ ha) hab

/-- The usages decide the row. -/
theorem eq_of_precedes_of_perm {os os' : List Occurrence} (valid : ∀ o ∈ os, o.range.Valid)
    (row : os.Pairwise Occurrence.Precedes) (row' : os'.Pairwise Occurrence.Precedes)
    (hperm : os.Perm os') : os = os' := by
  have hlt := start_lt_of_precedes row valid
  have hlt' := start_lt_of_precedes row' fun o ho => valid o (hperm.mem_iff.2 ho)
  refine List.Perm.eq_of_pairwise (fun a b _ _ hab hba => ?_) hlt hlt' hperm
  exact absurd hba (Position.lt_asymm hab)

/-! ## the index of usages that do not meet -/

theorem ofList_eq_ok {recorded : List Occurrence} (h : Apart recorded) :
    ofList recorded = .ok ⟨(sortBy startsNoLater recorded).toArray⟩ := by
  have hsorted := h.of_perm (sortBy_perm startsNoLater recorded)
  have horder := pairwise_sortBy startsNoLater_total startsNoLater_trans recorded
  have hover : firstOverlap (sortBy startsNoLater recorded) = none :=
    (firstOverlap_eq_none_iff horder hsorted.valid).2 h.precedes_sortBy
  rw [ofList]
  simp only [hover]

theorem sortBy_eq_of_perm {recorded permuted : List Occurrence} (h : Apart recorded)
    (hperm : permuted.Perm recorded) :
    sortBy startsNoLater permuted = sortBy startsNoLater recorded := by
  have h' := h.of_perm hperm
  have hsame : (sortBy startsNoLater permuted).Perm (sortBy startsNoLater recorded) :=
    (sortBy_perm _ permuted).trans (hperm.trans (sortBy_perm _ recorded).symm)
  have hvalid := (h'.of_perm (sortBy_perm startsNoLater permuted)).valid
  exact eq_of_precedes_of_perm hvalid h'.precedes_sortBy h.precedes_sortBy hsame

/-- At a position the recording has what the search finds, and nothing else. -/
theorem filter_contains_eq_find? {recorded : List Occurrence} {index : OccurrenceIndex}
    (h : ofList recorded = .ok index) (valid : ∀ o ∈ recorded, o.range.Valid) (p : Position) :
    recorded.filter (fun o => o.range.contains p) = (index.find? p).toList := by
  cases hfind : index.find? p with
  | some o => rw [filter_contains_of_find? h valid hfind, Option.toList_some]
  | none =>
      rw [Option.toList_none, List.filter_eq_nil_iff]
      intro o ho hcontains
      have hsome := (find?_eq_some_iff_of_ofList h valid).2 ⟨ho, hcontains⟩
      rw [hfind] at hsome
      contradiction

/-- **The index is a scan, and forgets the order of recording.**  Usages that do
not meet are accepted, and every other recording of them gives the same index.
It holds what was recorded, as often as it was recorded, with increasing starts.
At every position at most one of the recorded usages contains the position, and
the search finds the one that a scan of the recording finds. -/
theorem ofList_recording_order {recorded : List Occurrence} (apart : Apart recorded) :
    ∃ index, ofList recorded = .ok index ∧
      (∀ permuted : List Occurrence, permuted.Perm recorded → ofList permuted = .ok index) ∧
      index.toList.Perm recorded ∧
      index.toList.Pairwise (fun a b => a.range.start < b.range.start) ∧
      ∀ p, recorded.filter (fun o => o.range.contains p) = (index.find? p).toList ∧
        index.find? p = recorded.find? fun o => o.range.contains p := by
  have hok := ofList_eq_ok apart
  refine ⟨_, hok, ?_, toList_perm_of_ofList hok, ?_, ?_⟩
  · intro permuted hperm
    rw [ofList_eq_ok (apart.of_perm hperm), sortBy_eq_of_perm apart hperm]
  · have hvalid := (apart.of_perm (toList_perm_of_ofList hok)).valid
    exact start_lt_of_precedes (precedes_of_ofList hok apart.valid) hvalid
  · intro p
    have hfilter := filter_contains_eq_find? hok apart.valid p
    refine ⟨hfilter, ?_⟩
    rw [← List.head?_filter, hfilter, Option.head?_toList]

/-! ## an index of usages that stand side by side -/

/-- A usage of a platform symbol. -/
def usageAt (name : String) (range : Range) : Occurrence := ⟨.external ⟨name, .globalMethod⟩, range⟩

/-- Recorded from the end of the text to its start: a usage without width, one over
several lines, and one just after its end. -/
def sideBySide : List Occurrence :=
  [usageAt "c" ⟨⟨3, 2⟩, ⟨3, 4⟩⟩, usageAt "b" ⟨⟨1, 1⟩, ⟨3, 1⟩⟩, usageAt "a" ⟨⟨1, 0⟩, ⟨1, 0⟩⟩]

theorem find?_sideBySide :
    Apart sideBySide ∧
      ∃ index, ofList sideBySide = .ok index ∧ ofList sideBySide.reverse = .ok index ∧
        index.find? ⟨3, 1⟩ = some (usageAt "b" ⟨⟨1, 1⟩, ⟨3, 1⟩⟩) := by
  have hapart : Apart sideBySide := ⟨by decide, by decide⟩
  obtain ⟨index, hok, horder, -, -, hfind⟩ := ofList_recording_order hapart
  refine ⟨hapart, index, hok, horder _ sideBySide.reverse_perm, ?_⟩
  rw [(hfind ⟨3, 1⟩).2]
  decide

end OccurrenceIndex

end BslNav
