import BslNav.Reference.Index

/-!
# BslNav.Proofs.Reference.Lookup

Look-up by position is a search among what was recorded.

The index compares only neighbours before it accepts a recording, and looks at
one occurrence only for each position.  Both are enough, because occurrences
that are sorted by start and of which no two neighbours meet stand in a row,
each ending before the next begins:

* `precedes_of_ofList` — what an accepted index holds stands in such a row;
* `find?_eq_some_iff` — in a row the search finds exactly the occurrences that
  contain the position;
* `filter_contains_of_find?` — and there is only one among those recorded.
-/

namespace BslNav

/-- The first occurrence ends before the second begins. -/
def Occurrence.Precedes (a b : Occurrence) : Prop := a.range.stop < b.range.start

namespace OccurrenceIndex

/-! ## from neighbours to all pairs -/

theorem startsNoLater_total (a b : Occurrence) : startsNoLater a b || startsNoLater b a := by
  simpa [startsNoLater] using Position.le_total a.range.start b.range.start

theorem startsNoLater_trans (a b c : Occurrence) (hab : startsNoLater a b)
    (hbc : startsNoLater b c) : startsNoLater a c := by
  simp only [startsNoLater, decide_eq_true_eq] at *
  exact Position.le_trans hab hbc

/-- Two ranges that start in this order meet unless the first ends before the
second begins. -/
theorem intersects_eq_false_iff {a b : Occurrence} (hstart : startsNoLater a b)
    (hb : b.range.Valid) : a.range.intersects b.range = false ↔ a.Precedes b := by
  have hle : a.range.start ≤ b.range.stop := by
    simp only [startsNoLater, decide_eq_true_eq] at hstart
    exact Position.le_trans hstart hb
  rw [Bool.eq_false_iff, ne_eq, Range.intersects_iff]
  constructor
  · intro h
    exact Position.not_le.1 fun hba => h ⟨hle, hba⟩
  · intro h hmeet
    exact Position.not_le.2 h hmeet.2

/-- Among occurrences sorted by start, comparing the neighbours compares all
pairs. -/
theorem firstOverlap_eq_none_iff {os : List Occurrence}
    (sorted : os.Pairwise fun a b => startsNoLater a b) (valid : ∀ o ∈ os, o.range.Valid) :
    firstOverlap os = none ↔ os.Pairwise Occurrence.Precedes := by
  induction os with
  | nil => simp [firstOverlap]
  | cons a rest ih =>
      cases rest with
      | nil => simp [firstOverlap]
      | cons b rest =>
          obtain ⟨hab, hrest⟩ := List.pairwise_cons.1 sorted
          have hb : b.range.Valid := valid b (by simp)
          have hiff := intersects_eq_false_iff (hab b (by simp)) hb
          have ih := ih hrest fun o ho => valid o (List.mem_cons_of_mem a ho)
          rw [firstOverlap, List.pairwise_cons]
          split <;> rename_i hmeet
          · simp only [reduceCtorEq, false_iff]
            intro h
            rw [hiff.2 (h.1 b (by simp))] at hmeet
            contradiction
          · have hprec : a.Precedes b := hiff.1 (Bool.eq_false_iff.2 hmeet)
            -- what comes after `b` starts no earlier than `b`
            have hall : ∀ c ∈ b :: rest, a.Precedes c := by
              intro c hc
              obtain rfl | hc := List.mem_cons.1 hc
              · exact hprec
              · have hbc : startsNoLater b c := (List.pairwise_cons.1 hrest).1 c hc
                simp only [startsNoLater, decide_eq_true_eq] at hbc
                exact Position.lt_of_lt_of_le hprec hbc
            rw [ih]
            exact ⟨fun h => ⟨hall, h⟩, fun h => h.2⟩

/-! ## what an accepted recording looks like -/

theorem toList_of_ofList {recorded : List Occurrence} {index : OccurrenceIndex}
    (h : ofList recorded = .ok index) :
    index.toList = sortBy startsNoLater recorded ∧
      firstOverlap (sortBy startsNoLater recorded) = none := by
  unfold ofList at h
  simp only at h
  cases hover : firstOverlap (sortBy startsNoLater recorded) with
  | some pair => rw [hover] at h; contradiction
  | none =>
      rw [hover] at h
      simp only [Except.ok.injEq] at h
      subst h
      exact ⟨by simp [toList], rfl⟩

/-- The index holds what was recorded, as often as it was recorded. -/
theorem toList_perm_of_ofList {recorded : List Occurrence} {index : OccurrenceIndex}
    (h : ofList recorded = .ok index) : index.toList.Perm recorded := by
  rw [(toList_of_ofList h).1]
  exact sortBy_perm startsNoLater recorded

/-- The occurrences of an accepted index stand in a row. -/
theorem precedes_of_ofList {recorded : List Occurrence} {index : OccurrenceIndex}
    (h : ofList recorded = .ok index) (valid : ∀ o ∈ recorded, o.range.Valid) :
    index.toList.Pairwise Occurrence.Precedes := by
  obtain ⟨heq, hover⟩ := toList_of_ofList h
  have hsorted := pairwise_sortBy startsNoLater_total startsNoLater_trans recorded
  have hvalid : ∀ o ∈ sortBy startsNoLater recorded, o.range.Valid := fun o ho =>
    valid o ((sortBy_perm startsNoLater recorded).mem_iff.1 ho)
  rw [heq]
  exact (firstOverlap_eq_none_iff hsorted hvalid).1 hover

/-! ## the search -/

theorem precedes_of_lt {index : OccurrenceIndex} {i j : Nat} {a b : Occurrence}
    (row : index.toList.Pairwise Occurrence.Precedes) (hij : i < j)
    (ha : index.occurrences[i]? = some a) (hb : index.occurrences[j]? = some b) :
    a.Precedes b := by
  obtain ⟨hi, rfl⟩ := Array.getElem?_eq_some_iff.1 ha
  obtain ⟨hj, rfl⟩ := Array.getElem?_eq_some_iff.1 hb
  have := List.pairwise_iff_getElem.1 row i j (by simpa [toList] using hi)
    (by simpa [toList] using hj) hij
  simpa [toList] using this

/-- In a row those that start at or before a position come first. -/
theorem partitioned_of_precedes {index : OccurrenceIndex} (p : Position)
    (row : index.toList.Pairwise Occurrence.Precedes) (valid : ∀ o ∈ index.toList, o.range.Valid) :
    Partitioned (fun o : Occurrence => decide (o.range.start ≤ p)) index.occurrences := by
  intro i j a b hij ha hb hbp
  simp only [decide_eq_true_eq] at *
  obtain hlt | rfl := Nat.lt_or_eq_of_le hij
  · have hprec : a.range.stop < b.range.start := precedes_of_lt row hlt ha hb
    have hvalid : a.range.Valid := valid a (Array.mem_toList_iff.2 (Array.mem_of_getElem? ha))
    exact Position.le_trans hvalid (Position.le_trans (Position.le_of_lt hprec) hbp)
  · rw [ha] at hb
    cases hb
    exact hbp

/-- In a row what contains a position is the last to start at or before it: it
ends too late for another. -/
theorem partitionPoint_eq_succ {index : OccurrenceIndex} {p : Position} {o : Occurrence} {i : Nat}
    (row : index.toList.Pairwise Occurrence.Precedes) (valid : ∀ o ∈ index.toList, o.range.Valid)
    (hi : index.occurrences[i]? = some o) (hcontains : o.range.contains p = true) :
    partitionPoint (fun o : Occurrence => decide (o.range.start ≤ p)) index.occurrences = i + 1 := by
  obtain ⟨hstart, hstop⟩ := Range.contains_iff.1 hcontains
  have hpart := partitioned_of_precedes p row valid
  have hlt := (holds_iff_lt_partitionPoint hpart hi).1 (decide_eq_true hstart)
  have hsize := partitionPoint_le_size (fun o : Occurrence => decide (o.range.start ≤ p))
    index.occurrences
  apply Nat.le_antisymm _ hlt
  apply Nat.le_of_not_lt
  intro hnext
  have hj := Array.getElem?_eq_getElem (Nat.lt_of_lt_of_le hnext hsize)
  have hprec := precedes_of_lt row (Nat.lt_succ_self i) hi hj
  have hle := of_decide_eq_true (of_lt_partitionPoint hpart hj hnext)
  exact Position.not_le.2 hprec (Position.le_trans hle hstop)

/-- In a row the search finds exactly what contains the position. -/
theorem find?_eq_some_iff {index : OccurrenceIndex} {p : Position} {o : Occurrence}
    (row : index.toList.Pairwise Occurrence.Precedes) (valid : ∀ o ∈ index.toList, o.range.Valid) :
    index.find? p = some o ↔ o ∈ index.toList ∧ o.range.contains p = true := by
  constructor
  · intro h
    exact ⟨mem_of_find?_eq_some h, contains_of_find?_eq_some h⟩
  · intro ⟨hmem, hcontains⟩
    obtain ⟨i, hi⟩ := Array.mem_iff_getElem?.1 (Array.mem_toList_iff.1 hmem)
    rw [find?, partitionPoint_eq_succ row valid hi hcontains]
    simp only [hi]
    rw [Option.filter_some, if_pos hcontains]

/-- Nothing else in a row contains the position. -/
theorem filter_contains_eq_singleton {os : List Occurrence} {p : Position} {o : Occurrence}
    (row : os.Pairwise Occurrence.Precedes) (hmem : o ∈ os) (hcontains : o.range.contains p = true) :
    os.filter (fun o => o.range.contains p) = [o] := by
  obtain ⟨before, after, rfl⟩ := List.append_of_mem hmem
  obtain ⟨hstart, hstop⟩ := Range.contains_iff.1 hcontains
  obtain ⟨_, hafter, hbefore⟩ := List.pairwise_append.1 row
  have hleft : before.filter (fun o => o.range.contains p) = [] := by
    rw [List.filter_eq_nil_iff]
    intro a ha hp
    have hprec : a.range.stop < o.range.start := hbefore a ha o List.mem_cons_self
    exact Position.not_le.2 hprec (Position.le_trans hstart (Range.contains_iff.1 hp).2)
  have hright : after.filter (fun o => o.range.contains p) = [] := by
    rw [List.filter_eq_nil_iff]
    intro b hb hp
    have hprec : o.range.stop < b.range.start := (List.pairwise_cons.1 hafter).1 b hb
    exact Position.not_le.2 hprec (Position.le_trans (Range.contains_iff.1 hp).1 hstop)
  rw [List.filter_append, hleft, List.filter_cons, if_pos hcontains, hright, List.nil_append]

/-- What the search finds is the only recorded occurrence at the position. -/
theorem filter_contains_of_find? {recorded : List Occurrence} {index : OccurrenceIndex}
    {p : Position} {o : Occurrence} (h : ofList recorded = .ok index)
    (valid : ∀ o ∈ recorded, o.range.Valid) (hfind : index.find? p = some o) :
    recorded.filter (fun o => o.range.contains p) = [o] := by
  have hsingle := filter_contains_eq_singleton (precedes_of_ofList h valid)
    (mem_of_find?_eq_some hfind) (contains_of_find?_eq_some hfind)
  have hperm := (toList_perm_of_ofList h).filter fun o => o.range.contains p
  rw [hsingle] at hperm
  exact List.perm_singleton.1 hperm.symm

/-- The search finds exactly the recorded occurrences that contain the
position. -/
theorem find?_eq_some_iff_of_ofList {recorded : List Occurrence} {index : OccurrenceIndex}
    {p : Position} {o : Occurrence} (h : ofList recorded = .ok index)
    (valid : ∀ o ∈ recorded, o.range.Valid) :
    index.find? p = some o ↔ o ∈ recorded ∧ o.range.contains p = true := by
  have hperm := toList_perm_of_ofList h
  rw [find?_eq_some_iff (precedes_of_ofList h valid) fun o ho => valid o (hperm.mem_iff.1 ho),
    hperm.mem_iff]

end OccurrenceIndex

end BslNav
