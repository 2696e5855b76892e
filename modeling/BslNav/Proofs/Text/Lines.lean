import BslNav.Text.LineIndex
import BslNav.Text.Range

/-!
# BslNav.Proofs.Text.Lines

The lines that byte offsets lie on.

The starts of the lines of a text ascend from zero on, so binary search finds,
for every offset, the last line that starts at or before it.  Hence positions
are in the order of their offsets, inside the text and past its end.

* `start_le_iff_le_line` — the lines that start at or before an offset;
* `position_lt_position`, `position_mono` — the order of offsets is kept;
* `range_embedding` — and so are the ways in which two spans lie to each other.
-/

namespace BslNav.LineIndex

/-! ## line starts -/

theorem lt_of_mem_startsAfter {offset start : Nat} {cs : List Char}
    (h : start ∈ startsAfter offset cs) : offset < start := by
  induction cs generalizing offset with
  | nil => contradiction
  | cons c cs ih =>
      have hsize : 0 < c.utf8Size := c.utf8Size_pos
      rw [startsAfter] at h
      split at h
      · obtain rfl | h := List.mem_cons.mp h
        · omega
        · have hlt := ih h
          omega
      · have hlt := ih h
        omega

theorem pairwise_startsAfter (offset : Nat) (cs : List Char) :
    (startsAfter offset cs).Pairwise (· < ·) := by
  induction cs generalizing offset with
  | nil => exact .nil
  | cons c cs ih =>
      rw [startsAfter]
      split
      · exact .cons (fun _ => lt_of_mem_startsAfter) (ih _)
      · exact ih _

variable (text : String) {i j s t : Nat}

/-- Later lines start later. -/
theorem start_lt_start (hi : (ofText text).starts[i]? = some s)
    (hj : (ofText text).starts[j]? = some t) (h : i < j) : s < t := by
  have hsorted : (0 :: startsAfter 0 text.toList).Pairwise (· < ·) :=
    .cons (fun _ => lt_of_mem_startsAfter) (pairwise_startsAfter 0 text.toList)
  simp only [ofText, List.getElem?_toArray] at hi hj
  obtain ⟨hi', rfl⟩ := List.getElem?_eq_some_iff.mp hi
  obtain ⟨hj', rfl⟩ := List.getElem?_eq_some_iff.mp hj
  exact List.pairwise_iff_getElem.mp hsorted i j hi' hj' h

theorem partitioned_starts (offset : Nat) :
    Partitioned (fun start => decide (start ≤ offset)) (ofText text).starts := by
  intro i j s t hij hs ht hle
  simp only [decide_eq_true_eq] at hle ⊢
  obtain hij | rfl := Nat.lt_or_eq_of_le hij
  · exact Nat.le_trans (Nat.le_of_lt (start_lt_start text hs ht hij)) hle
  · rw [hs] at ht
    exact Option.some.inj ht ▸ hle

/-! ## the line of an offset -/

theorem line_position (index : LineIndex) (offset : Nat) :
    (index.position offset).line =
      partitionPoint (fun start => decide (start ≤ offset)) index.starts - 1 := rfl

theorem character_position (index : LineIndex) (offset : Nat) :
    (index.position offset).character =
      offset - index.starts[(index.position offset).line]?.getD 0 := rfl

/-- The first line starts at zero, before or at every offset. -/
theorem partitionPoint_pos (offset : Nat) :
    0 < partitionPoint (fun start => decide (start ≤ offset)) (ofText text).starts :=
  (holds_iff_lt_partitionPoint (i := 0) (x := 0) (partitioned_starts text offset)
    (by simp [ofText])).mp (by simp)

/-- The line of an offset is the last that starts at or before it. -/
theorem start_le_iff_le_line (offset : Nat) (hi : (ofText text).starts[i]? = some s) :
    s ≤ offset ↔ i ≤ ((ofText text).position offset).line := by
  have hpoint := partitionPoint_pos text offset
  have hline := holds_iff_lt_partitionPoint (partitioned_starts text offset) hi
  rw [decide_eq_true_eq] at hline
  rw [hline, line_position]
  omega

/-- An offset is the start of its line and the column together. -/
theorem exists_start (offset : Nat) :
    ∃ start, (ofText text).starts[((ofText text).position offset).line]? = some start ∧
      start + ((ofText text).position offset).character = offset := by
  have hpoint := partitionPoint_pos text offset
  have hsize := partitionPoint_le_size (fun start => decide (start ≤ offset)) (ofText text).starts
  have hline : ((ofText text).position offset).line < (ofText text).starts.size := by
    rw [line_position]
    omega
  have hstart := Array.getElem?_eq_getElem hline
  have hle := (start_le_iff_le_line text offset hstart).mpr (Nat.le_refl _)
  refine ⟨_, hstart, ?_⟩
  rw [character_position, hstart, Option.getD_some]
  exact Nat.add_sub_cancel' hle

/-! ## order -/

theorem position_lt_position {a b : Nat} (h : a < b) :
    (ofText text).position a < (ofText text).position b := by
  obtain ⟨s, hs, ha⟩ := exists_start text a
  obtain ⟨t, ht, hb⟩ := exists_start text b
  have hline := (start_le_iff_le_line text b hs).mp (by omega)
  rw [Position.lt_def]
  obtain hlt | heq := Nat.lt_or_eq_of_le hline
  · exact .inl hlt
  · rw [heq, ht] at hs
    obtain rfl := Option.some.inj hs
    exact .inr ⟨heq, by omega⟩

theorem position_mono {a b : Nat} (h : a ≤ b) :
    (ofText text).position a ≤ (ofText text).position b := by
  obtain h | rfl := Nat.lt_or_eq_of_le h
  · exact Position.le_of_lt (position_lt_position text h)
  · exact Position.le_refl _

theorem position_le_iff {a b : Nat} :
    (ofText text).position a ≤ (ofText text).position b ↔ a ≤ b := by
  constructor
  · intro h
    apply Nat.le_of_not_lt
    intro hlt
    exact Position.not_le.mpr (position_lt_position text hlt) h
  · exact position_mono text

theorem position_lt_iff {a b : Nat} :
    (ofText text).position a < (ofText text).position b ↔ a < b := by
  rw [← Position.not_le, position_le_iff, Nat.not_le]

/-! ## spans -/

/-- **Lines and columns embed the order of offsets.**  So a span that is the right way
round has a range that the check of its ends would accept as well; one span lies within
another exactly if the ranges do, and two spans share an offset, their ends included,
exactly if the ranges meet. -/
theorem range_embedding :
    (∀ a b, a < b ↔ (ofText text).position a < (ofText text).position b) ∧
    ∀ r s : ByteSpan, r.start ≤ r.stop → s.start ≤ s.stop →
      ((ofText text).range r).Valid ∧
      Range.between ((ofText text).position r.start) ((ofText text).position r.stop) =
        .ok ((ofText text).range r) ∧
      (((ofText text).range r).containsRange ((ofText text).range s) = true ↔
        r.start ≤ s.start ∧ s.stop ≤ r.stop) ∧
      (((ofText text).range r).intersects ((ofText text).range s) = true ↔
        ∃ o, (r.start ≤ o ∧ o ≤ r.stop) ∧ (s.start ≤ o ∧ o ≤ s.stop)) := by
  refine ⟨fun a b => (position_lt_iff text).symm, fun r s hr hs => ?_⟩
  have hvalid : ((ofText text).range r).Valid := position_mono text hr
  refine ⟨hvalid, Range.between_eq_ok_iff.mpr ⟨rfl, hvalid⟩, ?_, ?_⟩
  · simp only [Range.containsRange_iff, range, position_le_iff]
  · simp only [Range.intersects_iff, range, position_le_iff]
    constructor
    · -- the later of the two starts is in both
      rintro ⟨hrs, hsr⟩
      exact ⟨max r.start s.start, by omega, by omega⟩
    · rintro ⟨o, hro, hso⟩
      omega

/-- A span over two line breaks, and the empty span between them. -/
theorem range_embedding_emptyLine : 2 ≤ 4 ∧ 3 ≤ 3 ∧
    ((ofText "é\n\na").range ⟨2, 4⟩).Valid ∧
    ((ofText "é\n\na").range ⟨2, 4⟩).containsRange ((ofText "é\n\na").range ⟨3, 3⟩) = true ∧
    ((ofText "é\n\na").range ⟨2, 4⟩).intersects ((ofText "é\n\na").range ⟨3, 3⟩) = true := by
  obtain ⟨hvalid, -, hwithin, hmeet⟩ :=
    (range_embedding "é\n\na").2 ⟨2, 4⟩ ⟨3, 3⟩ (by decide) (by decide)
  exact ⟨by decide, by decide, hvalid, hwithin.mpr (by decide), hmeet.mpr ⟨3, by decide⟩⟩

end BslNav.LineIndex
