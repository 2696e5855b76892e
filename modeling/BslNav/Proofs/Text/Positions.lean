import BslNav.Text.Range
import Mathlib.Data.Set.Basic
import Mathlib.Order.Defs.Unbundled

/-!
# BslNav.Proofs.Text.Positions

Ranges as sets of positions.

The tests on ranges compare nothing but ends.  For ranges that are the right way
round this decides about all the positions in them, and a column that no line of a
text reaches is a position like any other.

* `containsRange_iff_subset` — a range lies within another if its positions do;
* `intersects_iff_nonempty` — two ranges meet if they share a position;
* `injOn_positions` — the positions determine the range;
* `relations_of_positions` — so the laws of sets are laws of the two tests.
-/

namespace BslNav.Range

variable {r s : Range}

/-- The positions in the range. -/
def positions (r : Range) : Set Position := {p | r.contains p = true}

theorem mem_positions_iff {p : Position} : p ∈ r.positions ↔ r.start ≤ p ∧ p ≤ r.stop :=
  contains_iff

theorem start_mem_positions (hr : r.Valid) : r.start ∈ r.positions :=
  mem_positions_iff.mpr ⟨Position.le_refl _, hr⟩

theorem stop_mem_positions (hr : r.Valid) : r.stop ∈ r.positions :=
  mem_positions_iff.mpr ⟨hr, Position.le_refl _⟩

/-! ## containment -/

theorem positions_subset (h : r.containsRange s = true) : s.positions ⊆ r.positions := by
  obtain ⟨hstart, hstop⟩ := containsRange_iff.mp h
  intro p hp
  obtain ⟨hsp, hps⟩ := mem_positions_iff.mp hp
  exact mem_positions_iff.mpr ⟨Position.le_trans hstart hsp, Position.le_trans hps hstop⟩

/-- A range that has both ends of another has all of it. -/
theorem containsRange_of_ends_mem (hstart : s.start ∈ r.positions) (hstop : s.stop ∈ r.positions) :
    r.containsRange s = true :=
  containsRange_iff.mpr ⟨(mem_positions_iff.mp hstart).1, (mem_positions_iff.mp hstop).2⟩

theorem containsRange_iff_subset (hs : s.Valid) :
    r.containsRange s = true ↔ s.positions ⊆ r.positions := by
  constructor
  · exact positions_subset
  · intro h
    exact containsRange_of_ends_mem (h (start_mem_positions hs)) (h (stop_mem_positions hs))

/-- Two ranges with the same positions have the same ends. -/
theorem injOn_positions : Set.InjOn positions {r | r.Valid} := by
  intro r hr s hs h
  have hrs : r.containsRange s = true := (containsRange_iff_subset hs).mpr h.ge
  have hsr : s.containsRange r = true := (containsRange_iff_subset hr).mpr h.le
  obtain ⟨hstart, hstop⟩ := containsRange_iff.mp hrs
  obtain ⟨hstart', hstop'⟩ := containsRange_iff.mp hsr
  cases r
  cases s
  rw [mk.injEq]
  exact ⟨Position.le_antisymm hstart hstart', Position.le_antisymm hstop' hstop⟩

theorem isPartialOrder_containsRange :
    IsPartialOrder {r : Range // r.Valid} (fun r s => r.1.containsRange s.1 = true) where
  refl r := (containsRange_iff_subset r.2).mpr Set.Subset.rfl
  trans _ _ t hrs hst :=
    (containsRange_iff_subset t.2).mpr ((positions_subset hst).trans (positions_subset hrs))
  antisymm r s hrs hsr :=
    Subtype.ext <| injOn_positions r.2 s.2 <|
      (positions_subset hsr).antisymm (positions_subset hrs)

/-! ## meeting -/

theorem intersects_iff_nonempty (hr : r.Valid) (hs : s.Valid) :
    r.intersects s = true ↔ (r.positions ∩ s.positions).Nonempty :=
  intersects_iff_exists hr hs

/-- Of two ranges that meet, one has the start of the other. -/
theorem start_mem_or_start_mem (h : r.intersects s = true) :
    r.start ∈ s.positions ∨ s.start ∈ r.positions := by
  obtain ⟨hrs, hsr⟩ := intersects_iff.mp h
  obtain hle | hle := Position.le_total r.start s.start
  · exact .inr (mem_positions_iff.mpr ⟨hle, hsr⟩)
  · exact .inl (mem_positions_iff.mpr ⟨hle, hrs⟩)

/-- A range with positions in it meets every range that contains it. -/
theorem intersects_of_containsRange (hr : r.Valid) (hs : s.Valid) (h : r.containsRange s = true) :
    r.intersects s = true := by
  have hstart := start_mem_positions hs
  exact (intersects_iff_nonempty hr hs).mpr ⟨s.start, positions_subset h hstart, hstart⟩

/-! ## ends are enough -/

section Ends

variable {known : Set Position}

theorem containsRange_iff_forall_mem (hs : s.Valid) (hstart : s.start ∈ known)
    (hstop : s.stop ∈ known) :
    r.containsRange s = true ↔ ∀ p ∈ known, s.contains p = true → r.contains p = true := by
  constructor
  · intro h p _ hp
    exact positions_subset h hp
  · intro h
    exact containsRange_of_ends_mem (h _ hstart (start_mem_positions hs))
      (h _ hstop (stop_mem_positions hs))

theorem intersects_iff_exists_mem (hr : r.Valid) (hs : s.Valid) (hrstart : r.start ∈ known)
    (hsstart : s.start ∈ known) :
    r.intersects s = true ↔ ∃ p ∈ known, r.contains p = true ∧ s.contains p = true := by
  constructor
  · intro h
    obtain hmem | hmem := start_mem_or_start_mem h
    · exact ⟨r.start, hrstart, start_mem_positions hr, hmem⟩
    · exact ⟨s.start, hsstart, hmem, start_mem_positions hs⟩
  · rintro ⟨p, -, hpr, hps⟩
    exact (intersects_iff_nonempty hr hs).mpr ⟨p, hpr, hps⟩

end Ends

/-- **The tests on ranges are about positions.**  For ranges that are the right way
round, one contains another exactly if it has every position that the other has, and
two meet exactly if they share a position.  It may be any set of positions that is
spoken of, all of them or those that fit a word, as long as it has the ends they are
compared by.  Hence containment is a partial order and makes ranges meet, and meeting is
reflexive and symmetric. -/
theorem relations_of_positions :
    (∀ r s : Range, r.Valid → s.Valid →
      (r.containsRange s = true ↔ ∀ p, s.contains p = true → r.contains p = true) ∧
      (r.intersects s = true ↔ ∃ p, r.contains p = true ∧ s.contains p = true) ∧
      (∀ known : Set Position, r.start ∈ known → s.start ∈ known → s.stop ∈ known →
        (r.containsRange s = true ↔ ∀ p ∈ known, s.contains p = true → r.contains p = true) ∧
        (r.intersects s = true ↔ ∃ p ∈ known, r.contains p = true ∧ s.contains p = true)) ∧
      (r.containsRange s = true → r.intersects s = true)) ∧
    IsPartialOrder {r : Range // r.Valid} (fun r s => r.1.containsRange s.1 = true) ∧
    Std.Refl (fun r s : {r : Range // r.Valid} => r.1.intersects s.1 = true) ∧
    Std.Symm (fun r s : {r : Range // r.Valid} => r.1.intersects s.1 = true) := by
  refine ⟨fun r s hr hs => ⟨?_, ?_, ?_, intersects_of_containsRange hr hs⟩,
    isPartialOrder_containsRange, ⟨fun r => ?_⟩, ⟨fun r s h => ?_⟩⟩
  · exact containsRange_iff_subset hs
  · exact intersects_iff_nonempty hr hs
  · intro known hrstart hsstart hsstop
    exact ⟨containsRange_iff_forall_mem hs hsstart hsstop,
      intersects_iff_exists_mem hr hs hrstart hsstart⟩
  · have hstart := start_mem_positions r.2
    exact (intersects_iff_nonempty r.2 r.2).mpr ⟨r.1.start, hstart, hstart⟩
  · rw [intersects_comm]
    exact h

/-- An empty range at the end of a range over two lines, among the positions of
32 bits. -/
theorem relations_of_positions_twoLines :
    Valid ⟨⟨0, 4⟩, ⟨1, 2⟩⟩ ∧ Valid ⟨⟨1, 2⟩, ⟨1, 2⟩⟩ ∧
    (containsRange ⟨⟨0, 4⟩, ⟨1, 2⟩⟩ ⟨⟨1, 2⟩, ⟨1, 2⟩⟩ = true ↔
      ∀ p ∈ {p : Position | p.line < 4294967296 ∧ p.character < 4294967296},
        contains ⟨⟨1, 2⟩, ⟨1, 2⟩⟩ p = true → contains ⟨⟨0, 4⟩, ⟨1, 2⟩⟩ p = true) ∧
    intersects ⟨⟨0, 4⟩, ⟨1, 2⟩⟩ ⟨⟨1, 2⟩, ⟨1, 2⟩⟩ = true := by
  have hvalid : Valid ⟨⟨0, 4⟩, ⟨1, 2⟩⟩ := by decide
  have hempty : Valid ⟨⟨1, 2⟩, ⟨1, 2⟩⟩ := by decide
  obtain ⟨-, -, hknown, hmeet⟩ := relations_of_positions.1 _ _ hvalid hempty
  exact ⟨hvalid, hempty, (hknown _ (by decide) (by decide) (by decide)).1, hmeet (by decide)⟩

end BslNav.Range
