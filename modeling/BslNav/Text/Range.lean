import BslNav.Violation

/-!
# BslNav.Text.Range

Ranges built from checked coordinates, and what it means for a range to hold a
position, to hold another range and to meet one.  Both ends belong to a range,
so two ranges that only touch do meet.
-/

namespace BslNav.Range

/-- The range between two positions, refused when they are the wrong way
round. -/
def between (start stop : Position) : Except Violation Range :=
  if start ≤ stop then .ok ⟨start, stop⟩ else .error (.invertedRange start stop)

/-- The range with the given line and column numbers. -/
def ofCoords (startLine startCol stopLine stopCol : Nat) : Except Violation Range :=
  between ⟨startLine, startCol⟩ ⟨stopLine, stopCol⟩

theorem between_eq_ok_iff {start stop : Position} {r : Range} :
    between start stop = .ok r ↔ r = ⟨start, stop⟩ ∧ r.Valid := by
  unfold between
  split <;> rename_i h
  · simp only [Except.ok.injEq]
    exact ⟨fun e => e ▸ ⟨rfl, h⟩, fun e => e.1.symm⟩
  · simp only [reduceCtorEq, false_iff, not_and]
    rintro rfl
    exact h

/-- The position lies in the range, ends included. -/
def contains (r : Range) (p : Position) : Bool := r.start ≤ p && p ≤ r.stop

/-- The other range lies within this one. -/
def containsRange (r other : Range) : Bool := r.start ≤ other.start && other.stop ≤ r.stop

/-- The two ranges meet: neither ends before the other begins. -/
def intersects (r other : Range) : Bool := r.start ≤ other.stop && other.start ≤ r.stop

@[simp] theorem contains_iff {r : Range} {p : Position} :
    r.contains p = true ↔ r.start ≤ p ∧ p ≤ r.stop := by
  simp [contains]

@[simp] theorem containsRange_iff {r s : Range} :
    r.containsRange s = true ↔ r.start ≤ s.start ∧ s.stop ≤ r.stop := by
  simp [containsRange]

@[simp] theorem intersects_iff {r s : Range} :
    r.intersects s = true ↔ r.start ≤ s.stop ∧ s.start ≤ r.stop := by
  simp [intersects]

theorem intersects_comm (r s : Range) : r.intersects s = s.intersects r := by
  simp [intersects, Bool.and_comm]

/-- Ranges that are the right way round meet exactly if they share a position:
the later start is in both. -/
theorem intersects_iff_exists {r s : Range} (hr : r.Valid) (hs : s.Valid) :
    r.intersects s = true ↔ ∃ p, r.contains p = true ∧ s.contains p = true := by
  simp only [intersects_iff, contains_iff]
  constructor
  · intro ⟨hrs, hsr⟩
    obtain hstart | hstart := Position.le_total r.start s.start
    · exact ⟨s.start, ⟨hstart, hsr⟩, Position.le_refl _, hs⟩
    · exact ⟨r.start, ⟨Position.le_refl _, hr⟩, hstart, hrs⟩
  · intro ⟨p, ⟨hrp, hpr⟩, hsp, hps⟩
    exact ⟨Position.le_trans hrp hps, Position.le_trans hsp hpr⟩

end BslNav.Range
