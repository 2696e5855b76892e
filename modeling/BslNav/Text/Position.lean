/-!
# BslNav.Text.Position

Positions in a source text and the spans between them: the data, the order
and the spelling of both.

A position is a line and a column, both counted from zero; columns count
UTF-8 bytes.  Positions are ordered in document order, line first.  Two
spellings are in use: `Position.text` is the coordinate pair `(line,column)`
that appears in messages, `Position.label` is the one-based `line:column` a
person reads.
-/

namespace BslNav

/-- A place in a document: a line and a column within it, from zero, the
column in UTF-8 bytes. -/
structure Position where
  line : Nat
  character : Nat
deriving DecidableEq, Repr, Inhabited

namespace Position

/-- Document order: an earlier line comes first, on one line the smaller
column does. -/
protected def le (p q : Position) : Prop :=
  p.line < q.line ∨ (p.line = q.line ∧ p.character ≤ q.character)

protected def lt (p q : Position) : Prop :=
  p.line < q.line ∨ (p.line = q.line ∧ p.character < q.character)

instance : LE Position := ⟨Position.le⟩

instance : LT Position := ⟨Position.lt⟩

theorem le_def {p q : Position} :
    p ≤ q ↔ p.line < q.line ∨ (p.line = q.line ∧ p.character ≤ q.character) := Iff.rfl

theorem lt_def {p q : Position} :
    p < q ↔ p.line < q.line ∨ (p.line = q.line ∧ p.character < q.character) := Iff.rfl

instance (p q : Position) : Decidable (p ≤ q) := decidable_of_iff _ le_def.symm

instance (p q : Position) : Decidable (p < q) := decidable_of_iff _ lt_def.symm

/-- The sign of document order, for sorting: `lt` when `p` comes first. -/
def compare (p q : Position) : Ordering :=
  if p < q then .lt else if q < p then .gt else .eq

/-! ## the order is total -/

@[refl] protected theorem le_refl (p : Position) : p ≤ p := le_def.2 (by omega)

protected theorem le_trans {p q r : Position} (h₁ : p ≤ q) (h₂ : q ≤ r) : p ≤ r := by
  simp only [le_def] at *
  omega

protected theorem le_antisymm {p q : Position} (h₁ : p ≤ q) (h₂ : q ≤ p) : p = q := by
  obtain ⟨pl, pc⟩ := p
  obtain ⟨ql, qc⟩ := q
  simp only [le_def] at h₁ h₂
  simp only [Position.mk.injEq]
  omega

protected theorem le_total (p q : Position) : p ≤ q ∨ q ≤ p := by
  simp only [le_def]
  omega

protected theorem not_le {p q : Position} : ¬ p ≤ q ↔ q < p := by
  simp only [le_def, lt_def]
  omega

protected theorem le_of_lt {p q : Position} (h : p < q) : p ≤ q := by
  simp only [le_def, lt_def] at *
  omega

protected theorem lt_of_lt_of_le {p q r : Position} (h₁ : p < q) (h₂ : q ≤ r) : p < r := by
  simp only [le_def, lt_def] at *
  omega

protected theorem lt_of_le_of_lt {p q r : Position} (h₁ : p ≤ q) (h₂ : q < r) : p < r := by
  simp only [le_def, lt_def] at *
  omega

protected theorem lt_asymm {p q : Position} (h : p < q) : ¬ q < p := by
  simp only [lt_def] at *
  omega

/-! ## spelling -/

/-- The zero-based coordinate pair, as messages write it. -/
def text (p : Position) : String := s!"({p.line},{p.character})"

/-- The one-based line and column, as a person reads them. -/
def label (p : Position) : String := s!"{p.line + 1}:{p.character + 1}"

end Position

/-- A span between two positions, both of which belong to it.  Nothing here
forces `start` before `stop`: see `Range.Valid`. -/
structure Range where
  start : Position
  stop : Position
deriving DecidableEq, Repr, Inhabited

namespace Range

/-- The span is the right way round. -/
def Valid (r : Range) : Prop := r.start ≤ r.stop

instance (r : Range) : Decidable r.Valid := inferInstanceAs (Decidable (r.start ≤ r.stop))

/-- Both ends as coordinate pairs. -/
def text (r : Range) : String := r.start.text ++ "-" ++ r.stop.text

end Range

end BslNav
