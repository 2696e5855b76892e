import BslNav.Data.Partition
import BslNav.Data.Sort
import BslNav.Symbol.Basic
import BslNav.Symbol.DefId

/-!
# BslNav.Reference.Index

The usages recorded in one document, arranged for look-up by position.

An occurrence covers one identifier, so no two of a document share a position,
and the range that contains a position can only be the last that starts at or
before it.  The index keeps the occurrences sorted by start and refuses a
recording in which two neighbours meet.
-/

namespace BslNav

/-- What a recorded usage points at: a slot of some document's symbol table, or
a symbol of the platform, carried whole. -/
inductive Target where
  | declared (id : DefId)
  | external (symbol : ExternalSymbol)
deriving DecidableEq, Repr

/-- One usage: the range of the identifier and what it points at. -/
structure Occurrence where
  target : Target
  range : Range
deriving DecidableEq, Repr

/-- The occurrences of a document in order of their starts. -/
structure OccurrenceIndex where
  occurrences : Array Occurrence
deriving DecidableEq, Repr

namespace OccurrenceIndex

/-- Nothing was recorded. -/
def empty : OccurrenceIndex := ⟨#[]⟩

/-- The order of the index: by start.  Occurrences that start together stay in
the order of recording. -/
def startsNoLater (a b : Occurrence) : Bool := a.range.start ≤ b.range.start

/-- The first two neighbours whose ranges meet. -/
def firstOverlap : List Occurrence → Option (Range × Range)
  | a :: b :: rest =>
      if a.range.intersects b.range then some (a.range, b.range) else firstOverlap (b :: rest)
  | _ => none

/-- The index of the recorded occurrences, whatever the order of recording. -/
def ofList (recorded : List Occurrence) : Except Violation OccurrenceIndex :=
  let sorted := sortBy startsNoLater recorded
  match firstOverlap sorted with
  | some (earlier, later) => .error (.overlappingUsages earlier later)
  | none => .ok ⟨sorted.toArray⟩

/-- The occurrence whose range contains a position: the last one that starts at
or before it, if that reaches so far. -/
def find? (index : OccurrenceIndex) (p : Position) : Option Occurrence :=
  match partitionPoint (fun o => decide (o.range.start ≤ p)) index.occurrences with
  | 0 => none
  | n + 1 => index.occurrences[n]?.filter fun o => o.range.contains p

def toList (index : OccurrenceIndex) : List Occurrence := index.occurrences.toList

def size (index : OccurrenceIndex) : Nat := index.occurrences.size

def isEmpty (index : OccurrenceIndex) : Bool := index.occurrences.isEmpty

/-- Whatever is found contains the position. -/
theorem contains_of_find?_eq_some {index : OccurrenceIndex} {p : Position} {o : Occurrence}
    (h : index.find? p = some o) : o.range.contains p = true := by
  unfold find? at h
  split at h
  · simp at h
  · exact (Option.filter_eq_some_iff.1 h).2

theorem mem_of_find?_eq_some {index : OccurrenceIndex} {p : Position} {o : Occurrence}
    (h : index.find? p = some o) : o ∈ index.toList := by
  unfold find? at h
  split at h
  · simp at h
  · exact Array.mem_toList_iff.2 (Array.mem_of_getElem? (Option.filter_eq_some_iff.1 h).1)

end OccurrenceIndex

end BslNav
