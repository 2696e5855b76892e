import BslNav.Data.Partition
import BslNav.Text.Position

/-!
# BslNav.Text.LineIndex

Byte offsets of a text turned into lines and columns, and back.

The index keeps the offset at which each line starts: zero, and the offset
just after every newline.  Only `'\n'` ends a line, so even an empty text has
one line.  An offset past the end of the text counts on the last line.
-/

namespace BslNav

/-- A stretch of a text, from the byte offset `start` up to `stop`. -/
structure ByteSpan where
  start : Nat
  stop : Nat
deriving DecidableEq, Repr, Inhabited

/-- The offset of the start of every line of one text, in ascending order. -/
structure LineIndex where
  starts : Array Nat
deriving DecidableEq, Repr, Inhabited

namespace LineIndex

/-- The offsets just after each newline of a text that begins at `offset`. -/
def startsAfter (offset : Nat) : List Char → List Nat
  | [] => []
  | c :: cs =>
      if c = '\n' then (offset + c.utf8Size) :: startsAfter (offset + c.utf8Size) cs
      else startsAfter (offset + c.utf8Size) cs

/-- The index of a text. -/
def ofText (text : String) : LineIndex := ⟨(0 :: startsAfter 0 text.toList).toArray⟩

/-- The position of a byte offset: the last line that starts at or before it,
and the distance from that start. -/
def position (index : LineIndex) (offset : Nat) : Position :=
  let line := partitionPoint (· ≤ offset) index.starts - 1
  ⟨line, offset - index.starts[line]?.getD 0⟩

/-- The range of lines and columns that a byte span covers. -/
def range (index : LineIndex) (span : ByteSpan) : Range :=
  ⟨index.position span.start, index.position span.stop⟩

/-- The byte offset of a position, unless the text has no such line.  The
column is not compared with the length of the line. -/
def offset (index : LineIndex) (p : Position) : Option Nat :=
  index.starts[p.line]?.map (· + p.character)

/-- The number of lines. -/
def size (index : LineIndex) : Nat := index.starts.size

/-- No line at all: never so for the index of a text. -/
def isEmpty (index : LineIndex) : Bool := index.starts.isEmpty

theorem length_startsAfter (offset : Nat) (cs : List Char) :
    (startsAfter offset cs).length = cs.count '\n' := by
  induction cs generalizing offset with
  | nil => rfl
  | cons c cs ih =>
      by_cases h : c = '\n' <;> simp [startsAfter, h, ih]

theorem size_ofText (text : String) : (ofText text).size = text.toList.count '\n' + 1 := by
  simp [ofText, size, length_startsAfter]

@[simp] theorem isEmpty_ofText (text : String) : (ofText text).isEmpty = false := by
  simp [ofText, isEmpty]

end LineIndex

end BslNav
