import BslNav.Text.Position

/-!
# BslNav.Violation

What a caller can get wrong in a way that no result expresses.

Analysis results come from a collector that promises consistent spans and
matching owners.  A broken promise is not a miss to be answered with nothing:
the construction is refused with the cause, and `Violation.message` says it in
words.
-/

namespace BslNav

/-- A promise that the producer of analysis results broke. -/
inductive Violation where
  /-- A span whose end comes before its start. -/
  | invertedRange (start stop : Position)
  /-- A number that names no kind of syntax. -/
  | unknownKind (raw : Nat)
  /-- A declaration whose name lies outside the declaration. -/
  | selectionOutside (name : String) (selection range : Range)
  /-- A symbol entered into the table of another document. -/
  | foreignSymbol (name : String)
  /-- Two usages whose spans share a position. -/
  | overlappingUsages (earlier later : Range)
  /-- A table made for another document or another analysis pass. -/
  | foreignTable
  /-- A statically named constructor call whose type name is no literal. -/
  | computedTypeName (text : String)
deriving DecidableEq, Repr

/-- The wording of each cause. -/
def Violation.message : Violation → String
  | .invertedRange start stop => s!"range end {stop.text} precedes start {start.text}"
  | .unknownKind raw => s!"unknown syntax kind {raw}"
  | .selectionOutside name selection range =>
      s!"selection range {selection.text} of `{name}` is outside its range {range.text}"
  | .foreignSymbol name => s!"symbol `{name}` does not belong to this table"
  | .overlappingUsages earlier later =>
      s!"overlapping reference ranges {earlier.text} and {later.text}"
  | .foreignTable => "symbol table of another document or analysis pass"
  | .computedTypeName text =>
      s!"static constructor call needs a literal type name, got `{text}`"

end BslNav
