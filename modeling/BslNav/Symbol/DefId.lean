import BslNav.Document.Version

/-!
# BslNav.Symbol.DefId

The name of a declared symbol: a slot of the symbol table that one analysis
pass filled.

After the document is analysed again the slot may hold another symbol, so an
id is followed only while its version is still the owner's current one.
-/

namespace BslNav

/-- A slot of the symbol table of one version of a document. -/
structure DefId where
  document : DocumentId
  generation : Generation
  slot : Nat
deriving DecidableEq, Repr, Inhabited

namespace DefId

/-- The snapshot whose table issued this id. -/
def ownerVersion (d : DefId) : Version := ⟨d.document, d.generation⟩

/-- The id addresses the table of exactly this version. -/
def isCurrentFor (d : DefId) (owner : Version) : Bool := d.ownerVersion == owner

@[simp] theorem isCurrentFor_iff {d : DefId} {v : Version} :
    d.isCurrentFor v = true ↔ d.ownerVersion = v := by
  simp [isCurrentFor]

/-- The slot alone. -/
def slotText (d : DefId) : String := s!"#{d.slot}"

def text (d : DefId) : String := s!"DefId({d.ownerVersion.text}{d.slotText})"

end DefId

end BslNav
