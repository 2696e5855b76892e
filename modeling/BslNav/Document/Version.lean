/-!
# BslNav.Document.Version

The identity of an open document and of one analysis of it.

A document gets an id when its uri is first seen and loses it when it closes.
Every analysis pass is stamped with a generation from one counter shared by
all documents.  A document id and a generation together are a version: the
name of one analysed snapshot.
-/

namespace BslNav

/-- The number of an open document. -/
structure DocumentId where
  index : Nat
deriving DecidableEq, Repr, Inhabited

/-- The stamp of one analysis pass. -/
structure Generation where
  stamp : Nat
deriving DecidableEq, Repr, Inhabited

/-- One analysed snapshot: a document and the pass that read it. -/
structure Version where
  document : DocumentId
  generation : Generation
deriving DecidableEq, Repr, Inhabited

namespace DocumentId

/-- The number in the form log records use. -/
def label (id : DocumentId) : String := s!"doc#{id.index}"

/-- The number in the form of a constructor term. -/
def text (id : DocumentId) : String := s!"DocumentId({id.index})"

/-- The document as one pass saw it. -/
def atPass (id : DocumentId) (generation : Generation) : Version := ⟨id, generation⟩

end DocumentId

namespace Generation

/-- Before any pass. -/
def initial : Generation := ⟨0⟩

/-- The stamp that follows. -/
def next (g : Generation) : Generation := ⟨g.stamp + 1⟩

def text (g : Generation) : String := s!"g{g.stamp}"

end Generation

namespace Version

/-- The other version is a later pass over the same document. -/
def isSupersededBy (v other : Version) : Bool :=
  v.document == other.document && v.generation.stamp < other.generation.stamp

@[simp] theorem isSupersededBy_iff {v w : Version} :
    v.isSupersededBy w = true ↔
      v.document = w.document ∧ v.generation.stamp < w.generation.stamp := by
  simp [isSupersededBy]

def text (v : Version) : String := v.document.label ++ "@" ++ v.generation.text

end Version

end BslNav
