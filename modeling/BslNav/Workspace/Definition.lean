import BslNav.Workspace.Resolve

/-!
# BslNav.Workspace.Definition

Go to definition: from a usage to the declaration it refers to.

A request names a snapshot and a position; only the uri of the snapshot counts,
since the usage is looked up in what is current now.  There is at most one
link.  Symbols of the platform resolve but have no place to go to.
-/

namespace BslNav

/-- Where a declaration is, what to highlight there, and where the request
started. -/
structure LocationLink where
  targetUri : String
  /-- The whole declaration. -/
  targetRange : Range
  /-- The declared name. -/
  targetSelection : Range
  /-- The usage. -/
  origin : Range
deriving DecidableEq, Repr

namespace Workspace

/-- Why a reference leads to no place. -/
inductive NoPlace where
  /-- The symbol belongs to the platform. -/
  | platform (name : String)
  /-- The document that declares it is not open. -/
  | ownerNotOpen
deriving DecidableEq, Repr

/-- The place a reference leads to. -/
def locate (w : Workspace) (r : Reference) : Except NoPlace LocationLink :=
  match r.target with
  | .external s => .error (.platform s.name)
  | .declared s =>
      match w.document s.owner with
      | some owner => .ok ⟨owner.uri, s.range, s.selection, r.range⟩
      | none => .error .ownerNotOpen

/-- The links for a request at a position of a snapshot's document. -/
def definition (w : Workspace) (s : Snapshot) (p : Position) : List LocationLink :=
  ((w.findReference s.uri p).bind fun r => (w.locate r).toOption).toList

/-- The records of a reference that leads to no place. -/
def NoPlace.notices : NoPlace → List Notice
  | .platform name => [⟨.trace, "platform symbol has no source location", [("name", name)]⟩]
  | .ownerNotOpen => []

/-- The records of a request. -/
def definitionNotices (w : Workspace) (s : Snapshot) (p : Position) : List Notice :=
  let finding := w.findAt s.uri p
  finding.notices s.uri p ++
    match finding.reference?.map w.locate with
    | some (.error noPlace) => noPlace.notices
    | _ => []

end Workspace

end BslNav
