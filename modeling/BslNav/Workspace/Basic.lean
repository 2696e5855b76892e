import BslNav.Document.Snapshot
import BslNav.Notice

/-!
# BslNav.Workspace.Basic

The open documents and the current snapshot of each.

A uri gets a document id when it is first mentioned and keeps it until the
document is closed; ids are numbered on and never given twice.  Analysis passes
are stamped from one counter.  A snapshot is published under its id only while
its uri still has that id, and only over an earlier pass: the newest analysis
wins whatever the order in which passes end.
-/

namespace BslNav

/-- The state of the server: which uris are open, and what is known of them. -/
structure Workspace where
  ids : OrderedMap String DocumentId
  documents : OrderedMap DocumentId Snapshot
  nextIndex : Nat
  lastGeneration : Generation

namespace Workspace

/-- No document is open. -/
def empty : Workspace := ⟨∅, ∅, 0, .initial⟩

instance : Inhabited Workspace := ⟨empty⟩

/-- The id of a uri, assigned now if the uri has none. -/
def documentId (w : Workspace) (uri : String) : DocumentId × Workspace :=
  match w.ids.get? uri with
  | some id => (id, w)
  | none =>
      let id : DocumentId := ⟨w.nextIndex⟩
      (id, { w with ids := w.ids.insert uri id, nextIndex := w.nextIndex + 1 })

/-- Begin an analysis pass over a uri: its id with a stamp above all before. -/
def beginAnalysis (w : Workspace) (uri : String) : Version × Workspace :=
  let (id, w) := w.documentId uri
  let generation := w.lastGeneration.next
  (id.atPass generation, { w with lastGeneration := generation })

/-- The current snapshot of a document. -/
def document (w : Workspace) (id : DocumentId) : Option Snapshot := w.documents.get? id

/-- The current snapshot of a uri. -/
def documentByUri (w : Workspace) (uri : String) : Option Snapshot :=
  (w.ids.get? uri).bind w.document

/-- All current snapshots. -/
def snapshots (w : Workspace) : List Snapshot := w.documents.values

/-- The number of documents with a current snapshot. -/
def size (w : Workspace) : Nat := w.documents.size

def isEmpty (w : Workspace) : Bool := w.documents.isEmpty

/-! ## publishing -/

/-- What becomes of a snapshot that is offered for publication. -/
inductive Verdict where
  /-- Its uri no longer has its id. -/
  | closed
  /-- The given version is current, and the snapshot is no later pass. -/
  | outdated (current : Version)
  /-- It becomes the current snapshot, in place of another or not. -/
  | accepted (replaces : Bool)
deriving DecidableEq, Repr

/-- Whether a snapshot may become the current one of its document. -/
def judge (w : Workspace) (s : Snapshot) : Verdict :=
  if w.ids.get? s.uri = some s.id then
    match w.document s.id with
    | some current =>
        if current.version.isSupersededBy s.version then .accepted true
        else .outdated current.version
    | none => .accepted false
  else .closed

/-- Offer a snapshot for publication.  A snapshot that is not accepted changes
nothing. -/
def publish (w : Workspace) (s : Snapshot) : Verdict × Workspace :=
  match w.judge s with
  | .accepted replaces =>
      (.accepted replaces, { w with documents := w.documents.insert s.id s })
  | verdict => (verdict, w)

def Verdict.isAccepted : Verdict → Bool
  | .accepted _ => true
  | _ => false

/-- The record of an offer. -/
def Verdict.notice (s : Snapshot) : Verdict → Notice
  | .closed =>
      ⟨.debug, "document closed during analysis, context dropped",
        [("uri", s.uri), ("version", s.version.text)]⟩
  | .outdated current =>
      ⟨.debug, "newer analysis already published, context dropped",
        [("uri", s.uri), ("version", s.version.text), ("current", current.text)]⟩
  | .accepted replaces =>
      ⟨.debug, "document context published",
        [("uri", s.uri), ("version", toString s.editorVersion),
          ("generation", s.generation.text), ("replaced", toString replaces)]⟩

/-! ## closing -/

/-- What closing a uri gave up: the id, and the snapshot if there was one. -/
structure Closed where
  id : DocumentId
  snapshot : Option Snapshot

/-- Close a document: its id and its snapshot are forgotten.  A uri that is not
open gives nothing. -/
def close (w : Workspace) (uri : String) : Option Closed × Workspace :=
  match w.ids.get? uri with
  | none => (none, w)
  | some id =>
      (some ⟨id, w.document id⟩,
        { w with ids := w.ids.erase uri, documents := w.documents.erase id })

/-- The record of a closing. -/
def Closed.notice (uri : String) (c : Closed) : Notice :=
  ⟨.debug, "document closed", [("uri", uri), ("id", c.id.label)]⟩

end Workspace

end BslNav
