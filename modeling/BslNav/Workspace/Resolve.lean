import BslNav.Workspace.Basic

/-!
# BslNav.Workspace.Resolve

From a position in an open document to the symbol used there.

The way leads through snapshots only: the current snapshot of the uri, the
occurrence that contains the position, and the occurrence's target.  A target
of the platform is carried by the occurrence; a declared one is taken from its
owner's current table, and from no other.  Every way to miss has a name, and
the log records follow from the outcome.
-/

namespace BslNav

/-- A usage together with the symbol it refers to. -/
structure Reference where
  /-- The document of the usage, not of the declaration. -/
  document : DocumentId
  target : Symbol
  range : Range
deriving DecidableEq, Repr

namespace Workspace

/-- Why an id of a declared symbol leads nowhere. -/
inductive Miss where
  /-- The owner is not open or not analysed. -/
  | ownerNotOpen
  /-- The owner's current version is another than the id's. -/
  | ownerReanalysed (uri : String) (current : Version)
  /-- The owner's current table has no such slot. -/
  | noSuchSlot
deriving DecidableEq, Repr

/-- The record of a miss. -/
def Miss.notices (d : DefId) : Miss → List Notice
  | .ownerNotOpen => [⟨.debug, "owner document is no longer open", [("def", d.text)]⟩]
  | .ownerReanalysed uri current =>
      [⟨.debug, "owner was re-analysed since the reference was recorded",
        [("def", d.text), ("uri", uri), ("current", current.text)]⟩]
  | .noSuchSlot => []

/-- The declaration an id stands for in the owner's current snapshot, or why it
stands for none. -/
def findSymbol (w : Workspace) (d : DefId) : Except Miss SourceSymbol :=
  match w.document d.document with
  | none => .error .ownerNotOpen
  | some owner =>
      if d.isCurrentFor owner.version then
        match owner.table.resolve d with
        | some s => .ok s
        | none => .error .noSuchSlot
      else .error (.ownerReanalysed owner.uri owner.version)

/-- The declaration an id stands for now, if any. -/
def sourceSymbol (w : Workspace) (d : DefId) : Option SourceSymbol := (w.findSymbol d).toOption

theorem sourceSymbol_eq_some_iff {w : Workspace} {d : DefId} {s : SourceSymbol} :
    w.sourceSymbol d = some s ↔
      ∃ owner, w.document d.document = some owner ∧ owner.version = d.ownerVersion ∧
        owner.table.get? d.slot = some s := by
  unfold sourceSymbol findSymbol
  cases w.document d.document with
  | none => simp [Except.toOption]
  | some owner =>
      by_cases h : d.ownerVersion = owner.version
      · have hresolve : owner.table.resolve d = owner.table.get? d.slot := by
          rw [SymbolTable.resolve, owner.table_version, if_pos (DefId.isCurrentFor_iff.2 h)]
        simp only [DefId.isCurrentFor_iff, h, if_true, hresolve, Option.some.injEq,
          exists_eq_left', true_and]
        cases owner.table.get? d.slot <;> simp [Except.toOption]
      · simp [DefId.isCurrentFor_iff, h, Ne.symm h, Except.toOption]

/-- What is found at a position of a uri. -/
inductive Finding where
  /-- The uri has no current snapshot. -/
  | noDocument
  /-- No usage was recorded at the position. -/
  | noUsage
  /-- A usage was, but its target is gone. -/
  | dangling (target : DefId) (miss : Miss)
  | found (reference : Reference)
deriving DecidableEq, Repr

/-- What a snapshot's occurrence refers to in the present workspace. -/
def follow (w : Workspace) (user : DocumentId) (o : Occurrence) : Finding :=
  match o.target with
  | .external s => .found ⟨user, .external s, o.range⟩
  | .declared d =>
      match w.findSymbol d with
      | .ok s => .found ⟨user, .declared s, o.range⟩
      | .error miss => .dangling d miss

/-- Look for a usage at a position of a uri and follow it. -/
def findAt (w : Workspace) (uri : String) (p : Position) : Finding :=
  match w.documentByUri uri with
  | none => .noDocument
  | some s =>
      match s.occurrences.find? p with
      | none => .noUsage
      | some o => w.follow s.id o

/-- The reference that was found. -/
def Finding.reference? : Finding → Option Reference
  | .found r => some r
  | _ => none

/-- The reference at a position of a uri. -/
def findReference (w : Workspace) (uri : String) (p : Position) : Option Reference :=
  (w.findAt uri p).reference?

/-- The records of a search. -/
def Finding.notices (uri : String) (p : Position) : Finding → List Notice
  | .noDocument => [⟨.trace, "no document context", [("uri", uri)]⟩]
  | .noUsage => []
  | .dangling d miss => usageFound :: miss.notices d
  | .found _ => [usageFound]
where
  usageFound : Notice :=
    ⟨.trace, "reference occurrence found", [("uri", uri), ("position", p.text)]⟩

end Workspace

end BslNav
