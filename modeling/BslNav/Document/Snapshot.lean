import BslNav.Reference.Index
import BslNav.Symbol.Table
import BslNav.Syntax.Tree

/-!
# BslNav.Document.Snapshot

An analysed document: the text, the parse tree, the declarations and the usages
that one analysis pass found.

A pass collects its findings in a `Draft` and finishes it once.  A finished
`Snapshot` never changes; new content is a new snapshot.  The symbol table of a
snapshot always carries the version of the snapshot.
-/

namespace BslNav

/-- What one analysis pass found in one document. -/
structure Snapshot where
  version : Version
  uri : String
  /-- The number the editor gave the content. -/
  editorVersion : Int
  text : String
  lines : LineIndex
  tree : SyntaxTree
  table : SymbolTable
  occurrences : OccurrenceIndex
  lines_eq : lines = .ofText text
  table_version : table.version = version

namespace Snapshot

def id (s : Snapshot) : DocumentId := s.version.document

def generation (s : Snapshot) : Generation := s.version.generation

/-- The lines and columns of a node of the tree. -/
def rangeOf (s : Snapshot) (link : NodeLink) : Range := s.lines.range link.span

end Snapshot

/-- The findings of an analysis pass that is still running. -/
structure Draft where
  version : Version
  uri : String
  text : String
  tree : SyntaxTree
  editorVersion : Int
  table : SymbolTable
  recorded : List Occurrence
  table_version : table.version = version

namespace Draft

/-- A pass that has found nothing yet. -/
def start (version : Version) (uri text : String) (tree : SyntaxTree) : Draft :=
  ⟨version, uri, text, tree, 0, .empty version, [], rfl⟩

/-- Note the number the editor gave the content. -/
def withEditorVersion (d : Draft) (n : Int) : Draft := { d with editorVersion := n }

/-- Take over the declarations.  A table made for another document or another
pass is refused. -/
def useTable (d : Draft) (table : SymbolTable) : Except Violation Draft :=
  if h : table.version = d.version then .ok { d with table := table, table_version := h }
  else .error .foreignTable

/-- Note further usages, in any order. -/
def record (d : Draft) (occurrences : List Occurrence) : Draft :=
  { d with recorded := d.recorded ++ occurrences }

/-- The snapshot, refused when two recorded usages overlap. -/
def finish (d : Draft) : Except Violation Snapshot :=
  match OccurrenceIndex.ofList d.recorded with
  | .ok occurrences =>
      .ok ⟨d.version, d.uri, d.editorVersion, d.text, .ofText d.text, d.tree, d.table, occurrences,
        rfl, d.table_version⟩
  | .error v => .error v

end Draft

end BslNav
