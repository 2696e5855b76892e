import BslNav.Syntax.Kind
import BslNav.Text.LineIndex

/-!
# BslNav.Syntax.Tree

Parse trees as a parser hands them over.

A tree is a token with its text or a node with its elements; either may carry
any kind.  Trees store no offsets: the place of an element follows from the
texts before it, so a tree together with the offset at which it begins is a
`Placed` tree, and the kind and byte span of a placed node are a `NodeLink`.
A parser builds a tree from the outside in, as a sequence of `TreeEvent`s.
-/

namespace BslNav

/-- A parse tree. -/
inductive SyntaxTree where
  | token (kind : SyntaxKind) (text : String)
  | node (kind : SyntaxKind) (elements : List SyntaxTree)
deriving Repr, Inhabited

namespace SyntaxTree

def kind : SyntaxTree → SyntaxKind
  | .token k _ => k
  | .node k _ => k

def isNode : SyntaxTree → Bool
  | .token .. => false
  | .node .. => true

/-- What stands directly inside: nothing, for a token. -/
def elements : SyntaxTree → List SyntaxTree
  | .token .. => []
  | .node _ es => es

mutual

/-- The number of bytes of text that a tree covers. -/
def width : SyntaxTree → Nat
  | .token _ text => text.utf8ByteSize
  | .node _ es => widthOfList es

/-- The number of bytes that trees side by side cover. -/
def widthOfList : List SyntaxTree → Nat
  | [] => 0
  | e :: es => e.width + widthOfList es

end

mutual

/-- The text that a tree covers. -/
def text : SyntaxTree → String
  | .token _ text => text
  | .node _ es => textOfList es

/-- The text that trees side by side cover. -/
def textOfList : List SyntaxTree → String
  | [] => ""
  | e :: es => e.text ++ textOfList es

end

@[simp] theorem widthOfList_append (xs ys : List SyntaxTree) :
    widthOfList (xs ++ ys) = widthOfList xs + widthOfList ys := by
  induction xs with
  | nil => simp [widthOfList]
  | cons x xs ih => simp [widthOfList, ih, Nat.add_assoc]

mutual

theorem utf8ByteSize_text (t : SyntaxTree) : t.text.utf8ByteSize = t.width := by
  cases t with
  | token k s => simp [text, width]
  | node k es => simp [text, width, utf8ByteSize_textOfList es]

theorem utf8ByteSize_textOfList (ts : List SyntaxTree) :
    (textOfList ts).utf8ByteSize = widthOfList ts := by
  cases ts with
  | nil => simp [textOfList, widthOfList]
  | cons t ts =>
      simp [textOfList, widthOfList, utf8ByteSize_text t, utf8ByteSize_textOfList ts]

end

/-! ## tokens -/

/-- The tokens directly inside that are not trivia, with their texts. -/
def significantTokens : List SyntaxTree → List (SyntaxKind × String)
  | [] => []
  | .token k text :: es =>
      if k.isTrivia then significantTokens es else (k, text) :: significantTokens es
  | .node .. :: es => significantTokens es

theorem significantTokens_append (xs ys : List SyntaxTree) :
    significantTokens (xs ++ ys) = significantTokens xs ++ significantTokens ys := by
  induction xs with
  | nil => rfl
  | cons x xs ih =>
      cases x with
      | node kind inner => exact ih
      | token kind text =>
          simp only [List.cons_append, significantTokens, ih]
          split <;> rfl

/-- The text of the first token of a kind. -/
def firstToken (kind : SyntaxKind) (es : List SyntaxTree) : Option String :=
  ((significantTokens es).find? fun t => t.1 = kind).map Prod.snd

end SyntaxTree

/-! ## places -/

/-- The kind and the place of a node: enough to find it again in the tree. -/
structure NodeLink where
  kind : SyntaxKind
  span : ByteSpan
deriving DecidableEq, Repr

/-- A tree and the byte offset at which it begins. -/
structure Placed where
  start : Nat
  tree : SyntaxTree
deriving Repr, Inhabited

namespace Placed

def kind (p : Placed) : SyntaxKind := p.tree.kind

def span (p : Placed) : ByteSpan := ⟨p.start, p.start + p.tree.width⟩

def link (p : Placed) : NodeLink := ⟨p.kind, p.span⟩

/-- Trees side by side, each at the end of the one before it. -/
def sideBySide (start : Nat) : List SyntaxTree → List Placed
  | [] => []
  | e :: es => ⟨start, e⟩ :: sideBySide (start + e.width) es

theorem sideBySide_append (start : Nat) (xs ys : List SyntaxTree) :
    sideBySide start (xs ++ ys) =
      sideBySide start xs ++ sideBySide (start + SyntaxTree.widthOfList xs) ys := by
  induction xs generalizing start with
  | nil => rfl
  | cons x xs ih =>
      simp only [List.cons_append, sideBySide, ih, SyntaxTree.widthOfList, Nat.add_assoc]

theorem tree_mem_of_mem_sideBySide {start : Nat} {es : List SyntaxTree} {c : Placed}
    (h : c ∈ sideBySide start es) : c.tree ∈ es := by
  induction es generalizing start with
  | nil => simp [sideBySide] at h
  | cons e es ih =>
      obtain rfl | h := List.mem_cons.mp h
      · exact List.mem_cons_self
      · exact List.mem_cons_of_mem e (ih h)

/-- The elements of a node at their places. -/
def elements (p : Placed) : List Placed := sideBySide p.start p.tree.elements

/-- The nodes directly inside. -/
def childNodes (p : Placed) : List Placed := p.elements.filter (·.tree.isNode)

/-- The node reached by going down to the child node of each given number. -/
def descend (p : Placed) : List Nat → Option Placed
  | [] => some p
  | n :: rest =>
      match p.childNodes[n]? with
      | some child => child.descend rest
      | none => none

mutual

/-- The nodes of a tree, every node before the nodes inside it. -/
def nodesOf (start : Nat) : SyntaxTree → List Placed
  | .token .. => []
  | .node k es => ⟨start, .node k es⟩ :: nodesOfList start es

/-- The nodes of trees side by side. -/
def nodesOfList (start : Nat) : List SyntaxTree → List Placed
  | [] => []
  | e :: es => nodesOf start e ++ nodesOfList (start + e.width) es

end

/-- All nodes in and under a placed tree, from the outside in. -/
def nodes (p : Placed) : List Placed := nodesOf p.start p.tree

end Placed

namespace SyntaxTree

/-- The tree as the whole of a document. -/
def root (t : SyntaxTree) : Placed := ⟨0, t⟩

end SyntaxTree

/-! ## building -/

/-- One step of a parser that writes a tree from the outside in. -/
inductive TreeEvent where
  | startNode (kind : SyntaxKind)
  | token (kind : SyntaxKind) (text : String)
  | finishNode
deriving DecidableEq, Repr

/-- Nodes begun and not yet finished, innermost first, each with its elements
so far, last first. -/
abbrev OpenNodes := List (SyntaxKind × List SyntaxTree)

/-- Add a finished tree to the innermost open node. -/
def OpenNodes.add (t : SyntaxTree) : OpenNodes → Option OpenNodes
  | [] => none
  | (k, es) :: outer => some ((k, t :: es) :: outer)

/-- Build on from the open nodes.  The tree is complete when its root is
finished and nothing follows. -/
def SyntaxTree.buildFrom : OpenNodes → List TreeEvent → Option SyntaxTree
  | stack, .startNode k :: events => buildFrom ((k, []) :: stack) events
  | stack, .token k text :: events => (stack.add (.token k text)).bind (buildFrom · events)
  | [(k, es)], [.finishNode] => some (.node k es.reverse)
  | (k, es) :: outer, .finishNode :: events =>
      (OpenNodes.add (.node k es.reverse) outer).bind (buildFrom · events)
  | _, _ => none

/-- The tree that a sequence of events builds. -/
def SyntaxTree.ofEvents? (events : List TreeEvent) : Option SyntaxTree :=
  SyntaxTree.buildFrom [] events

end BslNav
