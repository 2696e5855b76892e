/-!
# BslNav.Project.Path

Paths as texts name them.

A path is made absolute without looking at any file: blank and `.` components
go, `..` components and a slash at the end stay.  Two slashes at the front, no
more and no fewer, are kept as they are.  Whether one path lies under another,
and what lies above a path, is a matter of components alone.
-/

namespace BslNav

/-- An absolute path.  A component may be `..`. -/
structure AbsolutePath where
  /-- Two slashes stand at the front. -/
  doubled : Bool
  components : List String
  /-- A slash stands at the end. -/
  trailing : Bool
deriving DecidableEq, Repr, Inhabited

namespace AbsolutePath

/-- The pieces between slashes, `piece` being what the first has of characters
before these, last first. -/
def piecesFrom (piece : List Char) : List Char → List String
  | [] => [String.ofList piece.reverse]
  | c :: cs =>
      if c = '/' then String.ofList piece.reverse :: piecesFrom [] cs
      else piecesFrom (c :: piece) cs

/-- The pieces between the slashes of a path, empty ones included. -/
def piecesOf (path : String) : List String := piecesFrom [] path.toList

/-- The pieces that name something. -/
def named (path : String) : List String := (piecesOf path).filter fun p => p ≠ "" && p ≠ "."

/-- The path begins at the root. -/
def isRooted (path : String) : Bool := path.toList.head? = some '/'

/-- Two slashes stand at the front, and no third. -/
def isDoubled (path : String) : Bool :=
  path.toList.take 2 = ['/', '/'] && path.toList[2]? ≠ some '/'

/-- A slash stands at the end. -/
def isTrailing (path : String) : Bool := path.toList.getLast? = some '/'

/-- The path that a text names when `working` is the working directory.  The
empty text names none. -/
def ofText? (working : AbsolutePath) (path : String) : Option AbsolutePath :=
  if path = "" then none
  else if isRooted path then some ⟨isDoubled path, named path, isTrailing path⟩
  else some ⟨working.doubled, working.components ++ named path, isTrailing path⟩

/-- The pieces after the root: a slash at the end makes an empty one. -/
def pieces (p : AbsolutePath) : List String := p.components ++ if p.trailing then [""] else []

/-- The path as a text. -/
def text (p : AbsolutePath) : String :=
  (if p.doubled then "//" else "/") ++ "/".intercalate p.components ++
    (if p.trailing && !p.components.isEmpty then "/" else "")

/-- The path is `base` or names something under it, component by component. -/
def isUnder (p base : AbsolutePath) : Bool := base.components.isPrefixOf p.components

/-- The entry of a given name in the directory. -/
def child (p : AbsolutePath) (name : String) : AbsolutePath :=
  { p with components := p.components ++ [name], trailing := false }

/-- The path without its last component. -/
def parent? (p : AbsolutePath) : Option AbsolutePath :=
  if p.components.isEmpty then none
  else some ⟨p.doubled && 2 ≤ p.components.length, p.components.dropLast, false⟩

/-- The path without its last `n` components. -/
def ancestor? (p : AbsolutePath) : Nat → Option AbsolutePath
  | 0 => some p
  | n + 1 => p.parent?.bind fun q => q.ancestor? n

/-- The last component, unless it leads upward. -/
def fileName? (p : AbsolutePath) : Option String :=
  p.components.getLast?.filter fun name => name ≠ ".."

theorem isUnder_child (p : AbsolutePath) (name : String) : (p.child name).isUnder p = true := by
  simp [isUnder, child]

end AbsolutePath

end BslNav
