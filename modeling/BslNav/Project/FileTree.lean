import BslNav.Project.Path
import BslNav.Settings.Load

/-!
# BslNav.Project.FileTree

Directories, files and symbolic links, and what paths lead to among them.

A path is followed component by component from the root of the tree or from a
working directory.  Every component but a name demands a directory to stand in;
`..` leads to the directory that contains this one, however it was reached; a
link leads on to where its target does, up to a limit.  What is demanded of the
end of a path is an `Ending`.  A path whose text is too long leads nowhere,
whatever it would name.
-/

namespace BslNav

/-- What a name stands for in a directory. -/
inductive Entry where
  /-- A file with its text, if its bytes are one. -/
  | file (content : Option String)
  | directory (entries : List (String × Entry))
  | link (target : String)
deriving Repr, Inhabited

namespace Entry

/-- The entry of a name in a directory. -/
def get? (name : String) : Entry → Option Entry
  | directory entries => entries.lookup name
  | _ => none

def isDirectory : Entry → Bool
  | directory _ => true
  | _ => false

/-- Give a name an entry, in place of an earlier one. -/
def setEntry (name : String) (e : Entry) : List (String × Entry) → List (String × Entry)
  | [] => [(name, e)]
  | (n, d) :: rest => if n = name then (name, e) :: rest else (n, d) :: setEntry name e rest

/-- What names lead to from here, no links followed. -/
def at? (e : Entry) : List String → Option Entry
  | [] => some e
  | name :: names => (e.get? name).bind fun d => d.at? names

/-- The tree with `new` at the end of the names, or nothing there.  Only
directories that exist are entered. -/
def put (new : Option Entry) : List String → Entry → Entry
  | [name], directory entries =>
      directory (match new with
        | some e => setEntry name e entries
        | none => entries.filter (·.1 ≠ name))
  | name :: names, directory entries =>
      match entries.lookup name with
      | some e => directory (setEntry name (put new names e) entries)
      | none => directory entries
  | _, e => e

/-- How many links a path may follow. -/
def maxLinks : Nat := 40

/-- What the last piece of a path may be. -/
inductive Ending where
  /-- An entry that exists; a link is not followed. -/
  | unfollowed
  /-- An entry that exists, found through links. -/
  | followed
  /-- A place in an existing directory, found through links, occupied or not. -/
  | place
deriving DecidableEq, Repr

/-- Follow pieces from the directory reached by `here` up to the first link, and
from there by `follow`, which is given where the link's target begins and the
pieces from it on. -/
def advance (root : Entry) (ending : Ending)
    (follow : List String → List String → Option (List String)) (here : List String) :
    List String → Option (List String)
  | [] => some here
  | piece :: rest =>
      match root.at? here with
      | some (directory entries) =>
          if piece = "" || piece = "." then advance root ending follow here rest
          else if piece = ".." then advance root ending follow here.dropLast rest
          else
            match entries.lookup piece with
            | none => if rest.isEmpty && ending = .place then some (here ++ [piece]) else none
            | some (link target) =>
                if rest.isEmpty && ending = .unfollowed then some (here ++ [piece])
                else
                  follow (if AbsolutePath.isRooted target then [] else here)
                    (AbsolutePath.piecesOf target ++ rest)
            | some _ => advance root ending follow (here ++ [piece]) rest
      | _ => none

/-- Where the pieces of a path lead from the directory reached by `here`, as the
names from the root, `links` being how many links may be followed. -/
def resolve (root : Entry) (ending : Ending) :
    (links : Nat) → (here pieces : List String) → Option (List String)
  | 0 => advance root ending fun _ _ => none
  | links + 1 => advance root ending (resolve root ending links)

end Entry

/-- A tree of files and the names of its working directory. -/
structure FileTree where
  root : Entry
  working : List String
deriving Repr, Inhabited

namespace FileTree

/-- How many bytes the text of a path may have. -/
def maxPathSize : Nat := 4095

/-- The text is short enough for a path. -/
def fits (path : String) : Bool := path.utf8ByteSize ≤ maxPathSize

@[simp] theorem fits_iff {path : String} :
    fits path = true ↔ path.utf8ByteSize ≤ maxPathSize := by
  simp [fits]

/-- The working directory as a path. -/
def workingPath (t : FileTree) : AbsolutePath := ⟨false, t.working, false⟩

/-- Where a path as written leads, as the names from the root. -/
def resolve (t : FileTree) (ending : Entry.Ending) (path : String) : Option (List String) :=
  if path = "" || !fits path then none
  else
    t.root.resolve ending Entry.maxLinks (if AbsolutePath.isRooted path then [] else t.working)
      (AbsolutePath.piecesOf path)

/-- The entry an absolute path leads to. -/
def entry? (t : FileTree) (ending : Entry.Ending) (path : AbsolutePath) : Option Entry :=
  if fits path.text then (t.root.resolve ending Entry.maxLinks [] path.pieces).bind t.root.at?
  else none

/-- What reading the file of a path gives. -/
def content (t : FileTree) (path : String) : FileContent :=
  match (t.resolve .followed path).bind t.root.at? with
  | none => .missing
  | some (.file (some text)) => .text text
  | some _ => .unreadable

/-! ## changing the tree -/

/-- Enter the directory of a name, made now if there is none. -/
def enter (state : Entry × List String) (name : String) : Option (Entry × List String) :=
  let (root, here) := state
  if name = ".." then some (root, here.dropLast)
  else
    match (root.at? here).bind (Entry.get? name) with
    | none => some (root.put (some (.directory [])) (here ++ [name]), here ++ [name])
    | some (.directory _) => some (root, here ++ [name])
    | some (.link _) =>
        match root.resolve .followed Entry.maxLinks here [name] with
        | some there =>
            if (root.at? there).any Entry.isDirectory then some (root, there) else none
        | none => none
    | some (.file _) => none

/-- Where a path begins, and the names that follow. -/
def route (t : FileTree) (path : String) : Option (List String × List String) :=
  if fits path then
    some (if AbsolutePath.isRooted path then [] else t.working, AbsolutePath.named path)
  else none

/-- Make the directory of a path, with all directories above it. -/
def makeDirectory (t : FileTree) (path : String) : Option FileTree := do
  let (start, names) ← t.route path
  let (root, _) ← names.foldlM enter (t.root, start)
  some { t with root }

/-- Put an entry at the end of a path, with all directories above it.  A link
that is there is replaced. -/
def place (t : FileTree) (path : String) (e : Entry) : Option FileTree := do
  let (start, names) ← t.route path
  let name ← names.getLast?
  let (root, here) ← names.dropLast.foldlM enter (t.root, start)
  some { t with root := root.put (some e) (here ++ [name]) }

/-- Write a file at the end of a path, with all directories above it.  A link
that is there is written through, even to a place where nothing is yet. -/
def write (t : FileTree) (path : String) (content : Option String) : Option FileTree := do
  let (start, names) ← t.route path
  let name ← names.getLast?
  let (root, here) ← names.dropLast.foldlM enter (t.root, start)
  let there ← root.resolve .place Entry.maxLinks here [name]
  if (root.at? there).any Entry.isDirectory then none
  else some { t with root := root.put (some (.file content)) there }

/-- Remove what is at the end of a path. -/
def delete (t : FileTree) (path : String) : Option FileTree :=
  (t.resolve .unfollowed path).map fun names => { t with root := t.root.put none names }

end FileTree

end BslNav
