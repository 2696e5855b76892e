import BslNav.Project.FileTree

/-!
# BslNav.Project.Root

Where the sources of a project begin.

The search goes through a directory depth first, entries in the order of their
names, and ends at the first file that describes a configuration, or at the
first directory that cannot be opened.  The root lies a fixed number of levels
above the file, depending on the layout; without such a file it is the
directory where the search began.  Links inside are not followed.

A directory set in the settings narrows the search.  It must lie under the
source directory, which is decided on the paths alone.
-/

namespace BslNav

/-- The end of the name of the describing file in the designer's layout. -/
def designerSuffix : String := "Configuration.xml"

/-- The end of the name of the describing file in the development tools'
layout. -/
def toolsSuffix : String := "Configuration.mdo"

/-- How far below the start the search goes. -/
def searchDepth : Nat := 50

/-- Directory entries in the order of their names. -/
def byName (entries : List (String × Entry)) : List (String × Entry) :=
  sortBy (fun a b => decide (a.1 ≤ b.1)) entries

/-- One stop of a walk through a directory. -/
inductive Stop where
  | entry (path : AbsolutePath) (e : Entry)
  /-- The directory that was the stop before cannot be opened. -/
  | closed
deriving Repr

/-- An entry and everything at most `depth` levels below it, each directory
before its contents.  A directory opens only if its path is short enough. -/
def walk (depth : Nat) (path : AbsolutePath) (e : Entry) : List Stop :=
  .entry path e ::
    match depth, e with
    | depth + 1, .directory entries =>
        if FileTree.fits path.text then
          (byName entries).flatMap fun (name, e) => walk depth (path.child name) e
        else [.closed]
    | _, _ => []

/-- The file name of the path ends in the given way. -/
def hasSuffix (suffix : String) (path : AbsolutePath) : Bool :=
  path.fileName?.any fun name => suffix.toList.isSuffixOf name.toList

/-- The file name ends in one of the two ways. -/
def describesConfiguration (path : AbsolutePath) : Bool :=
  hasSuffix designerSuffix path || hasSuffix toolsSuffix path

/-- A file that describes a configuration. -/
def isConfigurationFile (path : AbsolutePath) : Entry → Bool
  | .file _ => describesConfiguration path
  | _ => false

/-- What a search comes to. -/
inductive Search where
  /-- The start, or a directory on the way, cannot be read. -/
  | failed
  | nothing
  | found (file : AbsolutePath)
deriving DecidableEq, Repr

/-- What a stop makes of the search, if it ends there. -/
def Stop.outcome? : Stop → Option Search
  | .entry path e => if isConfigurationFile path e then some (.found path) else none
  | .closed => some .failed

/-- Walk until the search ends. -/
def search (start : AbsolutePath) (e : Entry) : Search :=
  ((walk searchDepth start e).findSome? Stop.outcome?).getD .nothing

/-- How many levels above the describing file the root is. -/
def levelsUp (file : AbsolutePath) : Nat :=
  if hasSuffix toolsSuffix file then 3 else 1

/-- What the search starts from.  A link at the start is followed if it leads to
a directory, and is no file otherwise; a start that leads nowhere is an
error. -/
def searchStart (t : FileTree) (start : AbsolutePath) : Option Entry :=
  match t.entry? .unfollowed start with
  | none => none
  | some (.link target) =>
      match t.entry? .followed start with
      | none => none
      | some e => some (if e.isDirectory then e else .link target)
  | some e => some e

/-- Search for the describing file from a start. -/
def searchFrom (t : FileTree) (start : AbsolutePath) : Search :=
  match searchStart t start with
  | none => .failed
  | some e => search start e

/-- What the log says about a search. -/
inductive RootNotice where
  | notAbsolute
  | outside
  | unreadable
  | found
deriving DecidableEq, Repr

def RootNotice.level : RootNotice → Level
  | .notAbsolute => .warn
  | .outside => .warn
  | .unreadable => .error
  | .found => .debug

def RootNotice.message : RootNotice → String
  | .notAbsolute => "can't make path absolute"
  | .outside => "configured root is outside the source directory"
  | .unreadable => "error on read configuration file"
  | .found => "configuration file found"

/-- Where to search: under the configured directory if there is one and it lies
under the source directory, otherwise under the source directory. -/
def searchRoot (working : AbsolutePath) (configured : Option String) (source : String) :
    Except RootNotice AbsolutePath :=
  match AbsolutePath.ofText? working source with
  | none => .error .notAbsolute
  | some source =>
      match configured with
      | none => .ok source
      | some configured =>
          match AbsolutePath.ofText? working configured with
          | none => .error .notAbsolute
          | some configured => if configured.isUnder source then .ok configured else .error .outside

/-- The root of the project, and what the log says. -/
def configurationRoot (t : FileTree) (configured : Option String) (source : String) :
    Option AbsolutePath × List RootNotice :=
  match searchRoot t.workingPath configured source with
  | .error notice => (none, [notice])
  | .ok start =>
      match searchFrom t start with
      | .failed => (some start, [.unreadable])
      | .nothing => (some start, [])
      | .found file => (file.ancestor? (levelsUp file), [.found])

end BslNav
