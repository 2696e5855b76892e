import BslNav.Project.FileTree

/-!
# BslNav.Proofs.Project.Following

Where paths lead in a tree without links.

Without links the components of a path alone say where it leads: a name goes
down and `..` goes up (`AbsolutePath.target`).  The tree decides only whether
there is a way.

* `FileTree.target_of_resolve` — a path as written leads to the target of the
  absolute path that it names;
* `FileTree.at?_target_of_entry?` — an absolute path leads to what stands at its
  target.
-/

namespace BslNav

namespace Entry

/-- No entry in the tree is a link. -/
inductive NoLinks : Entry → Prop
  | file (content : Option String) : NoLinks (.file content)
  | directory {entries : List (String × Entry)} (entries_linkless : ∀ m ∈ entries, m.2.NoLinks) :
      NoLinks (.directory entries)

variable {root e d : Entry} {name : String} {names : List String}

theorem NoLinks.get? (h : e.NoLinks) (hd : e.get? name = some d) : d.NoLinks := by
  cases h with
  | file content => contradiction
  | @directory entries entries_linkless =>
      obtain ⟨before, after, rfl, -⟩ := List.lookup_eq_some_iff.mp hd
      exact entries_linkless (name, d) (by simp)

theorem NoLinks.at? (h : e.NoLinks) (hd : e.at? names = some d) : d.NoLinks := by
  induction names generalizing e with
  | nil =>
      rw [Entry.at?, Option.some.injEq] at hd
      rwa [← hd]
  | cons name names ih =>
      rw [Entry.at?] at hd
      obtain ⟨f, hf, hd⟩ := Option.bind_eq_some_iff.mp hd
      exact ih (h.get? hf) hd

end Entry

namespace AbsolutePath

/-- The piece names an entry: it neither stays in the directory nor leaves it
upward. -/
def IsName (piece : String) : Prop := piece ≠ "" ∧ piece ≠ "." ∧ piece ≠ ".."

/-- Where a piece leads from the directory reached by `here`, whatever the tree. -/
def move (here : List String) (piece : String) : List String :=
  if piece = "" || piece = "." then here
  else if piece = ".." then here.dropLast
  else here ++ [piece]

/-- Where the path leads, whatever the tree. -/
def target (p : AbsolutePath) : List String := p.components.foldl move []

variable {p : AbsolutePath} {here names : List String}

theorem move_of_isName {name : String} (h : IsName name) : move here name = here ++ [name] := by
  simp [move, h.1, h.2.1, h.2.2]

/-- Names lead down, one by one. -/
theorem foldl_move_of_names (h : ∀ name ∈ names, IsName name) :
    names.foldl move here = here ++ names := by
  induction names generalizing here with
  | nil => simp
  | cons name names ih =>
      have hrest : ∀ n ∈ names, IsName n := fun n hn => h n (List.mem_cons_of_mem name hn)
      rw [List.foldl_cons, move_of_isName (h name List.mem_cons_self), ih hrest, List.append_assoc,
        List.singleton_append]

/-- Pieces that are dropped when a path is made absolute lead nowhere else. -/
theorem foldl_move_named (path : String) :
    (named path).foldl move here = (piecesOf path).foldl move here := by
  rw [named, List.foldl_filter]
  congr 1
  funext here piece
  by_cases h : piece = "" ∨ piece = "."
  · obtain rfl | rfl := h
    · rfl
    · rfl
  · have hnamed : piece ≠ "" ∧ piece ≠ "." := not_or.mp h
    simp [hnamed]

/-- A slash at the end leads nowhere else. -/
theorem foldl_move_pieces (p : AbsolutePath) : p.pieces.foldl move [] = p.target := by
  obtain ⟨doubled, components, trailing⟩ := p
  cases trailing <;> simp [pieces, target, move]

end AbsolutePath

namespace Entry

open AbsolutePath

variable {root : Entry} {ending : Ending} {here pieces there : List String}

/-- Without links, a path leads to its target if it leads anywhere. -/
theorem advance_eq_some (h : root.NoLinks) (hending : ending ≠ .place)
    {follow : List String → List String → Option (List String)}
    (hthere : advance root ending follow here pieces = some there) :
    pieces.foldl move here = there := by
  induction pieces generalizing here with
  | nil =>
      rw [advance, Option.some.injEq] at hthere
      exact hthere
  | cons piece rest ih =>
      rw [advance] at hthere
      rw [List.foldl_cons, move]
      split at hthere
      · next entries hhere =>
        split at hthere
        · next hstays => rw [if_pos hstays, ih hthere]
        · next hleaves =>
          rw [if_neg hleaves]
          split at hthere
          · next hup => rw [if_pos hup, ih hthere]
          · next hdown =>
            rw [if_neg hdown]
            split at hthere
            · simp [hending] at hthere
            · next target hlink =>
              have hlinkless : (Entry.link target).NoLinks := (h.at? hhere).get? hlink
              cases hlinkless
            · exact ih hthere
      · contradiction

theorem resolve_eq_some (h : root.NoLinks) (hending : ending ≠ .place) {links : Nat}
    (hthere : root.resolve ending links here pieces = some there) :
    pieces.foldl move here = there := by
  cases links with
  | zero => exact advance_eq_some h hending hthere
  | succ links => exact advance_eq_some h hending hthere

end Entry

namespace FileTree

open AbsolutePath

variable {t : FileTree}

/-- A tree without links, and a working directory given by names. -/
structure Plain (t : FileTree) : Prop where
  linkless : t.root.NoLinks
  working_names : ∀ name ∈ t.working, IsName name

/-- The path leads to the directory that the names lead to. -/
def Denotes (t : FileTree) (path : String) (names : List String) : Prop :=
  t.resolve .followed path = some names ∧ ∃ entries, t.root.at? names = some (.directory entries)

/-- What stands at the end of an absolute path stands at its target. -/
theorem at?_target_of_entry? (ht : t.Plain) {ending : Entry.Ending} (hending : ending ≠ .place)
    {p : AbsolutePath} {e : Entry} (he : t.entry? ending p = some e) :
    t.root.at? p.target = some e := by
  unfold entry? at he
  split at he
  · obtain ⟨there, hthere, he⟩ := Option.bind_eq_some_iff.mp he
    rw [← foldl_move_pieces, Entry.resolve_eq_some ht.linkless hending hthere]
    exact he
  · contradiction

/-- A path as written leads to the target of the absolute path that it names. -/
theorem target_of_resolve (ht : t.Plain) {path : String} {there : List String}
    (hthere : t.resolve .followed path = some there) :
    ∃ p, ofText? t.workingPath path = some p ∧ p.target = there ∧
      ∀ piece ∈ p.components, piece ≠ "" ∧ piece ≠ "." := by
  have hnamed : ∀ piece ∈ named path, piece ≠ "" ∧ piece ≠ "." := by
    intro piece hpiece
    simpa using (List.mem_filter.mp hpiece).2
  unfold resolve at hthere
  split at hthere
  · contradiction
  · next hpath =>
    have hne : path ≠ "" := by
      rintro rfl
      simp at hpath
    have htarget := Entry.resolve_eq_some ht.linkless (by decide) hthere
    rw [← foldl_move_named] at htarget
    unfold ofText?
    rw [if_neg hne]
    split
    · next hrooted =>
      rw [if_pos hrooted] at htarget
      exact ⟨_, rfl, htarget, hnamed⟩
    · next hrelative =>
      rw [if_neg hrelative] at htarget
      refine ⟨_, rfl, ?_, ?_⟩
      · have hworking : t.working.foldl move [] = t.working := foldl_move_of_names ht.working_names
        rw [target, workingPath, List.foldl_append, hworking, htarget]
      · intro piece hpiece
        obtain hpiece | hpiece := List.mem_append.mp hpiece
        · have hname : IsName piece := ht.working_names piece hpiece
          exact ⟨hname.1, hname.2.1⟩
        · exact hnamed piece hpiece

end FileTree

end BslNav
