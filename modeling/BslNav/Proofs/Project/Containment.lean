import BslNav.Project.Root
import BslNav.Proofs.Project.Following

/-!
# BslNav.Proofs.Project.Containment

Configured directories outside the source directory.

Whether a configured directory lies under the source directory is decided on the
components of the two paths, and a component `..` counts like any other.  In a
tree without links that goes wrong in one way only: the configured path runs
through the source directory and goes up after that (`ClimbsFrom`).

* `configurationRoot_outside` — a directory that is not under the source
  directory is refused, unless its path climbs;
* `not_refused_climbing` — a path that does.
-/

namespace BslNav

namespace AbsolutePath

variable {p base : AbsolutePath} {rest : List String}

theorem isUnder_iff :
    p.isUnder base = true ↔ ∃ rest, p.components = base.components ++ rest := by
  rw [isUnder, List.isPrefixOf_iff_prefix]
  exact exists_congr fun _ => eq_comm

/-- The path begins as `base` does, and goes up somewhere after that. -/
def ClimbsFrom (p base : AbsolutePath) : Prop :=
  ∃ rest, p.components = base.components ++ rest ∧ ".." ∈ rest

/-- Names after a path lead further down. -/
theorem target_prefix_of_names (h : p.components = base.components ++ rest)
    (hrest : ∀ piece ∈ rest, IsName piece) : base.target <+: p.target := by
  rw [target, target, h, List.foldl_append, foldl_move_of_names hrest]
  exact List.prefix_append ..

/-- What lies outside and yet has the components of what lies under climbs. -/
theorem isUnder_iff_climbsFrom (hp : ∀ piece ∈ p.components, piece ≠ "" ∧ piece ≠ ".")
    (houtside : ¬ base.target <+: p.target) : p.isUnder base = true ↔ p.ClimbsFrom base := by
  rw [isUnder_iff]
  constructor
  · rintro ⟨rest, hrest⟩
    refine ⟨rest, hrest, ?_⟩
    -- without `..` the rest would consist of names, which lead down
    apply Classical.byContradiction
    intro hup
    refine houtside (target_prefix_of_names hrest fun piece hpiece => ?_)
    have hkept := hp piece (by simp [hrest, hpiece])
    exact ⟨hkept.1, hkept.2, fun heq => hup (heq ▸ hpiece)⟩
  · rintro ⟨rest, hrest, -⟩
    exact ⟨rest, hrest⟩

/-- A path that climbs to the outside has two components at least. -/
theorem two_le_length_of_climbsFrom (h : p.ClimbsFrom base)
    (houtside : ¬ base.target <+: p.target) : 2 ≤ p.components.length := by
  obtain ⟨rest, hrest, hup⟩ := h
  have hbase : base.components ≠ [] := by
    intro hnil
    rw [target, hnil] at houtside
    exact houtside List.nil_prefix
  have hpos := List.length_pos_iff.mpr hbase
  have hrestpos := List.length_pos_of_mem hup
  rw [hrest, List.length_append]
  omega

theorem length_child (p : AbsolutePath) (name : String) :
    (p.child name).components.length = p.components.length + 1 := by
  simp [child]

/-- There are as many paths above a path as it has components. -/
theorem isSome_ancestor? {n : Nat} (h : n ≤ p.components.length) : (p.ancestor? n).isSome := by
  induction n generalizing p with
  | zero => rfl
  | succ n ih =>
      have hne : ¬ p.components.isEmpty := by
        rw [List.isEmpty_iff_length_eq_zero]
        omega
      rw [ancestor?, parent?, if_neg hne, Option.bind_some]
      apply ih
      rw [List.length_dropLast]
      omega

end AbsolutePath

open AbsolutePath

/-! ## searching -/

/-- A walk stops at its start and at what lies below it. -/
theorem mem_walk {depth : Nat} {path q : AbsolutePath} {e f : Entry}
    (h : .entry q f ∈ walk depth path e) :
    (q = path ∧ f = e) ∨ path.components.length < q.components.length := by
  induction depth generalizing path e with
  | zero =>
      unfold walk at h
      exact .inl (by simpa using h)
  | succ depth ih =>
      unfold walk at h
      cases e with
      | file content => exact .inl (by simpa using h)
      | link target => exact .inl (by simpa using h)
      | directory entries =>
          obtain hhere | hbelow := List.mem_cons.mp h
          · exact .inl (by simpa using hhere)
          · right
            dsimp only at hbelow
            split at hbelow
            · obtain ⟨⟨name, g⟩, -, hg⟩ := List.mem_flatMap.mp hbelow
              obtain ⟨rfl, -⟩ | hlt := ih hg
              · rw [length_child]
                exact Nat.lt_succ_self _
              · rw [length_child] at hlt
                exact Nat.lt_of_succ_lt hlt
            · simp at hbelow

/-- What a search finds was a stop of the walk. -/
theorem mem_walk_of_search {start file : AbsolutePath} {e : Entry}
    (h : search start e = .found file) :
    ∃ f, .entry file f ∈ walk searchDepth start e ∧ isConfigurationFile file f = true := by
  unfold search at h
  cases hfound : (walk searchDepth start e).findSome? Stop.outcome? with
  | none => simp [hfound] at h
  | some outcome =>
      obtain rfl : outcome = .found file := by simpa [hfound] using h
      obtain ⟨stop, hstop, houtcome⟩ := List.exists_of_findSome?_eq_some hfound
      cases stop with
      | closed => simp [Stop.outcome?] at houtcome
      | entry path f =>
          rw [Stop.outcome?] at houtcome
          split at houtcome
          · next hfile =>
            obtain rfl : path = file := by simpa using houtcome
            exact ⟨f, hstop, hfile⟩
          · contradiction

section Search

variable {t : FileTree} {start file : AbsolutePath} {entries : List (String × Entry)}

/-- A search that starts at a directory walks through it. -/
theorem searchStart_eq_some (ht : t.Plain)
    (hstart : t.root.at? start.target = some (.directory entries)) {e : Entry}
    (h : searchStart t start = some e) : e = .directory entries := by
  have hentry : ∀ d, t.entry? .unfollowed start = some d → d = .directory entries := by
    intro d hd
    have hd := FileTree.at?_target_of_entry? ht (by decide) hd
    exact Option.some.inj (hd.symm.trans hstart)
  unfold searchStart at h
  split at h
  · contradiction
  · next target hlink =>
    have hd := hentry _ hlink
    contradiction
  · next d _ hd =>
    rw [← Option.some.inj h]
    exact hentry d hd

/-- The file that a search finds lies below the directory where it started. -/
theorem length_lt_of_searchFrom (ht : t.Plain)
    (hstart : t.root.at? start.target = some (.directory entries))
    (h : searchFrom t start = .found file) : start.components.length < file.components.length := by
  unfold searchFrom at h
  split at h
  · contradiction
  · next e he =>
    obtain rfl := searchStart_eq_some ht hstart he
    obtain ⟨f, hf, hfile⟩ := mem_walk_of_search h
    obtain ⟨-, rfl⟩ | hlt := mem_walk hf
    · simp [isConfigurationFile] at hfile
    · exact hlt

theorem levelsUp_le (file : AbsolutePath) : levelsUp file ≤ 3 := by
  unfold levelsUp
  split <;> omega

/-- From a directory with two names above it, a root is always found. -/
theorem isSome_configurationRoot (ht : t.Plain) {configured : Option String} {source : String}
    (hroot : searchRoot t.workingPath configured source = .ok start)
    (hstart : t.root.at? start.target = some (.directory entries))
    (hlength : 2 ≤ start.components.length) : (configurationRoot t configured source).1.isSome := by
  unfold configurationRoot
  rw [hroot]
  dsimp only
  split
  · rfl
  · rfl
  · next file hfile =>
    have hlt := length_lt_of_searchFrom ht hstart hfile
    have hlevels := levelsUp_le file
    exact isSome_ancestor? (by omega)

/-- **Configured directories outside the source directory.**  In a tree without
links such a directory is refused, except if its path runs through the source
directory and goes up after that: then it is searched, and a root is found. -/
theorem configurationRoot_outside (ht : t.Plain) {configured source : String}
    {outer inner : List String} (hconfigured : t.Denotes configured outer)
    (hsource : t.Denotes source inner) (houtside : ¬ inner <+: outer) :
    ∃ p base, ofText? t.workingPath configured = some p ∧
      ofText? t.workingPath source = some base ∧
      (¬ p.ClimbsFrom base → configurationRoot t (some configured) source = (none, [.outside])) ∧
      (p.ClimbsFrom base → searchRoot t.workingPath (some configured) source = .ok p ∧
        (configurationRoot t (some configured) source).1.isSome) := by
  obtain ⟨hp, entries, hentries⟩ := hconfigured
  obtain ⟨p, hptext, rfl, hpieces⟩ := FileTree.target_of_resolve ht hp
  obtain ⟨base, hbasetext, rfl, -⟩ := FileTree.target_of_resolve ht hsource.1
  have hunder := isUnder_iff_climbsFrom hpieces houtside
  refine ⟨p, base, hptext, hbasetext, fun hstays => ?_, fun hclimbs => ?_⟩
  · have hnot : ¬ p.isUnder base = true := fun h => hstays (hunder.mp h)
    have hroot : searchRoot t.workingPath (some configured) source = .error .outside := by
      simp [searchRoot, hptext, hbasetext, hnot]
    rw [configurationRoot, hroot]
  · have hroot : searchRoot t.workingPath (some configured) source = .ok p := by
      simp [searchRoot, hptext, hbasetext, hunder.mpr hclimbs]
    have hlength := two_le_length_of_climbsFrom hclimbs houtside
    exact ⟨hroot, isSome_configurationRoot ht hroot hentries hlength⟩

end Search

/-- A source directory beside another. -/
def siblingTree : FileTree := ⟨.directory [("src", .directory []), ("other", .directory [])], []⟩

theorem plain_siblingTree : siblingTree.Plain := by
  have hempty : (Entry.directory []).NoLinks := .directory (by simp)
  exact ⟨.directory (by simp [hempty]), by simp [siblingTree]⟩

theorem configurationRoot_outside_siblingTree :
    siblingTree.Plain ∧ siblingTree.Denotes "/other" ["other"] ∧
    siblingTree.Denotes "/src" ["src"] ∧ ¬ ["src"] <+: ["other"] ∧
    configurationRoot siblingTree (some "/other") "/src" = (none, [.outside]) := by
  have hother : siblingTree.Denotes "/other" ["other"] := ⟨rfl, [], rfl⟩
  have hsrc : siblingTree.Denotes "/src" ["src"] := ⟨rfl, [], rfl⟩
  obtain ⟨p, base, hp, hbase, hrefused, -⟩ :=
    configurationRoot_outside plain_siblingTree hother hsrc (by decide)
  obtain rfl : ⟨false, ["other"], false⟩ = p := Option.some.inj hp
  obtain rfl : ⟨false, ["src"], false⟩ = base := Option.some.inj hbase
  have hstays : ¬ ClimbsFrom ⟨false, ["other"], false⟩ ⟨false, ["src"], false⟩ := by
    rintro ⟨rest, hrest, -⟩
    simp at hrest
  exact ⟨plain_siblingTree, hother, hsrc, by decide, hrefused hstays⟩

/-- By a path through the source directory the other one passes for the root. -/
theorem not_refused_climbing :
    siblingTree.Plain ∧ siblingTree.Denotes "/src/../other" ["other"] ∧
    siblingTree.Denotes "/src" ["src"] ∧ ¬ ["src"] <+: ["other"] ∧
    configurationRoot siblingTree (some "/src/../other") "/src" =
      (some ⟨false, ["src", "..", "other"], false⟩, []) :=
  ⟨plain_siblingTree, ⟨rfl, [], rfl⟩, ⟨rfl, [], rfl⟩, by decide, rfl⟩

end BslNav
