import BslNav.Proofs.Settings.Sequence

/-!
# BslNav.Proofs.Settings.Drift

Undeclared keys, as they are read and as they are searched for.

A file is read as settings from an object or from an array, and so is each of
its sections.  `HasUndeclaredKey` says that an object so read, the root or a
section, has a key that is not declared there.  The search for such keys is a
second reading of the value, and it goes through a root that is an object:

* `undeclared_ne_nil_iff` — there it finds a key exactly if there is one;
* `accepts_fail_iff` — a root that is an array gets by, whatever the keys of its
  sections;
* `update_undeclaredKey` — what becomes of either file on a store that rejects
  undeclared keys.
-/

namespace BslNav

open Json

/-- The value is an object with a key that is not among those declared. -/
def Json.HasKeyOutside (declared : List String) : Json → Prop
  | .object members => ∃ key ∈ members.map Prod.fst, key ∉ declared
  | _ => False

namespace Settings

variable {value : Json} {members : Members}

/-- An object that is read as the settings or as a section of theirs has a key
that is not declared there. -/
inductive HasUndeclaredKey (value : Json) : Prop
  | root (outside : value.HasKeyOutside keys) : HasUndeclaredKey value
  | inSection {ms : Members} {key : String} {part : Json} {declared : List String}
      (members_eq : Record.members? valueKeys value = some ms)
      (declares : sectionKeys? key = some declared) (has_part : memberOf ms key = some part)
      (outside : part.HasKeyOutside declared) : HasUndeclaredKey value

/-- A member brings undeclared keys exactly if its own is one, or if it is a
section that has one. -/
theorem undeclaredIn_ne_nil_iff {key : String} {part : Json} :
    undeclaredIn key part ≠ [] ↔
      key ∉ keys ∨ ∃ declared, sectionKeys? key = some declared ∧ part.HasKeyOutside declared := by
  unfold undeclaredIn
  by_cases hkey : key ∈ keys
  · rw [if_pos hkey]
    cases sectionKeys? key with
    | none => simp [hkey]
    | some declared => cases part <;> simp [hkey, HasKeyOutside]
  · simp [hkey]

/-- Sorting the keys loses none. -/
theorem undeclared_object_ne_nil_iff :
    undeclared (.object members) ≠ [] ↔ ∃ m ∈ members, undeclaredIn m.1 m.2 ≠ [] := by
  have hperm : (undeclared (.object members)).Perm
      (members.flatMap fun m => undeclaredIn m.1 m.2) := sortBy_perm ..
  rw [Ne, ← List.length_eq_zero_iff, hperm.length_eq, List.length_eq_zero_iff,
    List.flatMap_eq_nil_iff]
  simp

/-- **In an object, an undeclared key is found exactly if there is one.** -/
theorem undeclared_ne_nil_iff (h : (Json.object members).Ordered) :
    undeclared (.object members) ≠ [] ↔ HasUndeclaredKey (.object members) := by
  rw [undeclared_object_ne_nil_iff]
  constructor
  · rintro ⟨⟨key, part⟩, hm, hne⟩
    obtain hkey | ⟨declared, hdeclared, houtside⟩ := undeclaredIn_ne_nil_iff.mp hne
    · exact .root ⟨key, List.mem_map_of_mem hm, hkey⟩
    · exact .inSection rfl hdeclared (memberOf_of_mem h.sorted.nodup hm) houtside
  · rintro (⟨key, hkey, hnot⟩ | ⟨hms, hdeclared, hpart, houtside⟩)
    · obtain ⟨m, hm, rfl⟩ := List.mem_map.mp hkey
      exact ⟨m, hm, undeclaredIn_ne_nil_iff.mpr (.inl hnot)⟩
    · obtain rfl := Option.some.inj hms
      have hne := undeclaredIn_ne_nil_iff.mpr (.inr ⟨_, hdeclared, houtside⟩)
      exact ⟨_, mem_of_memberOf hpart, hne⟩

/-- A value that describes settings is an object or an array. -/
theorem Describes.object_or_array {v : Settings} (h : Describes value v) :
    (∃ members, value = .object members) ∨ ∃ items, value = .array items := by
  obtain ⟨ms, hms, -⟩ := h
  cases value with
  | object members => exact .inl ⟨members, rfl⟩
  | array items => exact .inr ⟨items, rfl⟩
  | null => contradiction
  | bool b => contradiction
  | number n => contradiction
  | string s => contradiction

/-- **Which files the strict policy accepts**: of those that describe settings,
the ones without an undeclared key, and all that are arrays. -/
theorem accepts_fail_iff {text : String} {v : Settings} (hvalue : Json.ofText? text = some value)
    (hdescribes : Describes value v) :
    Accepts .fail (.text text) v ↔ ¬ HasUndeclaredKey value ∨ ∃ items, value = .array items := by
  have haccepts : Accepts .fail (.text text) v ↔ undeclared value = [] := by
    simp [Accepts, hvalue, hdescribes]
  rw [haccepts]
  obtain ⟨members, rfl⟩ | ⟨items, rfl⟩ := hdescribes.object_or_array
  · rw [← undeclared_ne_nil_iff (Json.ordered_of_ofText? hvalue)]
    simp
  · simp [undeclared]

end Settings

namespace SettingsStore

variable {s : SettingsStore}

/-- A file with keys that are found undeclared leaves nothing but a note of
them. -/
theorem updateFrom_of_drift {perform : Performer} {file text : String} {value : Json}
    (hpolicy : s.policy = .fail) (hvalue : Json.ofText? text = some value)
    (hkeys : Settings.undeclared value ≠ []) :
    updateFrom perform file (.text text) s =
      some (s.note [.rejected (.drift (Settings.undeclared value))]) := by
  have hload : Settings.load s.policy (.text text) =
      ([], .error (.drift (Settings.undeclared value))) := by
    simp [Settings.load, Settings.reported, Settings.ofValue, hvalue, hpolicy, hkeys]
  simp [updateFrom, hload]

/-- **Undeclared keys under the strict policy.**  Take a file that describes
settings and has an undeclared key.  If it is an object it is rejected: the store
stays as it is, and the log names the keys.  If it is an array it is loaded and
announced. -/
theorem update_undeclaredKey (files : String → FileContent) (nesting : Nat) {file text : String}
    {value : Json} {v : Settings} (hpolicy : s.policy = .fail) (htext : files file = .text text)
    (hvalue : Json.ofText? text = some value) (hdescribes : Settings.Describes value v)
    (hkey : Settings.HasUndeclaredKey value) :
    (∃ members, value = .object members ∧
      s.perform files (nesting + 1) (.update file) =
        some (s.note [.rejected (.drift (Settings.undeclared value))])) ∨
    ∃ items, value = .array items ∧ (s.Listens →
      ∃ s' opening closing, s.perform files (nesting + 1) (.update file) = some s' ∧
        s'.settings = v ∧ s'.file = file ∧ Sequence s s' opening closing) := by
  rw [perform, htext]
  obtain ⟨members, rfl⟩ | ⟨items, rfl⟩ := hdescribes.object_or_array
  · have hkeys : Settings.undeclared (.object members) ≠ [] :=
      (Settings.undeclared_ne_nil_iff (Json.ordered_of_ofText? hvalue)).mpr hkey
    exact .inl ⟨members, rfl, updateFrom_of_drift hpolicy hvalue hkeys⟩
  · refine .inr ⟨items, rfl, fun hs => ?_⟩
    have haccepts : Settings.Accepts s.policy (.text text) v := by
      rw [hpolicy]
      exact (Settings.accepts_fail_iff hvalue hdescribes).mpr (.inr ⟨items, rfl⟩)
    obtain ⟨s', opening, closing, hs', hv, hfile, hsequence, -⟩ :=
      @updateFrom_sequence s _ file _ v (subscribes_perform files nesting) hs haccepts
    exact ⟨s', opening, closing, hs', hv, hfile, hsequence⟩

/-- A store that rejects undeclared keys, and someone who listens to it. -/
def strictStore : SettingsStore := { new .fail with observers := [.listener "log"] }

/-- A section with an undeclared key. -/
def driftedSection : Json := .object [("x", .bool true)]

theorem hasKeyOutside_driftedSection : driftedSection.HasKeyOutside DiagnosticsOptions.keys :=
  ⟨"x", by decide, by decide⟩

/-- The section in an object. -/
def driftedObject : String := "\x7b\"diagnostics\":\x7b\"x\":true\x7d\x7d"

theorem update_undeclaredKey_driftedObject : ∃ value, Json.ofText? driftedObject = some value ∧
    Settings.Describes value default ∧ Settings.HasUndeclaredKey value ∧
    strictStore.perform (fun _ => .text driftedObject) 1 (.update "a.json") =
      some (strictStore.note [.rejected (.drift (Settings.undeclared value))]) := by
  have hvalue : Json.ofText? driftedObject =
      some (.object [("diagnostics", driftedSection)]) := by decide +kernel
  have hdescribes := (Settings.read_eq_ok_iff (Json.ordered_of_ofText? hvalue)).mp rfl
  have hpart : memberOf [("diagnostics", driftedSection)] "diagnostics" = some driftedSection := rfl
  have hkey : Settings.HasUndeclaredKey (.object [("diagnostics", driftedSection)]) :=
    .inSection rfl rfl hpart hasKeyOutside_driftedSection
  have hpolicy : strictStore.policy = .fail := rfl
  obtain ⟨-, -, hrejected⟩ | ⟨items, harray, -⟩ :=
    update_undeclaredKey (fun _ => .text driftedObject) 0 hpolicy
      (@rfl _ (FileContent.text driftedObject)) hvalue hdescribes hkey
  · exact ⟨_, hvalue, hdescribes, hkey, hrejected⟩
  · cases harray

/-- The section in an array, where it comes second. -/
def driftedArray : String := "[\"en\",\x7b\"x\":true\x7d]"

/-- In an array the undeclared key gets by: the file is loaded and announced. -/
theorem not_rejected_driftedArray : ∃ value v, Json.ofText? driftedArray = some value ∧
    Settings.Describes value v ∧ Settings.HasUndeclaredKey value ∧ v ≠ strictStore.settings ∧
    (strictStore.perform (fun _ => .text driftedArray) 1 (.update "a.json")).map
        (fun s => (s.settings, s.file, s.deliveries.map Delivery.event)) =
      some (v, "a.json", [.fileChanged "a.json", .changed]) := by
  have hvalue : Json.ofText? driftedArray = some (.array [.string "en", driftedSection]) := by
    decide +kernel
  have hdescribes : Settings.Describes (.array [.string "en", driftedSection])
      { (default : Settings) with language := .english } :=
    (Settings.read_eq_ok_iff (Json.ordered_of_ofText? hvalue)).mp rfl
  have hpart : memberOf [("language", .string "en"), ("diagnostics", driftedSection)] "diagnostics" =
      some driftedSection := rfl
  have hkey : Settings.HasUndeclaredKey (.array [.string "en", driftedSection]) :=
    .inSection rfl rfl hpart hasKeyOutside_driftedSection
  exact ⟨_, _, hvalue, hdescribes, hkey, by decide, by decide +kernel⟩

end SettingsStore

end BslNav
