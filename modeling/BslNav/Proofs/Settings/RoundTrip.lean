import BslNav.Proofs.Settings.Meaning

/-!
# BslNav.Proofs.Settings.RoundTrip

Sections read back from what is left of their JSON form.

The JSON form of a section is an object with all its fields.  The section comes back
from it, and from the array of the values in the order of declaration.  Where members
are missing, or the array ends early, the other fields come back all the same, and
those without a value have the default of the section, which need not be that of
their type.

* `Choice.parse_spelling` — a named value is read from its spelling;
* `Record.Form` — members that a record is assembled from, whichever are missing;
* `Record.Form.read_without`, `Record.Form.read_take` — what is read from the rest;
* `sections_roundTrip` — the three sections.
-/

namespace BslNav

open Json

/-! ## single values -/

/-- A type whose values have different spellings, even if their case is ignored. -/
class LawfulChoice (α : Type) [Choice α] : Prop where
  mem_all (a : α) : a ∈ @Choice.all α _
  spelling_injective (a b : α) :
    asciiFold (Choice.spelling a) = asciiFold (Choice.spelling b) → a = b

instance : LawfulChoice ComputeTrigger where
  mem_all a := by cases a <;> decide
  spelling_injective a b := by cases a <;> cases b <;> decide

instance : LawfulChoice SkipSupport where
  mem_all a := by cases a <;> decide
  spelling_injective a b := by cases a <;> cases b <;> decide

instance : LawfulChoice DiagnosticsMode where
  mem_all a := by cases a <;> decide
  spelling_injective a b := by cases a <;> cases b <;> decide

theorem Choice.parse_spelling {α : Type} [Choice α] [LawfulChoice α] (a : α) :
    parse α (spelling a) = .ok a := by
  unfold parse
  cases hfind : (@all α _).find? fun b => eqIgnoringCase (spelling a) (spelling b) with
  | none =>
      have hnot := List.find?_eq_none.mp hfind a (LawfulChoice.mem_all a)
      simp at hnot
  | some b =>
      have hsame : asciiFold (spelling a) = asciiFold (spelling b) := by
        simpa using List.find?_some hfind
      rw [LawfulChoice.spelling_injective a b hsame]

namespace Readable

theorem choice_toJson {α : Type} [Choice α] [LawfulChoice α] (a : α) :
    choice α (Choice.toJson a) = .ok a :=
  choice_eq_ok_iff.mpr ⟨_, rfl, Choice.parse_spelling a⟩

/-- A free-form object is read as it is, whatever lies in it. -/
theorem members_toJson (m : JsonMap) : members m.toJson = .ok m := by
  have hmembers := @membersFrom_eq_ok_iff ∅ m m.members m.sorted
  exact hmembers.mpr rfl

end Readable

/-! ## what is left of a form -/

/-- An object without the members under the given keys. -/
def Json.without (missing : List String) : Json → Json
  | .object ms => .object (ms.filter fun m => m.1 ∉ missing)
  | value => value

theorem Json.without_nil (value : Json) : value.without [] = value := by
  cases value <;> simp [Json.without]

/-- The values of an object under the given keys, in the order of the keys. -/
def Json.valuesUnder (keys : List String) : Json → List Json
  | .object ms => keys.filterMap (memberOf ms)
  | _ => []

section Members

variable {ms : Members} {keys : List String} {key : String}

theorem memberOf_filter (missing : List String) :
    memberOf (ms.filter fun m => m.1 ∉ missing) key =
      if key ∈ missing then none else memberOf ms key := by
  induction ms with
  | nil => simp
  | cons m ms ih =>
      obtain ⟨k, v⟩ := m
      rw [List.filter_cons, memberOf_cons]
      by_cases hk : k ∈ missing
      · rw [if_neg (by simpa using hk), ih]
        grind
      · rw [if_pos (by simpa using hk), memberOf_cons, ih]
        grind

/-- The first of the values stand under the first of the keys. -/
theorem memberOf_zip_take (hkeys : keys.Nodup) (hms : ∀ k ∈ keys, (memberOf ms k).isSome)
    (hkey : key ∈ keys) (n : Nat) :
    memberOf (keys.zip ((keys.filterMap (memberOf ms)).take n)) key =
      if key ∈ keys.drop n then none else memberOf ms key := by
  induction keys generalizing n with
  | nil => simp at hkey
  | cons k keys ih =>
      obtain ⟨hk, hnodup⟩ := List.nodup_cons.mp hkeys
      obtain ⟨v, hv⟩ := Option.isSome_iff_exists.mp (hms k List.mem_cons_self)
      cases n with
      | zero => simp [hkey]
      | succ n =>
          rw [List.filterMap_cons_some hv, List.take_succ_cons, List.zip_cons_cons, memberOf_cons,
            List.drop_succ_cons]
          obtain rfl | hmem := List.mem_cons.mp hkey
          · have hdrop : key ∉ keys.drop n := fun h => hk (List.mem_of_mem_drop h)
            rw [if_pos rfl, if_neg hdrop, hv]
          · have hne : key ≠ k := fun heq => hk (heq ▸ hmem)
            rw [if_neg hne, ih hnodup (fun l hl => hms l (List.mem_cons_of_mem k hl)) hmem]

end Members

/-! ## forms of a record -/

namespace Record

variable {σ : Type} {fields : List (Field Json σ)} {base : σ} {ms : Members}
  {reset : List String → σ}

/-- The members are a form of a record: each field has one, and if some are missing,
what comes from the others is the record with these fields reset. -/
structure Form (fields : List (Field Json σ)) (base : σ) (ms : Members)
    (reset : List String → σ) : Prop where
  perm_keys : (ms.map Prod.fst).Perm (fields.map Field.key)
  assembles (missing : List String) :
    Assembles (fun key => if key ∈ missing then none else memberOf ms key) fields base
      (reset missing)

theorem Form.isSome_memberOf (h : Form fields base ms reset)
    (hkeys : (fields.map Field.key).Nodup) :
    ∀ key ∈ fields.map Field.key, (memberOf ms key).isSome := by
  have hnodup := h.perm_keys.nodup_iff.mpr hkeys
  intro key hkey
  obtain ⟨⟨key, v⟩, hm, rfl⟩ := List.mem_map.mp (h.perm_keys.mem_iff.mpr hkey)
  rw [memberOf_of_mem hnodup hm, Option.isSome_some]

theorem Form.length_valuesUnder (h : Form fields base ms reset)
    (hkeys : (fields.map Field.key).Nodup) :
    ((Json.object ms).valuesUnder (fields.map Field.key)).length =
      (fields.map Field.key).length :=
  List.filterMap_length_eq_length.mpr (h.isSome_memberOf hkeys)

theorem read_object_eq_ok_iff {s s' : σ} (hkeys : (fields.map Field.key).Nodup)
    (hcomm : fields.Pairwise Field.Commutes) (hms : (ms.map Prod.fst).Nodup) :
    read fields s (.object ms) = .ok s' ↔ Assembles (memberOf ms) fields s s' :=
  ofMembers_eq_ok_iff hkeys hcomm hms (by simp)

theorem read_array_eq_ok_iff {s s' : σ} {items : List Json}
    (hkeys : (fields.map Field.key).Nodup) :
    read fields s (.array items) = .ok s' ↔ items.length ≤ fields.length ∧
      Assembles (memberOf ((fields.map Field.key).zip items)) fields s s' :=
  ofItems_eq_ok_iff hkeys

/-- Any members may be missing. -/
theorem Form.read_without (h : Form fields base ms reset) (hkeys : (fields.map Field.key).Nodup)
    (hcomm : fields.Pairwise Field.Commutes) (missing : List String) :
    read fields base ((Json.object ms).without missing) = .ok (reset missing) := by
  have hnodup : ((ms.filter fun m => m.1 ∉ missing).map Prod.fst).Nodup :=
    (h.perm_keys.nodup_iff.mpr hkeys).sublist (List.filter_sublist.map Prod.fst)
  rw [Json.without, read_object_eq_ok_iff hkeys hcomm hnodup]
  exact (assembles_congr fun f _ => memberOf_filter missing).mpr (h.assembles missing)

/-- The array may end anywhere. -/
theorem Form.read_take (h : Form fields base ms reset) (hkeys : (fields.map Field.key).Nodup)
    (n : Nat) :
    read fields base (.array (((Json.object ms).valuesUnder (fields.map Field.key)).take n)) =
      .ok (reset ((fields.map Field.key).drop n)) := by
  rw [read_array_eq_ok_iff hkeys, List.length_take, h.length_valuesUnder hkeys, List.length_map]
  refine ⟨Nat.min_le_right .., (assembles_congr fun f hf => ?_).mpr (h.assembles _)⟩
  exact memberOf_zip_take hkeys (h.isSome_memberOf hkeys) (List.mem_map_of_mem hf) n

/-- A field takes the value of its member, and keeps its own if that is missing. -/
theorem takes_unless_missing {α : Type} {key : String} {read : Json → Except DecodeError α}
    {set : α → σ → σ} {s : σ} {v : Json} {a : α} (get : σ → α) (hget : set (get s) s = s)
    (hread : read v = .ok a) (hv : memberOf ms key = some v) (missing : List String) :
    (Field.of key read set).Takes s (if key ∈ missing then none else memberOf ms key)
      (set (if key ∈ missing then get s else a) s) := by
  rw [hv]
  split
  · exact hget
  · exact Field.store_of_eq_ok_iff.mpr ⟨a, hread, rfl⟩

end Record

/-! ## sections -/

/-- A section is read back from its JSON form and from the array of its values, one
for each key.  What is left of either reads as the section reset in the fields that
nothing is left of. -/
structure RoundTrips {σ : Type} (read : Json → Except DecodeError σ) (toJson : σ → Json)
    (keys : List String) (reset : List String → σ → σ) : Prop where
  object (s : σ) : read (toJson s) = .ok s
  array (s : σ) : read (.array ((toJson s).valuesUnder keys)) = .ok s
  length_values (s : σ) : ((toJson s).valuesUnder keys).length = keys.length
  object_without (s : σ) (missing : List String) :
    read ((toJson s).without missing) = .ok (reset missing s)
  array_take (s : σ) (n : Nat) :
    read (.array (((toJson s).valuesUnder keys).take n)) = .ok (reset (keys.drop n) s)

/-- A record makes the round trip if its JSON form is an object whose members are a
form of it. -/
theorem Record.roundTrips {σ : Type} {fields : List (Field Json σ)} {base : σ} {toJson : σ → Json}
    {reset : List String → σ → σ} (hkeys : (fields.map Field.key).Nodup)
    (hcomm : fields.Pairwise Field.Commutes) (hreset : ∀ s, reset [] s = s)
    (h : ∀ s, ∃ ms, toJson s = .object ms ∧ Form fields base ms (reset · s)) :
    RoundTrips (Record.read fields base) toJson (fields.map Field.key) reset where
  object s := by
    obtain ⟨ms, hjson, hform⟩ := h s
    have hread := hform.read_without hkeys hcomm []
    rwa [hreset, Json.without_nil, ← hjson] at hread
  array s := by
    obtain ⟨ms, hjson, hform⟩ := h s
    have hread := hform.read_take hkeys (fields.map Field.key).length
    rwa [List.drop_length, hreset, ← hform.length_valuesUnder hkeys, List.take_length, ← hjson]
      at hread
  length_values s := by
    obtain ⟨ms, hjson, hform⟩ := h s
    exact hjson ▸ hform.length_valuesUnder hkeys
  object_without s missing := by
    obtain ⟨ms, hjson, hform⟩ := h s
    exact hjson ▸ hform.read_without hkeys hcomm missing
  array_take s n := by
    obtain ⟨ms, hjson, hform⟩ := h s
    exact hjson ▸ hform.read_take hkeys n

namespace DiagnosticsOptions

/-- The section with the defaults in the fields of the keys. -/
def reset (keys : List String) (s : DiagnosticsOptions) : DiagnosticsOptions where
  computeTrigger := if "computeTrigger" ∈ keys then .onSave else s.computeTrigger
  skipSupport := if "skipSupport" ∈ keys then .never else s.skipSupport
  mode := if "mode" ∈ keys then .on else s.mode
  ordinaryAppSupport := if "ordinaryAppSupport" ∈ keys then true else s.ordinaryAppSupport
  parameters := if "parameters" ∈ keys then ∅ else s.parameters

theorem exists_form (s : DiagnosticsOptions) :
    ∃ ms, toJson s = .object ms ∧ Record.Form fields default ms (reset · s) := by
  refine ⟨_, rfl, ?_, fun missing => ?_⟩
  · have hkeys : ["computeTrigger", "mode", "ordinaryAppSupport", "parameters",
        "skipSupport"].Perm keys := by decide
    exact hkeys
  · -- `t` comes about field by field, in the order of declaration
    let t := reset missing s
    exact ⟨⟨t.computeTrigger, .never, .on, true, ∅⟩,
        Record.takes_unless_missing computeTrigger rfl (Readable.choice_toJson _) rfl missing,
      ⟨t.computeTrigger, t.skipSupport, .on, true, ∅⟩,
        Record.takes_unless_missing skipSupport rfl (Readable.choice_toJson _) rfl missing,
      ⟨t.computeTrigger, t.skipSupport, t.mode, true, ∅⟩,
        Record.takes_unless_missing mode rfl (Readable.choice_toJson _) rfl missing,
      ⟨t.computeTrigger, t.skipSupport, t.mode, t.ordinaryAppSupport, ∅⟩,
        Record.takes_unless_missing ordinaryAppSupport rfl (Readable.bool_eq_ok_iff.mpr rfl) rfl
          missing,
      t, Record.takes_unless_missing parameters rfl (Readable.members_toJson _) rfl missing, rfl⟩

end DiagnosticsOptions

namespace CodeLensOptions

/-- The section with the defaults in the fields of the keys. -/
def reset (keys : List String) (s : CodeLensOptions) : CodeLensOptions where
  parameters := if "parameters" ∈ keys then ∅ else s.parameters

theorem exists_form (s : CodeLensOptions) :
    ∃ ms, toJson s = .object ms ∧ Record.Form fields default ms (reset · s) :=
  ⟨_, rfl, .refl keys, fun missing =>
    ⟨reset missing s,
      Record.takes_unless_missing parameters rfl (Readable.members_toJson _) rfl missing, rfl⟩⟩

end CodeLensOptions

namespace DocumentLinkOptions

/-- The section with the defaults in the fields of the keys. -/
def reset (keys : List String) (s : DocumentLinkOptions) : DocumentLinkOptions where
  showDiagnosticDescription :=
    if "showDiagnosticDescription" ∈ keys then false else s.showDiagnosticDescription

theorem exists_form (s : DocumentLinkOptions) :
    ∃ ms, toJson s = .object ms ∧ Record.Form fields default ms (reset · s) :=
  ⟨_, rfl, .refl keys, fun missing =>
    ⟨reset missing s,
      Record.takes_unless_missing showDiagnosticDescription rfl (Readable.bool_eq_ok_iff.mpr rfl)
        rfl missing, rfl⟩⟩

end DocumentLinkOptions

/-- **Sections survive the round trip**: each is read back from its JSON form and from
the array of its values, whatever its parameters are.  Where keys are missing or the
array ends early, exactly their fields have the default of the section. -/
theorem sections_roundTrip :
    RoundTrips DiagnosticsOptions.read DiagnosticsOptions.toJson DiagnosticsOptions.keys
        DiagnosticsOptions.reset ∧
      RoundTrips CodeLensOptions.read CodeLensOptions.toJson CodeLensOptions.keys
        CodeLensOptions.reset ∧
      RoundTrips DocumentLinkOptions.read DocumentLinkOptions.toJson DocumentLinkOptions.keys
        DocumentLinkOptions.reset := by
  have hdiagnostics := Record.roundTrips (by decide) DiagnosticsOptions.pairwise_commutes_fields
    (fun _ => rfl) DiagnosticsOptions.exists_form
  have hcodeLens := Record.roundTrips (by decide) (List.pairwise_singleton ..) (fun _ => rfl)
    CodeLensOptions.exists_form
  have hdocumentLink := Record.roundTrips (by decide) (List.pairwise_singleton ..) (fun _ => rfl)
    DocumentLinkOptions.exists_form
  exact ⟨hdiagnostics, hcodeLens, hdocumentLink⟩

end BslNav
