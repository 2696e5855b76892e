import BslNav.Proofs.Settings.Meaning

/-!
# BslNav.Proofs.Settings.Agreement

Differences between two settings files that make none to the settings.

Of two files that have the same under the declared keys, either both give the same
settings or neither gives any.  The keys are those of the lists by which undeclared
keys are told apart, so whatever is reported as undeclared, and `$schema`, may
differ in any way.  Where one of a few names is expected, the case of its letters
may differ too.

* `Settings.SameMembers`, `SameSection`, `SameSetting` — to have the same under
  declared keys, in a section and in a file;
* `Settings.describedBy_congr` — files that do describe the same settings;
* `Settings.load_declaredKeys` — and load alike.
-/

namespace BslNav

open Json

/-! ## single values -/

/-- Names that agree but for the case of their letters name the same value. -/
theorem Choice.names_congr {α : Type} [Choice α] {s t : String} {a : α}
    (h : asciiFold s = asciiFold t) :
    Choice.Names (.string s) a ↔ Choice.Names (.string t) a := by
  have hparse : Choice.parse α s = .ok a ↔ Choice.parse α t = .ok a :=
    ⟨Choice.parse_congr h, Choice.parse_congr h.symm⟩
  simpa [Choice.Names] using hparse

/-- Parts that say the same of a value, or are both absent, give it alike. -/
theorem given_congr {α : Type} {means : Json → α → Prop} {base a : α}
    {same : Json → Json → Prop} {part part' : Option Json} (h : Option.Rel same part part')
    (hsame : ∀ v w, same v w → (means v a ↔ means w a)) :
    Given means base part a ↔ Given means base part' a := by
  cases h with
  | none => rfl
  | some hvw => exact hsame _ _ hvw

namespace Settings

/-- The keys under which one of a few names is expected. -/
def choiceKeys : List String := ["language", "computeTrigger", "skipSupport", "mode"]

/-- The two values say the same under the key: they are equal, or names that agree
but for the case of the letters A to Z. -/
def SameValue (key : String) (v w : Json) : Prop :=
  v = w ∨ key ∈ choiceKeys ∧ ∃ s t, v = .string s ∧ w = .string t ∧ asciiFold s = asciiFold t

/-- Under each of the keys both have nothing, or the same in the sense that goes
with the key. -/
def SameMembers (same : String → Json → Json → Prop) (keys : List String) (ms ns : Members) :
    Prop :=
  ∀ key ∈ keys, Option.Rel (same key) (memberOf ms key) (memberOf ns key)

/-- The two values say the same of a section that declares the keys: they are equal,
or two forms of a record that have the same under these keys. -/
inductive SameSection (declared : List String) : Json → Json → Prop
  | equal (v : Json) : SameSection declared v v
  | members {v w : Json} {ms ns : Members} (left : Record.members? declared v = some ms)
      (right : Record.members? declared w = some ns) (same : SameMembers SameValue declared ms ns) :
      SameSection declared v w

/-- The two values say the same under the key of a settings file. -/
def SameSetting (key : String) (v w : Json) : Prop :=
  match sectionKeys? key with
  | some declared => SameSection declared v w
  | none => SameValue key v w

section Values

variable {key : String} {v w : Json}

/-- Under any other key the values are equal. -/
theorem SameValue.eq (h : SameValue key v w) (hkey : key ∉ choiceKeys) : v = w := by
  obtain h | ⟨hchoice, -⟩ := h
  · exact h
  · exact absurd hchoice hkey

theorem SameValue.names_iff {α : Type} [Choice α] {a : α} (h : SameValue key v w) :
    Choice.Names v a ↔ Choice.Names w a := by
  obtain rfl | ⟨-, s, t, rfl, rfl, hst⟩ := h
  · rfl
  · exact Choice.names_congr hst

variable {part part' : Option Json}

/-- A name is given alike. -/
theorem given_names_congr {α : Type} [Choice α] {base a : α}
    (h : Option.Rel (SameValue key) part part') :
    Given Choice.Names base part a ↔ Given Choice.Names base part' a :=
  given_congr h fun _ _ hvw => hvw.names_iff

/-- So is a value that is no name. -/
theorem given_value_congr {α : Type} {means : Json → α → Prop} {base a : α}
    (h : Option.Rel (SameValue key) part part') (hkey : key ∉ choiceKeys) :
    Given means base part a ↔ Given means base part' a :=
  given_congr h fun _ _ hvw => by rw [hvw.eq hkey]

/-- And so is a section that its members decide on. -/
theorem SameSection.describes_iff {σ : Type} {DescribedBy : Members → σ → Prop} {s : σ}
    {declared : List String} (h : SameSection declared v w)
    (hcongr : ∀ ms ns, SameMembers SameValue declared ms ns →
      (DescribedBy ms s ↔ DescribedBy ns s)) :
    (∃ ms, Record.members? declared v = some ms ∧ DescribedBy ms s) ↔
      ∃ ms, Record.members? declared w = some ms ∧ DescribedBy ms s := by
  cases h with
  | equal => rfl
  | members left right same => simpa [left, right] using hcongr _ _ same

end Values

end Settings

/-! ## sections -/

open Settings

section Sections

variable {ms ns : Members} {v w : Json}

theorem DiagnosticsOptions.describedBy_congr {s : DiagnosticsOptions}
    (h : SameMembers SameValue keys ms ns) : DescribedBy ms s ↔ DescribedBy ns s := by
  have hcomputeTrigger : Given Choice.Names .onSave _ s.computeTrigger ↔ _ :=
    given_names_congr (h "computeTrigger" (by decide))
  have hskipSupport : Given Choice.Names .never _ s.skipSupport ↔ _ :=
    given_names_congr (h "skipSupport" (by decide))
  have hmode : Given Choice.Names .on _ s.mode ↔ _ := given_names_congr (h "mode" (by decide))
  have hordinary : Given (fun v b => v = .bool b) true _ s.ordinaryAppSupport ↔ _ :=
    given_value_congr (h "ordinaryAppSupport" (by decide)) (by decide)
  have hparameters : Given (fun v m => v = m.toJson) ∅ _ s.parameters ↔ _ :=
    given_value_congr (h "parameters" (by decide)) (by decide)
  constructor
  · intro ⟨ha, hb, hc, hd, he⟩
    exact ⟨hcomputeTrigger.mp ha, hskipSupport.mp hb, hmode.mp hc, hordinary.mp hd,
      hparameters.mp he⟩
  · intro ⟨ha, hb, hc, hd, he⟩
    exact ⟨hcomputeTrigger.mpr ha, hskipSupport.mpr hb, hmode.mpr hc, hordinary.mpr hd,
      hparameters.mpr he⟩

theorem CodeLensOptions.describedBy_congr {s : CodeLensOptions}
    (h : SameMembers SameValue keys ms ns) : DescribedBy ms s ↔ DescribedBy ns s := by
  have hparameters : Given (fun v m => v = m.toJson) ∅ _ s.parameters ↔ _ :=
    given_value_congr (h "parameters" (by decide)) (by decide)
  exact ⟨fun ⟨ha⟩ => ⟨hparameters.mp ha⟩, fun ⟨ha⟩ => ⟨hparameters.mpr ha⟩⟩

theorem DocumentLinkOptions.describedBy_congr {s : DocumentLinkOptions}
    (h : SameMembers SameValue keys ms ns) : DescribedBy ms s ↔ DescribedBy ns s := by
  have hshow : Given (fun v b => v = .bool b) false _ s.showDiagnosticDescription ↔ _ :=
    given_value_congr (h "showDiagnosticDescription" (by decide)) (by decide)
  exact ⟨fun ⟨ha⟩ => ⟨hshow.mp ha⟩, fun ⟨ha⟩ => ⟨hshow.mpr ha⟩⟩

end Sections

/-! ## files -/

namespace Settings

variable {ms ns : Members}

/-- Members that have the same under the declared keys describe the same
settings. -/
theorem describedBy_congr {s : Settings} (h : SameMembers SameSetting valueKeys ms ns) :
    DescribedBy ms s ↔ DescribedBy ns s := by
  have hlanguage : Given Choice.Names .russian _ s.language ↔ _ :=
    @given_names_congr "language" _ _ _ _ _ _ (h "language" (by decide))
  have hdiagnostics : Given DiagnosticsOptions.Describes default _ s.diagnostics ↔ _ :=
    given_congr (h "diagnostics" (by decide)) fun _ _ hvw =>
      SameSection.describes_iff hvw fun _ _ => DiagnosticsOptions.describedBy_congr
  have hcodeLens : Given CodeLensOptions.Describes default _ s.codeLens ↔ _ :=
    given_congr (h "codeLens" (by decide)) fun _ _ hvw =>
      SameSection.describes_iff hvw fun _ _ => CodeLensOptions.describedBy_congr
  have hdocumentLink : Given DocumentLinkOptions.Describes default _ s.documentLink ↔ _ :=
    given_congr (h "documentLink" (by decide)) fun _ _ hvw =>
      SameSection.describes_iff hvw fun _ _ => DocumentLinkOptions.describedBy_congr
  have htraceLog : Given (fun v text => v = Json.ofText text) none _ s.traceLog ↔ _ :=
    @given_value_congr "traceLog" _ _ _ _ _ _ (h "traceLog" (by decide)) (by decide)
  have hroot : Given (fun v text => v = Json.ofText text) none _ s.configurationRoot ↔ _ :=
    @given_value_congr "configurationRoot" _ _ _ _ _ _ (h "configurationRoot" (by decide))
      (by decide)
  constructor
  · intro ⟨ha, hb, hc, hd, he, hf⟩
    exact ⟨hlanguage.mp ha, hdiagnostics.mp hb, hcodeLens.mp hc, hdocumentLink.mp hd,
      htraceLog.mp he, hroot.mp hf⟩
  · intro ⟨ha, hb, hc, hd, he, hf⟩
    exact ⟨hlanguage.mpr ha, hdiagnostics.mpr hb, hcodeLens.mpr hc, hdocumentLink.mpr hd,
      htraceLog.mpr he, hroot.mpr hf⟩

/-- A policy that lets undeclared keys pass accepts the object for just the settings
that its members describe. -/
theorem load_object_eq_ok_iff {policy : DriftPolicy} (hpolicy : policy ≠ .fail) {text : String}
    (htext : Json.ofText? text = some (.object ms)) {s : Settings} :
    (load policy (.text text)).2 = .ok s ↔ DescribedBy ms s := by
  rw [load_eq_ok_iff]
  simp [Accepts, htext, hpolicy, Describes, Record.members?]

/-- **Only declared keys count, and names only up to case.**  Two files, each one
object, that have the same under the declared keys, there and in their sections,
are loaded with the same settings or both fail to load, whatever else is in them,
as long as undeclared keys are not an error. -/
theorem load_declaredKeys {policy policy' : DriftPolicy} (hpolicy : policy ≠ .fail)
    (hpolicy' : policy' ≠ .fail) {text text' : String}
    (htext : Json.ofText? text = some (.object ms))
    (htext' : Json.ofText? text' = some (.object ns))
    (h : SameMembers SameSetting valueKeys ms ns) :
    (∃ s, (load policy (.text text)).2 = .ok s ∧ (load policy' (.text text')).2 = .ok s) ∨
    ∃ e e', (load policy (.text text)).2 = .error e ∧
      (load policy' (.text text')).2 = .error e' := by
  have hiff : ∀ s, (load policy (.text text)).2 = .ok s ↔
      (load policy' (.text text')).2 = .ok s := by
    intro s
    rw [load_object_eq_ok_iff hpolicy htext, load_object_eq_ok_iff hpolicy' htext',
      describedBy_congr h]
  cases hleft : (load policy (.text text)).2 with
  | ok s => exact .inl ⟨s, rfl, (hiff s).mp hleft⟩
  | error e =>
      cases hright : (load policy' (.text text')).2 with
      | ok s =>
          rw [(hiff s).mpr hright] at hleft
          contradiction
      | error e' => exact .inr ⟨e, e', rfl, rfl⟩

/-! ## two files that agree -/

/-- A file with keys that nothing declares. -/
def looseFile : String :=
  "\x7b\"x\":[],\"language\":\"EN\",\"diagnostics\":\x7b\"mode\":\"oNLY\",\"y\":1\x7d," ++
    "\"$schema\":\"s\"\x7d"

def looseMembers : Members :=
  [("$schema", .string "s"),
    ("diagnostics", .object [("mode", .string "oNLY"), ("y", .number (.int 1))]),
    ("language", .string "EN"), ("x", .array [])]

/-- The same settings without them. -/
def strictFile : String := "\x7b\"language\":\"en\",\"diagnostics\":\x7b\"mode\":\"only\"\x7d\x7d"

def strictMembers : Members :=
  [("diagnostics", .object [("mode", .string "only")]), ("language", .string "en")]

theorem sameMembers_looseMembers :
    SameMembers SameSetting valueKeys looseMembers strictMembers := by
  have hmode : SameMembers SameValue DiagnosticsOptions.keys
      [("mode", .string "oNLY"), ("y", .number (.int 1))] [("mode", .string "only")] := by
    simp only [SameMembers, DiagnosticsOptions.keys, List.forall_mem_cons]
    exact ⟨.none, .none, .some (.inr ⟨by decide, _, _, rfl, rfl, by decide⟩), .none, .none, by simp⟩
  simp only [SameMembers, valueKeys, keys, List.tail_cons, List.forall_mem_cons]
  exact ⟨.some (.inr ⟨by decide, _, _, rfl, rfl, by decide⟩), .some (.members rfl rfl hmode),
    .none, .none, .none, .none, by simp⟩

theorem load_looseFile_strictFile :
    Json.ofText? looseFile = some (.object looseMembers) ∧
    Json.ofText? strictFile = some (.object strictMembers) ∧
    SameMembers SameSetting valueKeys looseMembers strictMembers ∧
    ∃ s, (load .warn (.text looseFile)).2 = .ok s ∧
      (load .ignore (.text strictFile)).2 = .ok s := by
  have hloose : Json.ofText? looseFile = some (.object looseMembers) := by decide +kernel
  have hstrict : Json.ofText? strictFile = some (.object strictMembers) := by decide +kernel
  have hwarn : DriftPolicy.warn ≠ .fail := by decide
  have hignore : DriftPolicy.ignore ≠ .fail := by decide
  have hdescribed : DescribedBy looseMembers
      ⟨.english, ⟨.onSave, .never, .only, true, ∅⟩, default, default, none, none⟩ :=
    ⟨⟨"EN", rfl, rfl⟩, ⟨_, rfl, rfl, rfl, ⟨"oNLY", rfl, rfl⟩, rfl, rfl⟩, rfl, rfl, rfl, rfl⟩
  have hok := (load_object_eq_ok_iff hwarn hloose).mpr hdescribed
  obtain hboth | ⟨e, -, he, -⟩ :=
    load_declaredKeys hwarn hignore hloose hstrict sameMembers_looseMembers
  · exact ⟨hloose, hstrict, sameMembers_looseMembers, hboth⟩
  · simp [hok] at he

end Settings

end BslNav
