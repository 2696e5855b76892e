import BslNav.Proofs.Settings.Record
import BslNav.Settings.Load

/-!
# BslNav.Proofs.Settings.Meaning

What a settings file says.

`Settings.Describes` tells, field by field and without a reader, which settings
a JSON value stands for: each field has the value under its key, and its default
if the key is absent, whatever the order of the keys.  The sections are
described in the same way.

* `Settings.read_eq_ok_iff` — a value is read as settings exactly if it
  describes them.
* `Settings.load_eq_ok_iff` — a file is loaded exactly if its text is JSON that
  describes settings, and the policy does not object to its keys.
-/

namespace BslNav

open Json

variable {value : Json}

/-! ## single values -/

/-- The value is the spelling of a choice, but for the case of its letters. -/
def Choice.Names {α : Type} [Choice α] (value : Json) (a : α) : Prop :=
  ∃ text, value = .string text ∧ Choice.parse α text = .ok a

/-- A text, or `null` for none. -/
def Json.ofText : Option String → Json
  | none => .null
  | some text => .string text

namespace Readable

theorem string_eq_ok_iff {text : String} : string value = .ok text ↔ value = .string text := by
  cases value <;> simp [string, view]

theorem choice_eq_ok_iff {α : Type} [Choice α] {a : α} :
    choice α value = .ok a ↔ Choice.Names value a := by
  simp only [choice, bind_eq_ok_iff, string_eq_ok_iff, Choice.Names]
  refine exists_congr fun text => and_congr_right fun _ => ?_
  cases Choice.parse α text <;> simp

theorem bool_eq_ok_iff {b : Bool} : bool value = .ok b ↔ value = .bool b := by
  cases value <;> simp [bool, view]

theorem string?_eq_ok_iff {text : Option String} :
    string? value = .ok text ↔ value = Json.ofText text := by
  cases value <;> cases text <;> simp [string?, string, view, Json.ofText, Except.map]

/-- Members whose keys ascend, from those read before on, are taken as they
are. -/
theorem membersFrom_eq_ok_iff {before m : JsonMap} {ms : Members}
    (h : Sorted (before.members ++ ms)) :
    membersFrom before true (ms.map fun (k, v) => (some k, v)) = .ok m ↔
      m.members = before.members ++ ms := by
  induction ms generalizing before with
  | nil => cases before; cases m; simp [membersFrom, eq_comm]
  | cons p ms ih =>
      obtain ⟨k, v⟩ := p
      have hlast : ∀ l ∈ before.members.map Prod.fst, l < k := by
        intro l hl
        rw [Sorted, List.map_append, List.pairwise_append] at h
        exact h.2.2 l hl k (by simp)
      have hinsert : (before.insert k v).members = before.members ++ [(k, v)] :=
        setMember_of_lt hlast
      have hrest : membersFrom (before.insert k v) true (ms.map fun (k, v) => (some k, v)) = .ok m ↔
          _ := ih (by simpa [hinsert] using h)
      simpa [membersFrom, value?, hinsert] using hrest

theorem members_eq_ok_iff {m : JsonMap} (h : value.Ordered) :
    members value = .ok m ↔ value = m.toJson := by
  cases value with
  | object ms =>
      have hmembers : membersFrom ∅ true (ms.map fun (k, v) => (some k, v)) = .ok m ↔
          m.members = [] ++ ms := membersFrom_eq_ok_iff h.sorted
      simpa [members, view, JsonMap.toJson, eq_comm] using hmembers
  | null => simp [members, view, JsonMap.toJson]
  | bool b => simp [members, view, JsonMap.toJson]
  | number n => simp [members, view, JsonMap.toJson]
  | string s => simp [members, view, JsonMap.toJson]
  | array items => simp [members, view, JsonMap.toJson]

end Readable

/-! ## sections -/

section Fields

variable {σ : Type} {key : String} {part : Option Json} {s t : σ}

theorem takes_choice_iff {α : Type} [Choice α] {set : α → σ → σ} (get : σ → α)
    (hget : set (get s) s = s) :
    (Field.of key (Readable.choice α) set).Takes s part t ↔
      ∃ a, Given Choice.Names (get s) part a ∧ t = set a s :=
  Field.takes_of_iff get hget fun _ _ _ => Readable.choice_eq_ok_iff

theorem takes_bool_iff {set : Bool → σ → σ} (get : σ → Bool) (hget : set (get s) s = s) :
    (Field.of key Readable.bool set).Takes s part t ↔
      ∃ b, Given (fun v b => v = .bool b) (get s) part b ∧ t = set b s :=
  Field.takes_of_iff get hget fun _ _ _ => Readable.bool_eq_ok_iff

theorem takes_string?_iff {set : Option String → σ → σ} (get : σ → Option String)
    (hget : set (get s) s = s) :
    (Field.of key Readable.string? set).Takes s part t ↔
      ∃ text, Given (fun v text => v = Json.ofText text) (get s) part text ∧ t = set text s :=
  Field.takes_of_iff get hget fun _ _ _ => Readable.string?_eq_ok_iff

theorem takes_members_iff {set : JsonMap → σ → σ} (get : σ → JsonMap)
    (hget : set (get s) s = s) (hpart : ∀ v, part = some v → v.Ordered) :
    (Field.of key Readable.members set).Takes s part t ↔
      ∃ m, Given (fun v m => v = m.toJson) (get s) part m ∧ t = set m s :=
  Field.takes_of_iff get hget fun v hv _ => Readable.members_eq_ok_iff (hpart v hv)

end Fields

namespace DiagnosticsOptions

/-- What the members of the section say of its fields. -/
structure DescribedBy (ms : Members) (s : DiagnosticsOptions) : Prop where
  computeTrigger : Given Choice.Names .onSave (memberOf ms "computeTrigger") s.computeTrigger
  skipSupport : Given Choice.Names .never (memberOf ms "skipSupport") s.skipSupport
  mode : Given Choice.Names .on (memberOf ms "mode") s.mode
  ordinaryAppSupport :
    Given (fun v b => v = .bool b) true (memberOf ms "ordinaryAppSupport") s.ordinaryAppSupport
  parameters : Given (fun v m => v = m.toJson) ∅ (memberOf ms "parameters") s.parameters

/-- The value is a form of the section. -/
def Describes (value : Json) (s : DiagnosticsOptions) : Prop :=
  ∃ ms, Record.members? keys value = some ms ∧ DescribedBy ms s

theorem pairwise_commutes_fields : (@fields Json _).Pairwise Field.Commutes := by
  simp only [fields, List.pairwise_cons, List.mem_cons, List.not_mem_nil, or_false, forall_eq_or_imp,
    forall_eq, false_imp_iff, implies_true, List.Pairwise.nil, and_true]
  refine ⟨⟨?_, ?_, ?_, ?_⟩, ⟨?_, ?_, ?_⟩, ⟨?_, ?_⟩, ?_⟩ <;>
    exact Field.commutes_of fun _ _ _ => rfl

theorem assembles_iff {ms : Members} {s : DiagnosticsOptions}
    (hms : ∀ key v, memberOf ms key = some v → v.Ordered) :
    Record.Assembles (memberOf ms) fields default s ↔ DescribedBy ms s := by
  constructor
  · rintro ⟨t1, h1, t2, h2, t3, h3, t4, h4, t5, h5, rfl⟩
    obtain ⟨a, ha, rfl⟩ : ∃ a, Given _ _ _ a ∧ t1 = ⟨a, .never, .on, true, ∅⟩ :=
      (takes_choice_iff computeTrigger rfl).mp h1
    obtain ⟨b, hb, rfl⟩ : ∃ b, Given _ _ _ b ∧ t2 = ⟨a, b, .on, true, ∅⟩ :=
      (takes_choice_iff skipSupport rfl).mp h2
    obtain ⟨c, hc, rfl⟩ : ∃ c, Given _ _ _ c ∧ t3 = ⟨a, b, c, true, ∅⟩ :=
      (takes_choice_iff mode rfl).mp h3
    obtain ⟨d, hd, rfl⟩ : ∃ d, Given _ _ _ d ∧ t4 = ⟨a, b, c, d, ∅⟩ :=
      (takes_bool_iff ordinaryAppSupport rfl).mp h4
    obtain ⟨e, he, rfl⟩ : ∃ e, Given _ _ _ e ∧ s = ⟨a, b, c, d, e⟩ :=
      (takes_members_iff parameters rfl (hms _)).mp h5
    exact ⟨ha, hb, hc, hd, he⟩
  · obtain ⟨a, b, c, d, e⟩ := s
    rintro ⟨ha, hb, hc, hd, he⟩
    exact ⟨⟨a, .never, .on, true, ∅⟩, (takes_choice_iff computeTrigger rfl).mpr ⟨a, ha, rfl⟩,
      ⟨a, b, .on, true, ∅⟩, (takes_choice_iff skipSupport rfl).mpr ⟨b, hb, rfl⟩,
      ⟨a, b, c, true, ∅⟩, (takes_choice_iff mode rfl).mpr ⟨c, hc, rfl⟩,
      ⟨a, b, c, d, ∅⟩, (takes_bool_iff ordinaryAppSupport rfl).mpr ⟨d, hd, rfl⟩,
      ⟨a, b, c, d, e⟩, (takes_members_iff parameters rfl (hms _)).mpr ⟨e, he, rfl⟩, rfl⟩

theorem read_eq_ok_iff {s : DiagnosticsOptions} (h : value.Ordered) :
    read value = .ok s ↔ Describes value s := by
  rw [read, Record.read_eq_ok_iff (by decide) pairwise_commutes_fields h, map_key_fields]
  exact exists_congr fun ms => and_congr_right fun hms =>
    assembles_iff fun _ _ => Record.ordered_of_memberOf h hms

end DiagnosticsOptions

namespace CodeLensOptions

/-- What the members of the section say of its field. -/
structure DescribedBy (ms : Members) (s : CodeLensOptions) : Prop where
  parameters : Given (fun v m => v = m.toJson) ∅ (memberOf ms "parameters") s.parameters

/-- The value is a form of the section. -/
def Describes (value : Json) (s : CodeLensOptions) : Prop :=
  ∃ ms, Record.members? keys value = some ms ∧ DescribedBy ms s

theorem assembles_iff {ms : Members} {s : CodeLensOptions}
    (hms : ∀ key v, memberOf ms key = some v → v.Ordered) :
    Record.Assembles (memberOf ms) fields default s ↔ DescribedBy ms s := by
  constructor
  · rintro ⟨t, h, rfl⟩
    obtain ⟨m, hm, rfl⟩ := (takes_members_iff parameters rfl (hms _)).mp h
    exact ⟨hm⟩
  · rintro ⟨hm⟩
    exact ⟨s, (takes_members_iff parameters rfl (hms _)).mpr ⟨_, hm, rfl⟩, rfl⟩

theorem read_eq_ok_iff {s : CodeLensOptions} (h : value.Ordered) :
    read value = .ok s ↔ Describes value s := by
  have hcomm : (@fields Json _).Pairwise Field.Commutes := List.pairwise_singleton ..
  rw [read, Record.read_eq_ok_iff (by decide) hcomm h, map_key_fields]
  exact exists_congr fun ms => and_congr_right fun hms =>
    assembles_iff fun _ _ => Record.ordered_of_memberOf h hms

end CodeLensOptions

namespace DocumentLinkOptions

/-- What the members of the section say of its field. -/
structure DescribedBy (ms : Members) (s : DocumentLinkOptions) : Prop where
  showDiagnosticDescription :
    Given (fun v b => v = .bool b) false (memberOf ms "showDiagnosticDescription")
      s.showDiagnosticDescription

/-- The value is a form of the section. -/
def Describes (value : Json) (s : DocumentLinkOptions) : Prop :=
  ∃ ms, Record.members? keys value = some ms ∧ DescribedBy ms s

theorem assembles_iff {ms : Members} {s : DocumentLinkOptions} :
    Record.Assembles (memberOf ms) fields default s ↔ DescribedBy ms s := by
  constructor
  · rintro ⟨t, h, rfl⟩
    obtain ⟨b, hb, rfl⟩ := (takes_bool_iff showDiagnosticDescription rfl).mp h
    exact ⟨hb⟩
  · rintro ⟨hb⟩
    exact ⟨s, (takes_bool_iff showDiagnosticDescription rfl).mpr ⟨_, hb, rfl⟩, rfl⟩

theorem read_eq_ok_iff {s : DocumentLinkOptions} (h : value.Ordered) :
    read value = .ok s ↔ Describes value s := by
  have hcomm : (@fields Json _).Pairwise Field.Commutes := List.pairwise_singleton ..
  rw [read, Record.read_eq_ok_iff (by decide) hcomm h, map_key_fields]
  exact exists_congr fun ms => and_congr_right fun _ => assembles_iff

end DocumentLinkOptions

/-! ## settings -/

namespace Settings

/-- What the members of a settings file say of the values. -/
structure DescribedBy (ms : Members) (s : Settings) : Prop where
  language : Given Choice.Names .russian (memberOf ms "language") s.language
  diagnostics :
    Given DiagnosticsOptions.Describes default (memberOf ms "diagnostics") s.diagnostics
  codeLens : Given CodeLensOptions.Describes default (memberOf ms "codeLens") s.codeLens
  documentLink :
    Given DocumentLinkOptions.Describes default (memberOf ms "documentLink") s.documentLink
  traceLog : Given (fun v text => v = Json.ofText text) none (memberOf ms "traceLog") s.traceLog
  configurationRoot :
    Given (fun v text => v = Json.ofText text) none (memberOf ms "configurationRoot")
      s.configurationRoot

/-- The keys of the values, in the order in which an array gives them. -/
def valueKeys : List String := keys.tail

theorem map_key_fields {β : Type} [Readable β] : (@fields β _).map Field.key = valueKeys := rfl

/-- The value is a form of the settings. -/
def Describes (value : Json) (s : Settings) : Prop :=
  ∃ ms, Record.members? valueKeys value = some ms ∧ DescribedBy ms s

theorem pairwise_commutes_fields : (@fields Json _).Pairwise Field.Commutes := by
  simp only [fields, List.pairwise_cons, List.mem_cons, List.not_mem_nil, or_false, forall_eq_or_imp,
    forall_eq, false_imp_iff, implies_true, List.Pairwise.nil, and_true]
  refine ⟨⟨?_, ?_, ?_, ?_, ?_⟩, ⟨?_, ?_, ?_, ?_⟩, ⟨?_, ?_, ?_⟩, ⟨?_, ?_⟩, ?_⟩ <;>
    exact Field.commutes_of fun _ _ _ => rfl

theorem assembles_iff {ms : Members} {s : Settings}
    (hms : ∀ key v, memberOf ms key = some v → v.Ordered) :
    Record.Assembles (memberOf ms) fields default s ↔ DescribedBy ms s := by
  have hdiagnostics := fun v hv a => @DiagnosticsOptions.read_eq_ok_iff v a (hms "diagnostics" v hv)
  have hcodeLens := fun v hv a => @CodeLensOptions.read_eq_ok_iff v a (hms "codeLens" v hv)
  have hdocumentLink := fun v hv a =>
    @DocumentLinkOptions.read_eq_ok_iff v a (hms "documentLink" v hv)
  constructor
  · rintro ⟨t1, h1, t2, h2, t3, h3, t4, h4, t5, h5, t6, h6, rfl⟩
    obtain ⟨a, ha, rfl⟩ : ∃ a, Given _ _ _ a ∧ t1 = ⟨a, default, default, default, none, none⟩ :=
      (takes_choice_iff language rfl).mp h1
    obtain ⟨b, hb, rfl⟩ : ∃ b, Given _ _ _ b ∧ t2 = ⟨a, b, default, default, none, none⟩ :=
      (Field.takes_of_iff diagnostics rfl hdiagnostics).mp h2
    obtain ⟨c, hc, rfl⟩ : ∃ c, Given _ _ _ c ∧ t3 = ⟨a, b, c, default, none, none⟩ :=
      (Field.takes_of_iff codeLens rfl hcodeLens).mp h3
    obtain ⟨d, hd, rfl⟩ : ∃ d, Given _ _ _ d ∧ t4 = ⟨a, b, c, d, none, none⟩ :=
      (Field.takes_of_iff documentLink rfl hdocumentLink).mp h4
    obtain ⟨e, he, rfl⟩ : ∃ e, Given _ _ _ e ∧ t5 = ⟨a, b, c, d, e, none⟩ :=
      (takes_string?_iff traceLog rfl).mp h5
    obtain ⟨f, hf, rfl⟩ : ∃ f, Given _ _ _ f ∧ s = ⟨a, b, c, d, e, f⟩ :=
      (takes_string?_iff configurationRoot rfl).mp h6
    exact ⟨ha, hb, hc, hd, he, hf⟩
  · obtain ⟨a, b, c, d, e, f⟩ := s
    rintro ⟨ha, hb, hc, hd, he, hf⟩
    exact ⟨⟨a, default, default, default, none, none⟩,
        (takes_choice_iff language rfl).mpr ⟨a, ha, rfl⟩,
      ⟨a, b, default, default, none, none⟩,
        (Field.takes_of_iff diagnostics rfl hdiagnostics).mpr ⟨b, hb, rfl⟩,
      ⟨a, b, c, default, none, none⟩,
        (Field.takes_of_iff codeLens rfl hcodeLens).mpr ⟨c, hc, rfl⟩,
      ⟨a, b, c, d, none, none⟩,
        (Field.takes_of_iff documentLink rfl hdocumentLink).mpr ⟨d, hd, rfl⟩,
      ⟨a, b, c, d, e, none⟩, (takes_string?_iff traceLog rfl).mpr ⟨e, he, rfl⟩,
      ⟨a, b, c, d, e, f⟩, (takes_string?_iff configurationRoot rfl).mpr ⟨f, hf, rfl⟩, rfl⟩

/-- **What a settings file says**: a value is read as the settings that it
describes, and as none if it describes none. -/
theorem read_eq_ok_iff {s : Settings} (h : value.Ordered) :
    read value = .ok s ↔ Describes value s := by
  rw [read, Record.read_eq_ok_iff (by decide) pairwise_commutes_fields h, map_key_fields]
  exact exists_congr fun ms => and_congr_right fun hms =>
    assembles_iff fun _ _ => Record.ordered_of_memberOf h hms

/-! ## files -/

/-- The file is JSON that describes the settings, and the policy does not object
to its keys. -/
def Accepts (policy : DriftPolicy) (content : FileContent) (s : Settings) : Prop :=
  ∃ text value, content = .text text ∧ Json.ofText? text = some value ∧ Describes value s ∧
    (policy = .fail → undeclared value = [])

theorem ofValue_eq_ok_iff {policy : DriftPolicy} {s : Settings} (h : value.Ordered) :
    ofValue policy value = .ok s ↔
      Describes value s ∧ (policy = .fail → undeclared value = []) := by
  unfold ofValue
  split
  · next hdrift => simp [hdrift]
  · next hdrift =>
    have hpolicy : policy = .fail → undeclared value = [] := by simpa using hdrift
    rw [← read_eq_ok_iff h, and_iff_left hpolicy]
    cases read value <;> simp

/-- A file is loaded exactly if it is accepted, with the settings it describes. -/
theorem load_eq_ok_iff {policy : DriftPolicy} {content : FileContent} {s : Settings} :
    (load policy content).2 = .ok s ↔ Accepts policy content s := by
  cases content with
  | missing => simp [load, Accepts]
  | unreadable => simp [load, Accepts]
  | text text =>
      cases hvalue : Json.ofText? text with
      | none => simp [load, Accepts, hvalue]
      | some value =>
          simp [load, Accepts, hvalue, ofValue_eq_ok_iff (Json.ordered_of_ofText? hvalue)]

/-- The ways in which a file gives no settings. -/
inductive Rejects (policy : DriftPolicy) : FileContent → Prop
  | missing : Rejects policy .missing
  | unreadable : Rejects policy .unreadable
  | noJson {text : String} (hvalue : Json.ofText? text = none) : Rejects policy (.text text)
  | shape {text : String} {value : Json} (hvalue : Json.ofText? text = some value)
      (undescribed : ∀ s, ¬ Describes value s) : Rejects policy (.text text)
  | drift {text : String} {value : Json} (hvalue : Json.ofText? text = some value)
      (hpolicy : policy = .fail) (hkeys : undeclared value ≠ []) : Rejects policy (.text text)

/-- A file is rejected exactly if there are no settings it is accepted with. -/
theorem rejects_iff {policy : DriftPolicy} {content : FileContent} :
    Rejects policy content ↔ ∀ s, ¬ Accepts policy content s := by
  constructor
  · rintro h s ⟨text, value, rfl, hvalue, hdescribes, hkeys⟩
    cases h with
    | noJson hnone => simp [hvalue] at hnone
    | shape hvalue' undescribed =>
        obtain rfl := Option.some.inj (hvalue.symm.trans hvalue')
        exact undescribed s hdescribes
    | drift hvalue' hpolicy hne =>
        obtain rfl := Option.some.inj (hvalue.symm.trans hvalue')
        exact hne (hkeys hpolicy)
  · intro h
    cases content with
    | missing => exact .missing
    | unreadable => exact .unreadable
    | text text =>
        cases hvalue : Json.ofText? text with
        | none => exact .noJson hvalue
        | some value =>
            by_cases hdrift : policy = .fail ∧ undeclared value ≠ []
            · exact .drift hvalue hdrift.1 hdrift.2
            · refine .shape hvalue fun s hdescribes => ?_
              have hkeys : policy = .fail → undeclared value = [] := by simpa using hdrift
              exact h s ⟨text, value, rfl, hvalue, hdescribes, hkeys⟩

/-- A file describes one set of values at most. -/
theorem Accepts.unique {policy : DriftPolicy} {content : FileContent} {s t : Settings}
    (hs : Accepts policy content s) (ht : Accepts policy content t) : s = t := by
  rw [← load_eq_ok_iff] at hs ht
  exact Except.ok.inj (hs.symm.trans ht)

end Settings

end BslNav
