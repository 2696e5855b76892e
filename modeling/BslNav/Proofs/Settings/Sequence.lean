import BslNav.Proofs.Settings.Run

/-!
# BslNav.Proofs.Settings.Sequence

What observers see at the two events of a load or a reset.

The file is announced first and the values after it.  At the second event
everyone sees the values as they are from then on.  What is seen at the first
depends on the call: a load replaces the values between the two events, so the
old ones are still in force; a reset restores the defaults before either.

* `announcement_sequence` — the first event shows the values of before exactly
  if the call is no reset, or no one is there to see them, or they were the
  defaults with no feature switched on.
* `not_sees_reset` — a reset after a change of language.
-/

namespace BslNav

/-- Who is told sees the values and the features of the store. -/
def Delivery.Sees (d : Delivery) (s : SettingsStore) : Prop :=
  d.sight.settings = s.settings ∧ d.sight.features = s.features

namespace SettingsStore

variable {s s' : SettingsStore} {c : Call}

theorem Heard.sees {event : Event} {observers : List Observer} {heard : List Delivery}
    (h : Heard event observers s heard) : ∀ d ∈ heard, d.Sees s :=
  fun d hd => ⟨h.settings d hd, h.features d hd⟩

/-- If one who hears sees the values of two stores, the stores agree on them. -/
theorem Heard.forall_sees_iff {event : Event} {observers : List Observer} {heard : List Delivery}
    (h : Heard event observers s heard) :
    (∀ d ∈ heard, d.Sees s') ↔
      observers = [] ∨ s'.settings = s.settings ∧ s'.features = s.features := by
  cases heard with
  | nil =>
      have hnil : observers = [] := by simpa using h.names.symm
      simp [hnil]
  | cons d heard =>
      have hcons : observers ≠ [] := by
        rintro rfl
        simpa using h.names
      have hd := h.sees d List.mem_cons_self
      constructor
      · intro hall
        have hd' := hall d List.mem_cons_self
        exact .inr ⟨hd'.1.symm.trans hd.1, hd'.2.symm.trans hd.2⟩
      · rintro (hnil | ⟨hsettings, hfeatures⟩)
        · exact absurd hnil hcons
        · intro e he
          have hsees := h.sees e he
          exact ⟨hsees.1.trans hsettings.symm, hsees.2.trans hfeatures.symm⟩

/-- What is heard when a call announces its two events: everyone hears the file
named first, and then, with those who joined meanwhile, that the values are
there, and sees them. -/
structure Sequence (s : SettingsStore) (s' : SettingsStore) (opening closing : List Delivery) :
    Prop where
  deliveries : s'.deliveries = s.deliveries ++ opening ++ closing
  opening_names : opening.map Delivery.observer = s.observers.map Observer.name
  opening_event : ∀ d ∈ opening, d.event = .fileChanged s'.file
  closing_names : ∃ joined,
    closing.map Delivery.observer = s.observers.map Observer.name ++ joined
  closing_event : ∀ d ∈ closing, d.event = .changed
  closing_sees : ∀ d ∈ closing, d.Sees s'

/-- The announcement may begin in another store with the same observers. -/
theorem Announced.sequence (s : SettingsStore) {t : SettingsStore} {v : Settings}
    (h : t.Announced v s') (hobservers : t.observers = s.observers) (hdeliveries : t.deliveries = s.deliveries) :
    ∃ opening closing, Sequence s s' opening closing ∧
      Heard (.fileChanged s'.file) s.observers t opening := by
  obtain ⟨opening, closing, joined, hheard, hopening, hclosing⟩ := h.heard
  rw [hdeliveries] at hheard
  rw [hobservers] at hopening hclosing
  rw [← h.file] at hopening
  have hnames : closing.map Delivery.observer =
      s.observers.map Observer.name ++ joined.map Observer.name := by
    rw [hclosing.names, List.map_append]
  exact ⟨opening, closing, ⟨hheard, hopening.names, hopening.event_eq, ⟨_, hnames⟩,
    hclosing.event_eq, hclosing.sees⟩, hopening⟩

/-- A file that is accepted is announced while the values of before are in force. -/
theorem updateFrom_sequence {perform : Performer} {file : String} {content : FileContent}
    {v : Settings} (hperform : Subscribes perform) (hs : s.Listens)
    (h : Settings.Accepts s.policy content v) :
    ∃ s' opening closing, updateFrom perform file content s = some s' ∧ s'.settings = v ∧
      s'.file = file ∧ Sequence s s' opening closing ∧ ∀ d ∈ opening, d.Sees s := by
  obtain ⟨s', notices, hs', hannounced⟩ := @updateFrom_of_accepts s _ file _ v hperform hs h
  obtain ⟨opening, closing, hsequence, hopening⟩ := hannounced.sequence s rfl rfl
  have hsees : ∀ d ∈ opening, d.Sees s := hopening.sees
  exact ⟨s', opening, closing, hs', hannounced.settings, hannounced.file, hsequence, hsees⟩

/-- **The order of announcements.**  A call that replaces the values announces
the file and then the values, each to everyone subscribed.  At the second event
all see the new values.  At the first they see the values of before exactly if
the call is no reset, unless no one hears of it or a reset changes nothing. -/
theorem announcement_sequence (nesting : Nat) {v : Settings} (hs : s.Listens)
    (hc : c.Replaces s.policy v) :
    ∃ s' opening closing, s.perform c.files (nesting + 1) c.action = some s' ∧
      s'.settings = v ∧ Sequence s s' opening closing ∧
      ((∀ d ∈ opening, d.Sees s) ↔
        c.action ≠ .reset ∨ s.observers = [] ∨ s.settings = default ∧ s.features = []) := by
  have hperform := subscribes_perform c.files nesting
  obtain ⟨file, hfile, haccepts⟩ | ⟨hreset, rfl⟩ := hc
  · obtain ⟨s', opening, closing, hs', hv, -, hsequence, hsees⟩ :=
      @updateFrom_sequence s _ file _ v hperform hs haccepts
    rw [hfile]
    refine ⟨s', opening, closing, hs', hv, hsequence, ?_⟩
    exact ⟨fun _ => .inl (by simp), fun _ => hsees⟩
  · obtain ⟨s', hs', hannounced⟩ := resetAll_of_listens hperform hs
    obtain ⟨opening, closing, hsequence, hopening⟩ := hannounced.sequence s rfl rfl
    rw [hreset]
    refine ⟨s', opening, closing, hs', hannounced.settings, hsequence, ?_⟩
    rw [hopening.forall_sees_iff]
    simp

/-- A store that someone listens to, after a change of language. -/
def englishStore : SettingsStore :=
  { new .warn with
    settings := { (default : Settings) with language := .english }
    observers := [.listener "log"] }

/-- A call that loads a file in array form. -/
def loadCall : Call := ⟨fun _ => .text "[\"ru\"]", .update "settings.json"⟩

theorem listens_englishStore : englishStore.Listens := listens_of_listener rfl

theorem announcement_sequence_loadCall : englishStore.Listens ∧
    loadCall.Replaces englishStore.policy default ∧
    ∃ s' opening closing, englishStore.perform loadCall.files 1 loadCall.action = some s' ∧
      Sequence englishStore s' opening closing ∧ ∀ d ∈ opening, d.Sees englishStore := by
  have hreplaces : loadCall.Replaces englishStore.policy default :=
    .inl ⟨"settings.json", rfl, Settings.load_eq_ok_iff.mp (by rfl)⟩
  obtain ⟨s', opening, closing, hs', -, hsequence, hsees⟩ :=
    announcement_sequence 0 listens_englishStore hreplaces
  exact ⟨listens_englishStore, hreplaces, s', opening, closing, hs', hsequence,
    hsees.mpr (.inl (by simp [loadCall]))⟩

/-- After a change of language, a reset is announced with the default language in
force already. -/
theorem not_sees_reset : ∃ s',
    (new .warn).run 1 [⟨fun _ => .missing, .subscribe (.listener "log")⟩,
      ⟨fun _ => .missing, .setLanguage .english⟩] = some englishStore ∧
    englishStore.Listens ∧ englishStore.perform (fun _ => .missing) 1 .reset = some s' ∧
    ∃ d ∈ s'.deliveries, d ∉ englishStore.deliveries ∧ d.event = .fileChanged s'.file ∧
      d.sight.settings.language = .russian ∧ ¬ d.Sees englishStore := by
  refine ⟨_, rfl, listens_englishStore, rfl, _, List.mem_cons_self, List.not_mem_nil, rfl, rfl, ?_⟩
  intro hsees
  have hlanguage := congrArg Settings.language hsees.1
  contradiction

end SettingsStore

end BslNav
