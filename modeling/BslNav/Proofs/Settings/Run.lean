import BslNav.Proofs.Settings.Listening

/-!
# BslNav.Proofs.Settings.Run

Stores after any sequence of calls.

While observers leave the values alone, three things decide what a store shows.
The values are those last put in place as a whole, by an accepted file or by a
reset, with what setters have put over them since.  The file is the one last
accepted.  The features are those switched on since the last reset.  `Settled`
says this of a history of calls, with `Latest` for the last of them that gives
something; one call after another extends the history (`Settled.step`).

* `exists_outcome` — the ways in which one call can end;
* `run_calls` — every run ends in a store that is `Settled`, and the next load
  or reset does to it what its file and the policy say.
-/

namespace BslNav

/-- A call on a store, and what all files hold at that time. -/
structure Call where
  files : String → FileContent
  action : Action

namespace Call

/-- The call subscribes no one who is not quiet. -/
def Quiet (c : Call) : Prop := ∀ o, c.action = .subscribe o → o.Quiet

/-- The call loads a file that the policy accepts with these values. -/
def Loads (policy : DriftPolicy) (c : Call) (file : String) (values : Settings) : Prop :=
  c.action = .update file ∧ Settings.Accepts policy (c.files file) values

/-- The call puts these values in place of all that were there. -/
def Replaces (policy : DriftPolicy) (c : Call) (values : Settings) : Prop :=
  (∃ file, c.Loads policy file values) ∨ c.action = .reset ∧ values = default

theorem not_loads_of_rejects {policy : DriftPolicy} {c : Call} {file : String}
    (hc : c.action = .update file) (h : Settings.Rejects policy (c.files file)) :
    ∀ path values, ¬ c.Loads policy path values := by
  rintro path values ⟨hpath, haccepts⟩
  rw [hc] at hpath
  cases hpath
  exact Settings.rejects_iff.mp h values haccepts

end Call

/-! ## the last call that gives something -/

/-- The last of the calls that gives something gives `a`, and `since` are the
calls after it; if none does, `a` is what there was at the start. -/
inductive Latest {α : Type} (gives : Call → α → Prop) (start : α) :
    List Call → α → List Call → Prop
  | never {calls : List Call} (others : ∀ c ∈ calls, ∀ a, ¬ gives c a) :
      Latest gives start calls start calls
  | given {before since : List Call} {c : Call} {a : α} (gave : gives c a)
      (others : ∀ d ∈ since, ∀ b, ¬ gives d b) :
      Latest gives start (before ++ c :: since) a since

namespace Latest

variable {α : Type} {gives : Call → α → Prop} {start a b : α} {calls since : List Call} {c : Call}

theorem nil : Latest gives start [] start [] := .never (by simp)

/-- A call that gives something is the latest that does. -/
theorem append_given (h : gives c a) : Latest gives start (calls ++ [c]) a [] :=
  .given h (by simp)

/-- A call that gives nothing leaves the latest as it is. -/
theorem append_other (h : Latest gives start calls a since) (hc : ∀ b, ¬ gives c b) :
    Latest gives start (calls ++ [c]) a (since ++ [c]) := by
  have hextend : ∀ {ds : List Call}, (∀ d ∈ ds, ∀ b, ¬ gives d b) →
      ∀ d ∈ ds ++ [c], ∀ b, ¬ gives d b := by
    intro ds hds d hd
    obtain hd | hd := List.mem_append.mp hd
    · exact hds d hd
    · rw [List.mem_singleton.mp hd]
      exact hc
  cases h with
  | never others => exact .never (hextend others)
  | given gave others =>
      rw [List.append_assoc, List.cons_append]
      exact .given gave (hextend others)

/-- A value that follows the calls one by one is the latest given. -/
theorem exists_append (h : ∃ since, Latest gives start calls a since)
    (hgiven : ∀ d, gives c d → b = d) (hkept : (∀ d, ¬ gives c d) → b = a) :
    ∃ since, Latest gives start (calls ++ [c]) b since := by
  by_cases hc : ∃ d, gives c d
  · obtain ⟨d, hd⟩ := hc
    rw [hgiven d hd]
    exact ⟨[], append_given hd⟩
  · have hnone : ∀ d, ¬ gives c d := fun d hd => hc ⟨d, hd⟩
    obtain ⟨since, h⟩ := h
    rw [hkept hnone]
    exact ⟨since ++ [c], append_other h hnone⟩

end Latest

/-! ## what setters put over the values -/

namespace Settings

/-- The values after an action, if it is a setter. -/
def overlay (v : Settings) : Action → Settings
  | .setLanguage language => { v with language }
  | .setTraceLog traceLog => { v with traceLog }
  | .setConfigurationRoot configurationRoot => { v with configurationRoot }
  | _ => v

/-- The values are `base` with what the calls have set since, each value as it
was set last. -/
structure Overlaid (base : Settings) (since : List Call) (v : Settings) : Prop where
  language : ∃ after,
    Latest (fun c language => c.action = .setLanguage language) base.language since v.language after
  traceLog : ∃ after,
    Latest (fun c file => c.action = .setTraceLog file) base.traceLog since v.traceLog after
  configurationRoot : ∃ after,
    Latest (fun c directory => c.action = .setConfigurationRoot directory) base.configurationRoot
      since v.configurationRoot after
  diagnostics : v.diagnostics = base.diagnostics
  codeLens : v.codeLens = base.codeLens
  documentLink : v.documentLink = base.documentLink

theorem overlaid_nil (v : Settings) : Overlaid v [] v :=
  ⟨⟨[], .nil⟩, ⟨[], .nil⟩, ⟨[], .nil⟩, rfl, rfl, rfl⟩

theorem overlay_language {v : Settings} {a : Action} (h : ∀ language, a ≠ .setLanguage language) :
    (v.overlay a).language = v.language := by
  cases a with
  | setLanguage language => exact absurd rfl (h language)
  | _ => rfl

theorem overlay_traceLog {v : Settings} {a : Action} (h : ∀ file, a ≠ .setTraceLog file) :
    (v.overlay a).traceLog = v.traceLog := by
  cases a with
  | setTraceLog file => exact absurd rfl (h file)
  | _ => rfl

theorem overlay_configurationRoot {v : Settings} {a : Action}
    (h : ∀ directory, a ≠ .setConfigurationRoot directory) :
    (v.overlay a).configurationRoot = v.configurationRoot := by
  cases a with
  | setConfigurationRoot directory => exact absurd rfl (h directory)
  | _ => rfl

theorem Overlaid.append {base v : Settings} {since : List Call} (h : Overlaid base since v)
    (c : Call) : Overlaid base (since ++ [c]) (v.overlay c.action) where
  language := Latest.exists_append h.language (fun _ hd => by rw [hd, overlay]) overlay_language
  traceLog := Latest.exists_append h.traceLog (fun _ hd => by rw [hd, overlay]) overlay_traceLog
  configurationRoot :=
    Latest.exists_append h.configurationRoot (fun _ hd => by rw [hd, overlay])
      overlay_configurationRoot
  diagnostics := by rw [← h.diagnostics]; cases c.action <;> rfl
  codeLens := by rw [← h.codeLens]; cases c.action <;> rfl
  documentLink := by rw [← h.documentLink]; cases c.action <;> rfl

end Settings

namespace SettingsStore

variable {s s' : SettingsStore} {policy : DriftPolicy} {past : List Call} {c : Call}

/-! ## what a call does -/

/-- What a call does to the values, the file and the features. -/
structure Effect (s : SettingsStore) (c : Call) (s' : SettingsStore) : Prop where
  policy : s'.policy = s.policy
  listens : s'.Listens
  replaced : ∀ v, c.Replaces s.policy v → s'.settings = v
  overlaid : (∀ v, ¬ c.Replaces s.policy v) → s'.settings = s.settings.overlay c.action
  loaded : ∀ file v, c.Loads s.policy file v → s'.file = file
  file_kept : (∀ file v, ¬ c.Loads s.policy file v) → s'.file = s.file
  features : ∀ f, f ∈ s'.features ↔
    c.action ≠ .reset ∧ (f ∈ s.features ∨ c.action = .addFeature f)

/-- A call that neither loads nor resets. -/
theorem effect_of_setter (hload : ∀ file, c.action ≠ .update file) (hreset : c.action ≠ .reset)
    (hpolicy : s'.policy = s.policy) (hlistens : s'.Listens)
    (hsettings : s'.settings = s.settings.overlay c.action) (hfile : s'.file = s.file)
    (hfeatures : ∀ f, f ∈ s'.features ↔ f ∈ s.features ∨ c.action = .addFeature f) :
    s.Effect c s' where
  policy := hpolicy
  listens := hlistens
  replaced := by
    rintro v (⟨file, hfile, -⟩ | ⟨hc, -⟩)
    · exact absurd hfile (hload file)
    · exact absurd hc hreset
  overlaid _ := hsettings
  loaded file v h := absurd h.1 (hload file)
  file_kept _ := hfile
  features f := by rw [hfeatures]; exact (and_iff_right hreset).symm

/-- A load of a file that is rejected. -/
theorem effect_note {file : String} (hc : c.action = .update file) (hs : s.Listens)
    (h : Settings.Rejects s.policy (c.files file)) (notices : List SettingsNotice) :
    s.Effect c (s.note notices) := by
  have hloads := Call.not_loads_of_rejects hc h
  constructor
  · rfl
  · exact hs
  · rintro v (⟨file', hfile⟩ | ⟨hreset, -⟩)
    · exact absurd hfile (hloads file' v)
    · rw [hc] at hreset
      contradiction
  · intro _
    rw [hc]
    rfl
  · exact fun file' v hfile => absurd hfile (hloads file' v)
  · exact fun _ => rfl
  · intro f
    simp [hc, note]

theorem effect_load {file : String} {v : Settings} {notices : List SettingsNotice}
    (hc : c.action = .update file) (haccepts : Settings.Accepts s.policy (c.files file) v)
    (h : Announced { s.note notices with file } v s') : s.Effect c s' := by
  constructor
  · exact h.policy
  · exact h.listens
  · rintro w (⟨file', hfile, hw⟩ | ⟨hreset, -⟩)
    · rw [hc] at hfile
      cases hfile
      rw [h.settings, haccepts.unique hw]
    · rw [hc] at hreset
      contradiction
  · intro hnone
    exact absurd (.inl ⟨file, hc, haccepts⟩) (hnone v)
  · rintro file' w ⟨hfile, -⟩
    rw [hc] at hfile
    cases hfile
    exact h.file
  · exact fun hnone => absurd ⟨hc, haccepts⟩ (hnone file v)
  · intro f
    rw [h.features]
    simp [hc, note]

theorem effect_reset (hc : c.action = .reset)
    (h : Announced { s with settings := default, features := [] } default s') : s.Effect c s' := by
  constructor
  · exact h.policy
  · exact h.listens
  · rintro v (⟨file, hfile, -⟩ | ⟨-, rfl⟩)
    · rw [hc] at hfile
      contradiction
    · exact h.settings
  · exact fun hnone => absurd (.inr ⟨hc, rfl⟩) (hnone default)
  · rintro file v ⟨hfile, -⟩
    rw [hc] at hfile
    contradiction
  · exact fun _ => h.file
  · intro f
    rw [h.features]
    simp [hc]

/-- What becomes of a store by a call, as long as those who are told do no more
than bring in others. -/
inductive Outcome (s : SettingsStore) (c : Call) : SettingsStore → Prop
  | set {settings : Settings} {features : List Feature} (no_load : ∀ file, c.action ≠ .update file)
      (no_reset : c.action ≠ .reset) (no_subscribe : ∀ o, c.action ≠ .subscribe o)
      (overlaid : settings = s.settings.overlay c.action)
      (added : ∀ f, f ∈ features ↔ f ∈ s.features ∨ c.action = .addFeature f) :
      Outcome s c { s with settings, features }
  | joined {o : Observer} (action_eq : c.action = .subscribe o) : Outcome s c (s.subscribe o)
  | rejected {file : String} {notices : List SettingsNotice} (action_eq : c.action = .update file)
      (rejects : Settings.Rejects s.policy (c.files file)) : Outcome s c (s.note notices)
  | loaded {file : String} {v : Settings} {notices : List SettingsNotice} {s' : SettingsStore}
      (loads : c.Loads s.policy file v) (announced : Announced { s.note notices with file } v s') :
      Outcome s c s'
  | restored {s' : SettingsStore} (action_eq : c.action = .reset)
      (announced : Announced { s with settings := default, features := [] } default s') :
      Outcome s c s'

/-- Every call ends, in one of these ways. -/
theorem exists_outcome (nesting : Nat) (hs : s.Listens) :
    ∃ s', s.perform c.files (nesting + 1) c.action = some s' ∧ s.Outcome c s' := by
  have hperform := subscribes_perform c.files nesting
  cases haction : c.action with
  | setLanguage _ | setTraceLog _ | setConfigurationRoot _ =>
      exact ⟨_, rfl, .set (by simp [haction]) (by simp [haction]) (by simp [haction])
        (by rw [haction]; rfl) (by simp [haction])⟩
  | addFeature f =>
      exact ⟨_, rfl, .set (by simp [haction]) (by simp [haction]) (by simp [haction])
        (by rw [haction]; rfl) (by simp [haction, or_comm, eq_comm])⟩
  | subscribe o => exact ⟨_, rfl, .joined haction⟩
  | update file =>
      by_cases haccepts : ∃ v, Settings.Accepts s.policy (c.files file) v
      · obtain ⟨v, haccepts⟩ := haccepts
        obtain ⟨s', notices, hs', h⟩ := updateFrom_of_accepts hperform hs haccepts
        exact ⟨s', hs', .loaded ⟨haction, haccepts⟩ h⟩
      · have hrejects : Settings.Rejects s.policy (c.files file) :=
          Settings.rejects_iff.mpr fun v hv => haccepts ⟨v, hv⟩
        obtain ⟨notices, hs'⟩ := updateFrom_of_rejects hrejects
        exact ⟨_, hs', .rejected haction hrejects⟩
  | reset =>
      obtain ⟨s', hs', h⟩ := resetAll_of_listens hperform hs
      exact ⟨s', hs', .restored haction h⟩

theorem Outcome.effect (h : s.Outcome c s') (hs : s.Listens) (hc : c.Quiet) : s.Effect c s' := by
  cases h with
  | set no_load no_reset _ overlaid added =>
      exact effect_of_setter no_load no_reset rfl hs overlaid rfl added
  | @joined o action_eq =>
      have hlistens : (s.subscribe o).Listens := listens_subscribe hs (hc o action_eq)
      exact effect_of_setter (by simp [action_eq]) (by simp [action_eq]) rfl hlistens
        (by rw [action_eq]; rfl) rfl (by simp [action_eq, SettingsStore.subscribe])
  | rejected action_eq rejects => exact effect_note action_eq hs rejects _
  | loaded loads announced => exact effect_load loads.1 loads.2 announced
  | restored action_eq announced => exact effect_reset action_eq announced

theorem effect_perform (nesting : Nat) (hs : s.Listens) (hc : c.Quiet) :
    ∃ s', s.perform c.files (nesting + 1) c.action = some s' ∧ s.Effect c s' := by
  obtain ⟨s', hs', houtcome⟩ := exists_outcome nesting hs
  exact ⟨s', hs', houtcome.effect hs hc⟩

/-! ## what a history of calls comes to -/

/-- What the store shows follows from the calls made on it so far. -/
structure Settled (policy : DriftPolicy) (past : List Call) (s : SettingsStore) : Prop where
  policy_eq : s.policy = policy
  listens : s.Listens
  /-- The values last put in place, under what setters have set since. -/
  values : ∃ base since, Latest (Call.Replaces policy) default past base since ∧
    Settings.Overlaid base since s.settings
  /-- The file last accepted. -/
  file : ∃ since,
    Latest (fun c file => ∃ v, c.Loads policy file v) defaultFile past s.file since
  /-- The features switched on since the last reset. -/
  features : ∃ since, Latest (fun c (_ : Unit) => c.action = .reset) () past () since ∧
    ∀ f, f ∈ s.features ↔ ∃ c ∈ since, c.action = .addFeature f

theorem settled_new (policy : DriftPolicy) : Settled policy [] (new policy) where
  policy_eq := rfl
  listens := by simp [Listens, new]
  values := ⟨default, [], .nil, Settings.overlaid_nil default⟩
  file := ⟨[], .nil⟩
  features := ⟨[], .nil, by simp [new]⟩

/-- One call more. -/
theorem Settled.step (h : Settled policy past s) (e : s.Effect c s') :
    Settled policy (past ++ [c]) s' := by
  obtain rfl := h.policy_eq
  constructor
  · exact e.policy
  · exact e.listens
  · obtain ⟨base, since, hlatest, hover⟩ := h.values
    by_cases hc : ∃ v, c.Replaces s.policy v
    · obtain ⟨v, hv⟩ := hc
      refine ⟨v, [], .append_given hv, ?_⟩
      rw [e.replaced v hv]
      exact Settings.overlaid_nil v
    · have hnone : ∀ v, ¬ c.Replaces s.policy v := fun v hv => hc ⟨v, hv⟩
      refine ⟨base, since ++ [c], hlatest.append_other hnone, ?_⟩
      rw [e.overlaid hnone]
      exact hover.append c
  · refine Latest.exists_append h.file ?_ ?_
    · rintro file ⟨v, hv⟩
      exact e.loaded file v hv
    · intro hnone
      exact e.file_kept fun file v hv => hnone file ⟨v, hv⟩
  · obtain ⟨since, hlatest, hfeatures⟩ := h.features
    by_cases hc : c.action = .reset
    · exact ⟨[], .append_given hc, by simp [e.features, hc]⟩
    · refine ⟨since ++ [c], hlatest.append_other fun _ => hc, ?_⟩
      intro f
      rw [e.features, hfeatures]
      simp [hc, or_and_right, exists_or]

/-- The store after a sequence of calls. -/
def run (nesting : Nat) (s : SettingsStore) (calls : List Call) : Option SettingsStore :=
  calls.foldlM (fun s c => s.perform c.files nesting c.action) s

theorem Settled.run {nesting : Nat} {calls : List Call} (h : Settled policy past s)
    (hcalls : ∀ c ∈ calls, c.Quiet) :
    ∃ s', s.run (nesting + 1) calls = some s' ∧ Settled policy (past ++ calls) s' := by
  induction calls generalizing past s with
  | nil => exact ⟨s, rfl, by rwa [List.append_nil]⟩
  | cons c calls ih =>
      obtain ⟨t, ht, e⟩ := effect_perform nesting h.listens (hcalls c List.mem_cons_self)
      have hrest : ∀ d ∈ calls, d.Quiet := fun d hd => hcalls d (List.mem_cons_of_mem c hd)
      obtain ⟨s', hs', hsettled⟩ := ih (h.step e) hrest
      refine ⟨s', ?_, ?_⟩
      · rw [SettingsStore.run, List.foldlM_cons, ht]
        exact hs'
      · rwa [List.append_assoc, List.singleton_append] at hsettled

/-- **The store is a function of its history.**  Every run of calls, with
observers that leave the values alone, ends in a store that is settled by it.  A
file that is rejected then leaves the whole store as it is, but for the log.  One
that is accepted puts its values in place of all others and is remembered.  A
reset restores the defaults, switches all features off and keeps the file. -/
theorem run_calls (policy : DriftPolicy) (nesting : Nat) (calls : List Call)
    (h : ∀ c ∈ calls, c.Quiet) :
    ∃ s, (new policy).run (nesting + 1) calls = some s ∧ Settled policy calls s ∧
      ∀ files file,
        (Settings.Rejects policy (files file) →
          ∃ notices, s.perform files (nesting + 1) (.update file) = some (s.note notices)) ∧
        (∀ v, Settings.Accepts policy (files file) v →
          ∃ s', s.perform files (nesting + 1) (.update file) = some s' ∧
            s'.settings = v ∧ s'.file = file ∧ s'.features = s.features) ∧
        ∃ s', s.perform files (nesting + 1) .reset = some s' ∧
          s'.settings = default ∧ s'.features = [] ∧ s'.file = s.file := by
  obtain ⟨s, hs, hsettled⟩ := (settled_new policy).run h
  obtain rfl := hsettled.policy_eq
  refine ⟨s, hs, hsettled, fun files file => ?_⟩
  have hperform := subscribes_perform files nesting
  refine ⟨fun hrejects => updateFrom_of_rejects hrejects, fun v haccepts => ?_, ?_⟩
  · obtain ⟨s', notices, hs', hannounced⟩ :=
      @updateFrom_of_accepts s _ file _ v hperform hsettled.listens haccepts
    exact ⟨s', hs', hannounced.settings, hannounced.file, hannounced.features⟩
  · obtain ⟨s', hs', hannounced⟩ := resetAll_of_listens hperform hsettled.listens
    exact ⟨s', hs', hannounced.settings, hannounced.features, hannounced.file⟩

/-- A listener, a setting, a file in array form, and a setting over it. -/
def sampleCalls : List Call :=
  [⟨fun _ => .missing, .subscribe (.listener "log")⟩,
    ⟨fun _ => .missing, .setTraceLog (some "a.log")⟩,
    ⟨fun _ => .text "[\"en\"]", .update "settings.json"⟩,
    ⟨fun _ => .missing, .addFeature .hover⟩,
    ⟨fun _ => .missing, .setConfigurationRoot (some "src")⟩]

theorem run_sampleCalls : (∀ c ∈ sampleCalls, c.Quiet) ∧
    ∃ s, (new .fail).run 1 sampleCalls = some s ∧ Settled .fail sampleCalls s ∧
      s.settings = { (default : Settings) with language := .english, configurationRoot := some "src" } ∧
      s.file = "settings.json" ∧ s.features = [.hover] := by
  have hquiet : ∀ c ∈ sampleCalls, c.Quiet := by
    intro c hc o ho
    simp only [sampleCalls, List.mem_cons, List.not_mem_nil, or_false] at hc
    obtain rfl | rfl | rfl | rfl | rfl := hc <;> cases ho
    exact Observer.quiet_listener "log"
  obtain ⟨s, hs, hsettled, -⟩ := run_calls .fail 0 sampleCalls hquiet
  refine ⟨hquiet, s, hs, hsettled, ?_⟩
  obtain rfl := Option.some.inj (hs.symm.trans (by rfl))
  exact ⟨by rfl, by rfl, by rfl⟩

end SettingsStore

end BslNav
