import BslNav.Proofs.Settings.Run

/-!
# BslNav.Proofs.Settings.Nesting

Loads within loads, and whether the values are those of the file named.

A load names its file first, then puts the values in place, and both are
announced.  An observer who answers an announcement with another load has it
carried out in between.  After the values are there this does no harm: the inner
load names its file and puts its values in place, and the outer one has nothing
left to do but to tell the others.  Before, the outer load puts its own values
over those of the inner one, whose file stays named.

* `values_of_file` — the values are always those of one file, as a whole, and of
  the file that is named if the observers load nothing before the values are
  there;
* `not_values_of_file` — an observer that does.
-/

namespace BslNav

/-- What each step of a fold preserves holds at the end. -/
theorem foldlM_invariant {α σ : Type} {P : σ → Prop} {f : σ → α → Option σ} {l : List α} {s s' : σ}
    (hstep : ∀ a ∈ l, ∀ t t', P t → f t a = some t' → P t') (hs : P s)
    (h : l.foldlM f s = some s') : P s' := by
  induction l generalizing s with
  | nil =>
      obtain rfl := Option.some.inj h
      exact hs
  | cons a l ih =>
      obtain ⟨ha, hrest⟩ := List.forall_mem_cons.mp hstep
      rw [List.foldlM_cons] at h
      obtain ⟨t, ht, h⟩ := Option.bind_eq_some_iff.mp h
      exact ih hrest (ha s t hs ht) h

/-! ## what observers may do -/

mutual

/-- The action sets no value by hand: it loads a file, switches a feature on, or
adds an observer that obeys the rule. -/
inductive Action.Obeys (rule : Event → Action → Prop) : Action → Prop
  | update {file : String} : Action.Obeys rule (.update file)
  | addFeature {f : Feature} : Action.Obeys rule (.addFeature f)
  | subscribe {o : Observer} (obeys : o.Obeys rule) : Action.Obeys rule (.subscribe o)

/-- The observer answers with such actions, and with those that the rule allows
at an event. -/
inductive Observer.Obeys (rule : Event → Action → Prop) : Observer → Prop
  | intro {o : Observer} (obeys : ∀ past d, ∀ a ∈ o.react past d, a.Obeys rule)
      (allowed : ∀ past d, ∀ a ∈ o.react past d, rule d.event a) : Observer.Obeys rule o

end

/-- Observers may answer what they like. -/
def anyAnswer (_ : Event) (_ : Action) : Prop := True

/-- The action loads a file that is accepted. -/
def Action.LoadsAccepted (policy : DriftPolicy) (files : String → FileContent) (a : Action) :
    Prop :=
  ∃ file v, a = .update file ∧ Settings.Accepts policy (files file) v

/-- Observers may load a file only when the values of the last are there. -/
def waits (policy : DriftPolicy) (files : String → FileContent) (event : Event) (a : Action) :
    Prop :=
  event ≠ .changed → ¬ a.LoadsAccepted policy files

namespace SettingsStore

variable {policy : DriftPolicy} {files : String → FileContent} {rule : Event → Action → Prop}
  {s s' t : SettingsStore} {a : Action} {nesting : Nat}

/-- A store under the policy whose observers obey the rule. -/
structure Obeying (policy : DriftPolicy) (rule : Event → Action → Prop) (s : SettingsStore) :
    Prop where
  policy_eq : s.policy = policy
  observers : ∀ o ∈ s.observers, o.Obeys rule

/-- Neither the values nor the file have changed. -/
structure Same (s s' : SettingsStore) : Prop where
  settings : s'.settings = s.settings
  file : s'.file = s.file

/-- The file that is named is accepted. -/
def NamesAccepted (policy : DriftPolicy) (files : String → FileContent) (s : SettingsStore) :
    Prop :=
  ∃ v, Settings.Accepts policy (files s.file) v

/-- The values are those of one file, and the file that is named, which may be
another, is accepted too. -/
def FromFiles (policy : DriftPolicy) (files : String → FileContent) (s : SettingsStore) : Prop :=
  NamesAccepted policy files s ∧ ∃ file, Settings.Accepts policy (files file) s.settings

/-- The values are those of the file that is named. -/
def Together (policy : DriftPolicy) (files : String → FileContent) (s : SettingsStore) : Prop :=
  Settings.Accepts policy (files s.file) s.settings

theorem Same.trans (h : Same s t) (h' : Same t s') : Same s s' :=
  ⟨h'.settings.trans h.settings, h'.file.trans h.file⟩

theorem NamesAccepted.of_same (h : NamesAccepted policy files s) (hsame : Same s s') :
    NamesAccepted policy files s' := by
  rw [NamesAccepted, hsame.file]
  exact h

theorem FromFiles.of_same (h : FromFiles policy files s) (hsame : Same s s') :
    FromFiles policy files s' := by
  refine ⟨h.1.of_same hsame, ?_⟩
  rw [hsame.settings]
  exact h.2

theorem Together.of_same (h : Together policy files s) (hsame : Same s s') :
    Together policy files s' := by
  rw [Together, hsame.settings, hsame.file]
  exact h

/-! ## announcements -/

/-- What deliveries and the answers of those who are told preserve, an
announcement preserves. -/
theorem announce_invariant {perform : Performer} {event : Event} {P : SettingsStore → Prop}
    (hdeliver : ∀ t d, P t → P (t.deliver d))
    (hanswer : ∀ o ∈ s.observers, ∀ past d, d.event = event → ∀ a ∈ o.react past d,
      ∀ t t', P t → perform a t = some t' → P t')
    (hs : P s) (h : announce perform event s = some s') : P s' := by
  refine foldlM_invariant (fun o ho t t' ht htell => ?_) hs h
  exact foldlM_invariant (hanswer o ho _ ⟨o.name, event, t.sight⟩ rfl) (hdeliver t _ ht) htell

/-- The same where observers obey a rule and the property is of values and file. -/
theorem announce_of_obeying {perform : Performer} {event : Event} {P : SettingsStore → Prop}
    (hsame : ∀ t t', P t → Same t t' → P t')
    (hanswer : ∀ a t t', a.Obeys rule → rule event a → Obeying policy rule t → P t →
      perform a t = some t' → Obeying policy rule t' ∧ P t')
    (hs : Obeying policy rule s) (hP : P s) (h : announce perform event s = some s') :
    Obeying policy rule s' ∧ P s' := by
  refine announce_invariant (P := fun t => Obeying policy rule t ∧ P t) ?_ ?_ ⟨hs, hP⟩ h
  · rintro t d ⟨ht, hPt⟩
    exact ⟨⟨ht.policy_eq, ht.observers⟩, hsame t _ hPt ⟨rfl, rfl⟩⟩
  · rintro o ho past d rfl a ha t t' ⟨ht, hPt⟩ ht'
    obtain ⟨hobeys, hallowed⟩ := hs.observers o ho
    exact hanswer a t t' (hobeys past d a ha) (hallowed past d a ha) ht hPt ht'

/-! ## actions -/

/-- An action that loads no accepted file changes neither values nor file. -/
theorem same_of_perform (hs : Obeying policy rule s) (ha : a.Obeys rule)
    (hload : ¬ a.LoadsAccepted policy files) (h : s.perform files nesting a = some s') :
    Obeying policy rule s' ∧ Same s s' := by
  cases ha with
  | @addFeature f =>
      have hperform : s.perform files nesting (.addFeature f) =
          some { s with features := s.features.insert f } := by
        cases nesting <;> rfl
      obtain rfl := Option.some.inj (hperform.symm.trans h)
      exact ⟨⟨hs.policy_eq, hs.observers⟩, rfl, rfl⟩
  | subscribe ho =>
      rw [subscribes_perform] at h
      obtain rfl := Option.some.inj h
      refine ⟨⟨hs.policy_eq, ?_⟩, rfl, rfl⟩
      exact List.forall_mem_append.mpr ⟨hs.observers, List.forall_mem_singleton.mpr ho⟩
  | @update file =>
      have hrejects : Settings.Rejects s.policy (files file) := by
        rw [hs.policy_eq]
        exact Settings.rejects_iff.mpr fun v hv => hload ⟨file, v, rfl, hv⟩
      cases nesting with
      | zero => contradiction
      | succ nesting =>
          obtain ⟨notices, heq⟩ :=
            @updateFrom_of_rejects s (SettingsStore.perform files nesting) file _ hrejects
          obtain rfl := Option.some.inj (heq.symm.trans h)
          exact ⟨⟨hs.policy_eq, hs.observers⟩, rfl, rfl⟩

/-- The two announcements of a load that is accepted, with the store between
them. -/
theorem exists_rounds (hs : Obeying policy rule s) (ha : a.LoadsAccepted policy files)
    (h : s.perform files (nesting + 1) a = some s') :
    ∃ file v notices t, Settings.Accepts policy (files file) v ∧
      announce (SettingsStore.perform files nesting) (.fileChanged file)
        { s.note notices with file } = some t ∧
      announce (SettingsStore.perform files nesting) .changed { t with settings := v } = some s' := by
  obtain ⟨file, v, rfl, hv⟩ := ha
  have haccepts := hv
  rw [← hs.policy_eq] at haccepts
  obtain ⟨notices, heq⟩ :=
    @updateFrom_eq s (SettingsStore.perform files nesting) file _ v haccepts
  obtain ⟨t, ht, hclosing⟩ := Option.bind_eq_some_iff.mp (heq.symm.trans h)
  exact ⟨file, v, notices, t, hv, ht, hclosing⟩

theorem not_loadsAccepted_of_perform_zero (h : s.perform files 0 a = some s') :
    ¬ a.LoadsAccepted policy files := by
  rintro ⟨file, v, rfl, -⟩
  contradiction

/-! ## the two phases of a load -/

/-- A property that stores have from the naming of a file to the coming of its
values, and one that they have from then on.  Actions that load nothing keep
both, and so must a load within the first phase keep the first. -/
structure Phases (policy : DriftPolicy) (files : String → FileContent)
    (rule : Event → Action → Prop) (opening : String → SettingsStore → Prop)
    (closing : SettingsStore → Prop) : Prop where
  opening_same : ∀ file t t', opening file t → Same t t' → opening file t'
  closing_same : ∀ t t', closing t → Same t t' → closing t'
  named : ∀ file v t, Settings.Accepts policy (files file) v → t.file = file → opening file t
  merged : ∀ file v t, Settings.Accepts policy (files file) v → opening file t →
    closing { t with settings := v }
  inner : ∀ file a t t', rule (.fileChanged file) a → a.LoadsAccepted policy files →
    opening file t → closing t' → opening file t'

namespace Phases

variable {opening : String → SettingsStore → Prop} {closing : SettingsStore → Prop}

/-- However deep loads lie within each other, an accepted load ends in the
second phase, and any other action leaves values and file as they are. -/
theorem step (phases : Phases policy files rule opening closing) (hs : Obeying policy rule s)
    (ha : a.Obeys rule) (h : s.perform files nesting a = some s') :
    Obeying policy rule s' ∧ (a.LoadsAccepted policy files → closing s') ∧
      (¬ a.LoadsAccepted policy files → Same s s') := by
  induction nesting generalizing s s' a with
  | zero =>
      have hload : ¬ a.LoadsAccepted policy files := not_loadsAccepted_of_perform_zero h
      obtain ⟨hs', hsame⟩ := same_of_perform hs ha hload h
      exact ⟨hs', fun hloads => absurd hloads hload, fun _ => hsame⟩
  | succ nesting ih =>
      by_cases hload : a.LoadsAccepted policy files
      · obtain ⟨file, v, notices, t, hv, ht, hclosing⟩ := exists_rounds hs hload h
        have hnamed : Obeying policy rule { s.note notices with file } :=
          ⟨hs.policy_eq, hs.observers⟩
        obtain ⟨hobeying, hopening⟩ : Obeying policy rule t ∧ opening file t := by
          refine announce_of_obeying (phases.opening_same file) ?_ hnamed
            (phases.named file v _ hv rfl) ht
          intro b u u' hb hrule hu hopening hu'
          obtain ⟨hobeying, hloads, hsame⟩ := ih hu hb hu'
          by_cases hinner : b.LoadsAccepted policy files
          · exact ⟨hobeying, phases.inner file b u u' hrule hinner hopening (hloads hinner)⟩
          · exact ⟨hobeying, phases.opening_same file u u' hopening (hsame hinner)⟩
        have hmerged : Obeying policy rule { t with settings := v } :=
          ⟨hobeying.policy_eq, hobeying.observers⟩
        obtain ⟨hs', hdone⟩ : Obeying policy rule s' ∧ closing s' := by
          refine announce_of_obeying phases.closing_same ?_ hmerged
            (phases.merged file v t hv hopening) hclosing
          intro b u u' hb _ hu hdone hu'
          obtain ⟨hobeying, hloads, hsame⟩ := ih hu hb hu'
          by_cases hinner : b.LoadsAccepted policy files
          · exact ⟨hobeying, hloads hinner⟩
          · exact ⟨hobeying, phases.closing_same u u' hdone (hsame hinner)⟩
        exact ⟨hs', fun _ => hdone, fun hnone => absurd hload hnone⟩
      · obtain ⟨hs', hsame⟩ := same_of_perform hs ha hload h
        exact ⟨hs', fun hloads => absurd hloads hload, fun _ => hsame⟩

/-- One accepted load in a sequence of calls is enough. -/
theorem run {actions : List Action} (phases : Phases policy files rule opening closing)
    (hs : Obeying policy rule s) (hactions : ∀ a ∈ actions, a.Obeys rule)
    (h : s.run nesting (actions.map (Call.mk files)) = some s') :
    (closing s ∨ (∃ a ∈ actions, a.LoadsAccepted policy files) → closing s') ∧
      ((∀ a ∈ actions, ¬ a.LoadsAccepted policy files) → Same s s') := by
  induction actions generalizing s with
  | nil =>
      obtain rfl := Option.some.inj h
      exact ⟨fun hs => hs.elim id (by simp), fun _ => ⟨rfl, rfl⟩⟩
  | cons a actions ih =>
      obtain ⟨ha, hrest⟩ := List.forall_mem_cons.mp hactions
      rw [List.map_cons, SettingsStore.run, List.foldlM_cons] at h
      obtain ⟨t, ht, h⟩ := Option.bind_eq_some_iff.mp h
      obtain ⟨hobeying, hloads, hsame⟩ := phases.step hs ha ht
      obtain ⟨hclosing, hnone⟩ := ih hobeying hrest h
      constructor
      · intro hor
        refine hclosing ?_
        by_cases hload : a.LoadsAccepted policy files
        · exact .inl (hloads hload)
        · obtain hdone | ⟨b, hb, hbload⟩ := hor
          · exact .inl (phases.closing_same s t hdone (hsame hload))
          · obtain rfl | hb := List.mem_cons.mp hb
            · contradiction
            · exact .inr ⟨b, hb, hbload⟩
      · intro hall
        obtain ⟨hload, hothers⟩ := List.forall_mem_cons.mp hall
        exact (hsame hload).trans (hnone hothers)

end Phases

theorem phases_fromFiles (policy : DriftPolicy) (files : String → FileContent)
    (rule : Event → Action → Prop) :
    Phases policy files rule (fun _ => NamesAccepted policy files) (FromFiles policy files) where
  opening_same _ _ _ := NamesAccepted.of_same
  closing_same _ _ := FromFiles.of_same
  named file v t hv ht := ⟨v, by rwa [ht]⟩
  merged file v t hv ht := ⟨ht, file, hv⟩
  inner _ _ _ _ _ _ _ h := h.1

/-- If observers wait, the file of a load stays named until its values are there. -/
theorem phases_together (policy : DriftPolicy) (files : String → FileContent) :
    Phases policy files (waits policy files) (fun file t => t.file = file)
      (Together policy files) where
  opening_same _ _ _ ht hsame := hsame.file.trans ht
  closing_same _ _ := Together.of_same
  named _ _ _ _ ht := ht
  merged file v t hv ht := by rwa [Together, ht]
  inner _ _ _ _ hwaits hload _ _ := absurd hload (hwaits (by simp))

/-- **Whose values a store holds.**  Take any observers that set no value by hand
and may load files, and any calls of this kind that return, while files do not
change.  If no load was accepted, the store holds the defaults and names the
default file.  Otherwise all its values are those of one file, and it names a file
that is accepted; the two are one if observers wait for the values of a file
before they load another. -/
theorem values_of_file (policy : DriftPolicy) (files : String → FileContent) {nesting : Nat}
    {actions : List Action} (hactions : ∀ a ∈ actions, a.Obeys anyAnswer)
    (h : (new policy).run nesting (actions.map (Call.mk files)) = some s) :
    ((∀ a ∈ actions, ¬ a.LoadsAccepted policy files) →
      s.settings = default ∧ s.file = defaultFile) ∧
    ((∃ a ∈ actions, a.LoadsAccepted policy files) → FromFiles policy files s ∧
      ((∀ a ∈ actions, a.Obeys (waits policy files)) → Together policy files s)) := by
  have hnew : ∀ rule, Obeying policy rule (new policy) := fun rule => ⟨rfl, by simp [new]⟩
  obtain ⟨hfiles, hnone⟩ := (phases_fromFiles policy files anyAnswer).run (hnew _) hactions h
  constructor
  · intro hall
    exact ⟨(hnone hall).settings, (hnone hall).file⟩
  · intro hload
    refine ⟨hfiles (.inr hload), fun hwaits => ?_⟩
    exact ((phases_together policy files).run (hnew _) hwaits h).1 (.inr hload)

/-- An observer that goes on to a second file when told of an event of the
first. -/
def chainObserver (event : Event) : Observer := .mk "chain" fun _ d =>
  if d.event = event ∧ d.sight.file = "first.json" then [.update "second.json"] else []

theorem obeys_chainObserver {event : Event} (h : rule event (.update "second.json")) :
    (chainObserver event).Obeys rule := by
  have hanswer : ∀ past d, ∀ a ∈ (chainObserver event).react past d,
      d.event = event ∧ a = .update "second.json" := by
    intro past d a ha
    obtain ⟨⟨hevent, -⟩, ha⟩ := List.mem_ite_nil_right.mp ha
    exact ⟨hevent, List.mem_singleton.mp ha⟩
  constructor
  · intro past d a ha
    rw [(hanswer past d a ha).2]
    exact .update
  · intro past d a ha
    obtain ⟨hevent, rfl⟩ := hanswer past d a ha
    rwa [hevent]

/-- The first file and all others. -/
def chainFiles (file : String) : FileContent :=
  .text (if file = "first.json" then "[\"en\"]" else "[\"ru\"]")

def chainActions (event : Event) : List Action :=
  [.subscribe (chainObserver event), .update "first.json"]

theorem obeys_chainActions {event : Event} (h : rule event (.update "second.json")) :
    ∀ a ∈ chainActions event, a.Obeys rule :=
  List.forall_mem_cons.mpr
    ⟨.subscribe (obeys_chainObserver h), List.forall_mem_singleton.mpr .update⟩

theorem loadsAccepted_chainActions (event : Event) :
    ∃ a ∈ chainActions event, a.LoadsAccepted .warn chainFiles :=
  ⟨.update "first.json", by simp [chainActions], _,
    { (default : Settings) with language := .english }, rfl, Settings.load_eq_ok_iff.mp (by rfl)⟩

/-- An observer that waits for the values: the second file is the one named in
the end, and the values are its own. -/
theorem values_of_file_chainActions :
    (∀ a ∈ chainActions .changed, a.Obeys anyAnswer) ∧
    ∃ s, (new .warn).run 2 ((chainActions .changed).map (Call.mk chainFiles)) = some s ∧
      s.file = "second.json" ∧ FromFiles .warn chainFiles s ∧ Together .warn chainFiles s := by
  have hobeys : ∀ a ∈ chainActions .changed, a.Obeys anyAnswer := obeys_chainActions trivial
  have hwaits : ∀ a ∈ chainActions .changed, a.Obeys (waits .warn chainFiles) :=
    obeys_chainActions (absurd rfl)
  obtain ⟨s, hs, hfile⟩ : ∃ s,
      (new .warn).run 2 ((chainActions .changed).map (Call.mk chainFiles)) = some s ∧
        s.file = "second.json" := ⟨_, by rfl, by rfl⟩
  obtain ⟨-, hload⟩ := values_of_file .warn chainFiles hobeys hs
  obtain ⟨hfiles, htogether⟩ := hload (loadsAccepted_chainActions .changed)
  exact ⟨hobeys, s, hs, hfile, hfiles, htogether hwaits⟩

/-- An observer that does not wait: the second file is named in the end, and the
values are those of the first. -/
theorem not_values_of_file : ¬ ∀ (policy : DriftPolicy) (files : String → FileContent)
    (nesting : Nat) (actions : List Action) (s : SettingsStore),
      (∀ a ∈ actions, a.Obeys anyAnswer) →
      (new policy).run nesting (actions.map (Call.mk files)) = some s →
      (∃ a ∈ actions, a.LoadsAccepted policy files) → Together policy files s := by
  intro hall
  let event : Event := .fileChanged "first.json"
  have hobeys : ∀ a ∈ chainActions event, a.Obeys anyAnswer := obeys_chainActions trivial
  obtain ⟨s, hs, hfile, hlanguage⟩ : ∃ s,
      (new .warn).run 2 ((chainActions event).map (Call.mk chainFiles)) = some s ∧
        s.file = "second.json" ∧ s.settings.language = .english := ⟨_, by rfl, by rfl, by rfl⟩
  have htogether := hall .warn chainFiles 2 _ s hobeys hs (loadsAccepted_chainActions event)
  rw [Together, hfile] at htogether
  have hsecond : Settings.Accepts .warn (chainFiles "second.json") default :=
    Settings.load_eq_ok_iff.mp (by rfl)
  rw [htogether.unique hsecond] at hlanguage
  contradiction

end SettingsStore

end BslNav
