import BslNav.Proofs.Settings.Meaning
import BslNav.Settings.Store

/-!
# BslNav.Proofs.Settings.Listening

Announcements to observers that leave the values alone.

An observer is `Quiet` if all it ever does is to subscribe others that are quiet
too.  A store with such observers `Listens`: announcing an event always comes to
an end and changes no value.  The record of deliveries and the list of observers
`grow`, as the answers of those who are told one after another have it (`Told`);
in the end everyone who was subscribed has heard of the event once, in order,
with the values in force (`Heard`).

* `announce_told` — one announcement;
* `updateFrom_of_accepts`, `resetAll_of_listens` — the two operations that
  announce events, first the file and then the values (`Announced`);
* `updateFrom_of_rejects` — a rejected file changes nothing and is not heard of.
-/

namespace BslNav

mutual

/-- The action adds an observer that is quiet, and does nothing else. -/
inductive Action.Quiet : Action → Prop
  | subscribe {o : Observer} (quiet : o.Quiet) : Action.Quiet (.subscribe o)

/-- The observer answers with quiet actions, whatever it is told. -/
inductive Observer.Quiet : Observer → Prop
  | intro {o : Observer} (quiet : ∀ past d, ∀ a ∈ o.react past d, a.Quiet) : Observer.Quiet o

end

theorem Observer.Quiet.react {o : Observer} (h : o.Quiet) (past : List Delivery) (d : Delivery) :
    ∀ a ∈ o.react past d, a.Quiet := by
  cases h with
  | intro quiet => exact quiet past d

/-- The observer that an action adds. -/
def Action.subscriber? : Action → Option Observer
  | .subscribe o => some o
  | _ => none

/-- The observers that an observer adds in answer to a delivery. -/
def Observer.invites (o : Observer) (past : List Delivery) (d : Delivery) : List Observer :=
  (o.react past d).filterMap Action.subscriber?

theorem Observer.Quiet.invites {o : Observer} (h : o.Quiet) (past : List Delivery) (d : Delivery) :
    ∀ p ∈ o.invites past d, p.Quiet := by
  intro p hp
  obtain ⟨a, ha, hsubscriber⟩ := List.mem_filterMap.mp hp
  cases h.react past d a ha with
  | subscribe quiet =>
      obtain rfl := Option.some.inj hsubscriber
      exact quiet

theorem Observer.quiet_listener (name : String) : (Observer.listener name).Quiet :=
  .intro fun _ _ _ ha => absurd ha List.not_mem_nil

namespace SettingsStore

variable {s s' : SettingsStore} {perform : Performer} {event : Event}

/-- All observers of the store are quiet. -/
def Listens (s : SettingsStore) : Prop := ∀ o ∈ s.observers, o.Quiet

theorem listens_of_listener {name : String} (h : s.observers = [.listener name]) : s.Listens := by
  intro o ho
  rw [h, List.mem_singleton] at ho
  rw [ho]
  exact Observer.quiet_listener name

/-- The store after more was heard and more have joined. -/
def grow (s : SettingsStore) (heard : List Delivery) (joined : List Observer) : SettingsStore :=
  { s with deliveries := s.deliveries ++ heard, observers := s.observers ++ joined }

@[simp] theorem grow_nil (s : SettingsStore) : s.grow [] [] = s := by simp [grow]

@[simp] theorem grow_grow (s : SettingsStore) (heard heard' : List Delivery)
    (joined joined' : List Observer) :
    (s.grow heard joined).grow heard' joined' = s.grow (heard ++ heard') (joined ++ joined') := by
  simp [grow]

theorem listens_grow {heard : List Delivery} {joined : List Observer} (hs : s.Listens)
    (hjoined : ∀ o ∈ joined, o.Quiet) : (s.grow heard joined).Listens := by
  intro o ho
  obtain ho | ho := List.mem_append.mp ho
  · exact hs o ho
  · exact hjoined o ho

theorem subscribe_eq_grow (s : SettingsStore) (o : Observer) : s.subscribe o = s.grow [] [o] := by
  simp [grow, subscribe]

theorem listens_subscribe {o : Observer} (hs : s.Listens) (ho : o.Quiet) :
    (s.subscribe o).Listens := by
  rw [subscribe_eq_grow]
  exact listens_grow hs (List.forall_mem_singleton.mpr ho)

/-! ## telling -/

/-- What is heard of an event that the observers are told one after another:
everyone hears it once, and sees the values of the store. -/
structure Heard (event : Event) (observers : List Observer) (s : SettingsStore)
    (heard : List Delivery) : Prop where
  names : heard.map Delivery.observer = observers.map Observer.name
  event_eq : ∀ d ∈ heard, d.event = event
  settings : ∀ d ∈ heard, d.sight.settings = s.settings
  file : ∀ d ∈ heard, d.sight.file = s.file
  features : ∀ d ∈ heard, d.sight.features = s.features

/-- What a store with so many observers shows of itself. -/
def view (s : SettingsStore) (observers : Nat) : Sight :=
  ⟨s.settings, s.file, s.features, observers⟩

/-- The audience is told of an event, one after another.  Each sees how many are
present, and those they invite are present from then on; `past` is what was
delivered before. -/
inductive Told (event : Event) (view : Nat → Sight) :
    (past : List Delivery) → (present audience : List Observer) →
      (heard : List Delivery) → (joined : List Observer) → Prop
  | nil {past : List Delivery} {present : List Observer} : Told event view past present [] [] []
  | cons {past heard : List Delivery} {o : Observer} {present audience joined : List Observer}
      {d : Delivery} (delivery : d = ⟨o.name, event, view present.length⟩)
      (rest : Told event view (past ++ [d]) (present ++ o.invites past d) audience heard joined) :
      Told event view past present (o :: audience) (d :: heard) (o.invites past d ++ joined)

namespace Told

variable {view : Nat → Sight} {past heard : List Delivery}
  {present audience joined : List Observer}

theorem names (h : Told event view past present audience heard joined) :
    heard.map Delivery.observer = audience.map Observer.name := by
  induction h with
  | nil => rfl
  | cons delivery _ ih => rw [List.map_cons, List.map_cons, ih, delivery]

theorem exists_eq (h : Told event view past present audience heard joined) :
    ∀ d ∈ heard, ∃ name n, d = ⟨name, event, view n⟩ := by
  induction h with
  | nil => simp
  | cons delivery _ ih => exact List.forall_mem_cons.mpr ⟨⟨_, _, delivery⟩, ih⟩

theorem quiet (h : Told event view past present audience heard joined)
    (haudience : ∀ o ∈ audience, o.Quiet) : ∀ o ∈ joined, o.Quiet := by
  induction h with
  | nil => simp
  | cons _ _ ih =>
      obtain ⟨ho, hrest⟩ := List.forall_mem_cons.mp haudience
      exact List.forall_mem_append.mpr ⟨ho.invites _ _, ih hrest⟩

end Told

theorem Told.heard {past heard : List Delivery} {present audience joined : List Observer}
    (h : Told event s.view past present audience heard joined) :
    Heard event audience s heard := by
  have hview : ∀ d ∈ heard, ∃ name n, d = ⟨name, event, s.view n⟩ := h.exists_eq
  constructor
  · exact h.names
  all_goals
    intro d hd
    obtain ⟨name, n, rfl⟩ := hview d hd
    rfl

/-- Subscribing needs no other action. -/
def Subscribes (perform : Performer) : Prop :=
  ∀ o s, perform (.subscribe o) s = some (s.subscribe o)

theorem subscribes_perform (files : String → FileContent) (nesting : Nat) :
    Subscribes (SettingsStore.perform files nesting) := by
  intro o s
  cases nesting <;> rfl

theorem foldlM_quiet (hperform : Subscribes perform) {actions : List Action}
    (hactions : ∀ a ∈ actions, a.Quiet) :
    actions.foldlM (fun s a => perform a s) s =
      some (s.grow [] (actions.filterMap Action.subscriber?)) := by
  induction actions generalizing s with
  | nil => rw [List.filterMap_nil, grow_nil]; rfl
  | cons a actions ih =>
      obtain ⟨ha, hrest⟩ := List.forall_mem_cons.mp hactions
      cases ha with
      | @subscribe o ho =>
          rw [List.foldlM_cons, hperform, Option.bind_eq_bind, Option.bind_some, ih hrest,
            subscribe_eq_grow, grow_grow]
          rfl

/-- A quiet observer is told and brings in those it invites. -/
theorem tell_eq (hperform : Subscribes perform) {o : Observer} (ho : o.Quiet) :
    tell perform event s o = some (s.grow [⟨o.name, event, s.sight⟩]
      (o.invites s.deliveries ⟨o.name, event, s.sight⟩)) := by
  have hdeliver : s.deliver ⟨o.name, event, s.sight⟩ = s.grow [⟨o.name, event, s.sight⟩] [] := by
    simp [grow, deliver]
  rw [tell, foldlM_quiet hperform (ho.react _ _), hdeliver, grow_grow]
  rfl

theorem foldlM_tell (hperform : Subscribes perform) {audience : List Observer}
    (haudience : ∀ o ∈ audience, o.Quiet) :
    ∃ heard joined, audience.foldlM (tell perform event) s = some (s.grow heard joined) ∧
      Told event s.view s.deliveries s.observers audience heard joined := by
  induction audience generalizing s with
  | nil => exact ⟨[], [], by rw [grow_nil]; rfl, .nil⟩
  | cons o audience ih =>
      obtain ⟨ho, hrest⟩ := List.forall_mem_cons.mp haudience
      let d : Delivery := ⟨o.name, event, s.sight⟩
      obtain ⟨heard, joined, hs', htold⟩ := @ih (s.grow [d] (o.invites s.deliveries d)) hrest
      refine ⟨d :: heard, o.invites s.deliveries d ++ joined, ?_, .cons rfl ?_⟩
      · rw [List.foldlM_cons, tell_eq hperform ho, Option.bind_eq_bind, Option.bind_some, hs',
          grow_grow, List.singleton_append]
      · exact htold

/-- An announcement ends, changes no value, and is heard by everyone subscribed. -/
theorem announce_told (hperform : Subscribes perform) (hs : s.Listens) :
    ∃ heard joined, announce perform event s = some (s.grow heard joined) ∧
      Told event s.view s.deliveries s.observers s.observers heard joined :=
  foldlM_tell hperform hs

/-! ## loads and resets -/

/-- The file and then the values were announced, beginning in the store `s`; the
values were replaced in between.  Those who joined while the file was announced
hear of the values too. -/
structure Announced (s : SettingsStore) (values : Settings) (s' : SettingsStore) : Prop where
  listens : s'.Listens
  rounds : ∃ opening closing joined late,
    s' = { s with settings := values }.grow (opening ++ closing) (joined ++ late) ∧
    Told (.fileChanged s.file) s.view s.deliveries s.observers s.observers opening joined ∧
    Told .changed s'.view (s.deliveries ++ opening) (s.observers ++ joined)
      (s.observers ++ joined) closing late

namespace Announced

variable {values : Settings}

/-- Nothing else has changed. -/
theorem exists_eq (h : s.Announced values s') :
    ∃ heard joined, s' = { s with settings := values }.grow heard joined := by
  obtain ⟨opening, closing, joined, late, hs', -⟩ := h.rounds
  exact ⟨_, _, hs'⟩

theorem settings (h : s.Announced values s') : s'.settings = values := by
  obtain ⟨heard, joined, rfl⟩ := h.exists_eq
  rfl

theorem file (h : s.Announced values s') : s'.file = s.file := by
  obtain ⟨heard, joined, rfl⟩ := h.exists_eq
  rfl

theorem features (h : s.Announced values s') : s'.features = s.features := by
  obtain ⟨heard, joined, rfl⟩ := h.exists_eq
  rfl

theorem policy (h : s.Announced values s') : s'.policy = s.policy := by
  obtain ⟨heard, joined, rfl⟩ := h.exists_eq
  rfl

theorem heard (h : s.Announced values s') :
    ∃ opening closing joined, s'.deliveries = s.deliveries ++ opening ++ closing ∧
      Heard (.fileChanged s.file) s.observers s opening ∧
      Heard .changed (s.observers ++ joined) s' closing := by
  obtain ⟨opening, closing, joined, late, hs', hopening, hclosing⟩ := h.rounds
  refine ⟨opening, closing, joined, ?_, hopening.heard, hclosing.heard⟩
  rw [hs', List.append_assoc]
  rfl

end Announced

theorem announce_twice {values : Settings} {change : SettingsStore → SettingsStore}
    (hperform : Subscribes perform) (hs : s.Listens)
    (hchange : ∀ heard joined,
      change (s.grow heard joined) = { s with settings := values }.grow heard joined) :
    ∃ s', (announce perform (.fileChanged s.file) s).bind
        (fun t => announce perform .changed (change t)) = some s' ∧ s.Announced values s' := by
  obtain ⟨opening, joined, ht, hopening⟩ :=
    @announce_told s perform (.fileChanged s.file) hperform hs
  have hjoined : Listens ({ s with settings := values }.grow opening joined) :=
    listens_grow hs (hopening.quiet hs)
  obtain ⟨closing, late, hs', hclosing⟩ := @announce_told _ perform .changed hperform hjoined
  rw [grow_grow] at hs'
  refine ⟨{ s with settings := values }.grow (opening ++ closing) (joined ++ late), ?_, ?_, ?_⟩
  · rw [ht, Option.bind_some, hchange, hs']
  · rw [← grow_grow]
    exact listens_grow hjoined (hclosing.quiet hjoined)
  · exact ⟨opening, closing, joined, late, rfl, hopening, hclosing⟩

/-- A file that is rejected leaves nothing but a note. -/
theorem updateFrom_of_rejects {file : String} {content : FileContent}
    (h : Settings.Rejects s.policy content) :
    ∃ notices, updateFrom perform file content s = some (s.note notices) := by
  simp only [Settings.rejects_iff, ← Settings.load_eq_ok_iff] at h
  unfold updateFrom
  split
  · exact ⟨_, rfl⟩
  · split
    · exact ⟨_, rfl⟩
    · next heq => exact absurd (congrArg Prod.snd heq) (h _)

/-- A file that is accepted is announced, and its values after it, whoever
listens. -/
theorem updateFrom_eq {file : String} {content : FileContent} {values : Settings}
    (h : Settings.Accepts s.policy content values) :
    ∃ notices, updateFrom perform file content s =
      (announce perform (.fileChanged file) { s.note notices with file }).bind
        fun t => announce perform .changed { t with settings := values } := by
  rw [← Settings.load_eq_ok_iff] at h
  unfold updateFrom
  split
  · simp [Settings.load] at h
  · split
    · next heq => rw [heq] at h; contradiction
    · next notices loaded heq =>
      obtain rfl : loaded = values := by rw [heq] at h; exact Except.ok.inj h
      simp only [Settings.mergeFrom_eq]
      exact ⟨notices, rfl⟩

theorem updateFrom_of_accepts {file : String} {content : FileContent} {values : Settings}
    (hperform : Subscribes perform) (hs : s.Listens)
    (h : Settings.Accepts s.policy content values) :
    ∃ s' notices, updateFrom perform file content s = some s' ∧
      Announced { s.note notices with file } values s' := by
  obtain ⟨notices, heq⟩ := @updateFrom_eq s perform file content values h
  have hlistens : Listens { s.note notices with file } := hs
  obtain ⟨s', hs', hannounced⟩ :=
    @announce_twice _ perform values (fun t => { t with settings := values }) hperform hlistens
      fun _ _ => rfl
  exact ⟨s', notices, heq.trans hs', hannounced⟩

/-- A reset announces the file it leaves, when the values are the defaults
already. -/
theorem resetAll_of_listens (hperform : Subscribes perform) (hs : s.Listens) :
    ∃ s', resetAll perform s = some s' ∧
      Announced { s with settings := default, features := [] } default s' := by
  have hlistens : Listens { s with settings := default, features := [] } := hs
  obtain ⟨s', hs', hannounced⟩ :=
    @announce_twice _ perform default id hperform hlistens fun _ _ => rfl
  exact ⟨s', by rw [resetAll, Settings.mergeFrom_eq]; exact hs', hannounced⟩

end SettingsStore

end BslNav
