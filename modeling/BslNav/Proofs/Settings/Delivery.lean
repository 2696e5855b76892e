import BslNav.Proofs.Settings.Run

/-!
# BslNav.Proofs.Settings.Delivery

Which events a store announces, and who hears of them.

What happens on a store is kept in a log of entries: a subscription, or an event
with what was heard of it and who joined meanwhile.  Two things are said of such
a log.  Its outline (`outline`) is fixed by the calls alone: a file that is
accepted and a reset announce two events each, and nothing else announces any.
And it is `Faithful`: every event reaches those whom the log names before it,
each once and in the order of their subscriptions, and no one else.

* `Logs.append` — logs are put together as the calls are;
* `Outcome.exists_logs` — one call;
* `deliveries_run` — every run.
-/

namespace BslNav

/-! ## what calls announce -/

/-- What happens on a store, without what comes of it. -/
inductive Mark where
  | subscription (observer : Observer)
  | announcement (event : Event)

/-- The two events that name a file and say that its values are there. -/
def Mark.both (file : String) : List Mark :=
  [.announcement (.fileChanged file), .announcement .changed]

namespace Call

variable {policy : DriftPolicy} {c : Call} {file path : String}

/-- The file that a call announces, if any: one that it loads and the policy
accepts, or, if it is a reset, the file in force. -/
def announces? (policy : DriftPolicy) (file : String) (c : Call) : Option String :=
  match c.action with
  | .update path => (Settings.load policy (c.files path)).2.toOption.map fun _ => path
  | .reset => some file
  | _ => none

theorem announces?_of_loads {v : Settings} (h : c.Loads policy path v) :
    c.announces? policy file = some path := by
  obtain ⟨haction, haccepts⟩ := h
  rw [← Settings.load_eq_ok_iff] at haccepts
  rw [announces?, haction]
  simp only [haccepts]
  rfl

theorem announces?_of_reset (h : c.action = .reset) : c.announces? policy file = some file := by
  rw [announces?, h]

theorem announces?_eq_none (hload : ∀ path v, ¬ c.Loads policy path v)
    (hreset : c.action ≠ .reset) : c.announces? policy file = none := by
  unfold announces?
  split
  · next path haction =>
    cases hresult : (Settings.load policy (c.files path)).2 with
    | error e => rfl
    | ok v => exact absurd ⟨haction, Settings.load_eq_ok_iff.mp hresult⟩ (hload path v)
  · contradiction
  · rfl

/-- What the call leaves in the outline of a log. -/
def marks (policy : DriftPolicy) (file : String) (c : Call) : List Mark :=
  match c.action with
  | .subscribe o => [.subscription o]
  | _ => (c.announces? policy file).elim [] Mark.both

theorem marks_of_announces (h : c.announces? policy file = some path) :
    c.marks policy file = Mark.both path := by
  unfold marks
  split
  · next o haction => simp [announces?, haction] at h
  · rw [h]
    rfl

theorem marks_eq_nil (hsubscribe : ∀ o, c.action ≠ .subscribe o)
    (hload : ∀ path v, ¬ c.Loads policy path v) (hreset : c.action ≠ .reset) :
    c.marks policy file = [] := by
  unfold marks
  split
  · next o haction => exact absurd haction (hsubscribe o)
  · rw [announces?_eq_none hload hreset]
    rfl

/-- The file in force after the call. -/
def fileAfter (policy : DriftPolicy) (file : String) (c : Call) : String :=
  (c.announces? policy file).getD file

end Call

/-- The subscriptions and the events that calls make, `file` being in force
before them. -/
def outline (policy : DriftPolicy) (file : String) : List Call → List Mark
  | [] => []
  | c :: calls => c.marks policy file ++ outline policy (c.fileAfter policy file) calls

/-! ## logs -/

/-- What happened on a store. -/
inductive LogEntry where
  | subscription (observer : Observer)
  /-- An event, what was heard of it, and who joined while it was told. -/
  | announcement (event : Event) (heard : List Delivery) (joined : List Observer)

namespace LogEntry

def mark : LogEntry → Mark
  | subscription o => .subscription o
  | announcement event _ _ => .announcement event

def heard : LogEntry → List Delivery
  | subscription _ => []
  | announcement _ heard _ => heard

/-- Those who have subscribed. -/
def subscribers : LogEntry → List Observer
  | subscription o => [o]
  | announcement _ _ joined => joined

end LogEntry

namespace SettingsStore

variable {s s' t : SettingsStore} {policy : DriftPolicy} {c : Call} {log log' : List LogEntry}

/-- Each event of the log was told to those who were present when it began, once
and in order, and each of them could count who is present.  Those who joined
meanwhile are present at the next. -/
inductive Faithful : (past : List Delivery) → (present : List Observer) → List LogEntry → Prop
  | nil {past : List Delivery} {present : List Observer} : Faithful past present []
  | subscription {past : List Delivery} {present : List Observer} {o : Observer}
      {log : List LogEntry} (rest : Faithful past (present ++ [o]) log) :
      Faithful past present (.subscription o :: log)
  | announcement {past heard : List Delivery} {present joined : List Observer} {event : Event}
      {view : Nat → Sight} {log : List LogEntry} (counts : ∀ n, (view n).observers = n)
      (told : Told event view past present present heard joined)
      (rest : Faithful (past ++ heard) (present ++ joined) log) :
      Faithful past present (.announcement event heard joined :: log)

theorem Faithful.append {past : List Delivery} {present : List Observer}
    (h : Faithful past present log)
    (h' : Faithful (past ++ log.flatMap LogEntry.heard)
      (present ++ log.flatMap LogEntry.subscribers) log') :
    Faithful past present (log ++ log') := by
  induction h with
  | nil => simpa using h'
  | subscription _ ih =>
      exact .subscription (ih (by simpa [LogEntry.heard, LogEntry.subscribers] using h'))
  | announcement counts told _ ih =>
      exact .announcement counts told
        (ih (by simpa [LogEntry.heard, LogEntry.subscribers] using h'))

/-- The log says what was heard and who has subscribed from the store `s` on. -/
structure Logs (s : SettingsStore) (log : List LogEntry) (s' : SettingsStore) : Prop where
  deliveries : s'.deliveries = s.deliveries ++ log.flatMap LogEntry.heard
  observers : s'.observers = s.observers ++ log.flatMap LogEntry.subscribers
  faithful : Faithful s.deliveries s.observers log

theorem logs_nil (hdeliveries : s'.deliveries = s.deliveries)
    (hobservers : s'.observers = s.observers) : s.Logs [] s' :=
  ⟨by simpa using hdeliveries, by simpa using hobservers, .nil⟩

theorem Logs.append (h : s.Logs log t) (h' : t.Logs log' s') : s.Logs (log ++ log') s' where
  deliveries := by rw [h'.deliveries, h.deliveries, List.append_assoc, List.flatMap_append]
  observers := by rw [h'.observers, h.observers, List.append_assoc, List.flatMap_append]
  faithful := by
    have hrest := h'.faithful
    rw [h.deliveries, h.observers] at hrest
    exact h.faithful.append hrest

theorem logs_subscribe (s : SettingsStore) (o : Observer) :
    s.Logs [.subscription o] (s.subscribe o) := by
  rw [subscribe_eq_grow]
  exact ⟨rfl, rfl, .subscription .nil⟩

/-- The announcement may begin in another store with the same observers. -/
theorem Announced.exists_logs {values : Settings} (s : SettingsStore) (h : t.Announced values s')
    (hdeliveries : t.deliveries = s.deliveries) (hobservers : t.observers = s.observers) :
    ∃ log, s.Logs log s' ∧ log.map LogEntry.mark = Mark.both t.file := by
  obtain ⟨opening, closing, joined, late, hs', hopening, hclosing⟩ := h.rounds
  rw [hdeliveries, hobservers] at hopening hclosing
  refine ⟨[.announcement (.fileChanged t.file) opening joined, .announcement .changed closing late],
    ?_, rfl⟩
  constructor
  · simp [hs', grow, LogEntry.heard, hdeliveries]
  · simp [hs', grow, LogEntry.subscribers, hobservers]
  · exact .announcement (fun _ => rfl) hopening (.announcement (fun _ => rfl) hclosing .nil)

/-! ## calls -/

theorem fileAfter_eq (h : s.Effect c s') : s'.file = c.fileAfter s.policy s.file := by
  unfold Call.fileAfter
  by_cases hload : ∃ path v, c.Loads s.policy path v
  · obtain ⟨path, v, hv⟩ := hload
    rw [Call.announces?_of_loads hv, h.loaded path v hv, Option.getD_some]
  · have hnone : ∀ path v, ¬ c.Loads s.policy path v := fun path v hv => hload ⟨path, v, hv⟩
    rw [h.file_kept hnone]
    by_cases hreset : c.action = .reset
    · rw [Call.announces?_of_reset hreset, Option.getD_some]
    · rw [Call.announces?_eq_none hnone hreset, Option.getD_none]

/-- What one call leaves in the log. -/
theorem Outcome.exists_logs (h : s.Outcome c s') :
    ∃ log, s.Logs log s' ∧ log.map LogEntry.mark = c.marks s.policy s.file := by
  cases h with
  | set no_load no_reset no_subscribe _ _ =>
      have hloads : ∀ path v, ¬ c.Loads s.policy path v := fun path v h => no_load path h.1
      exact ⟨[], logs_nil rfl rfl, (Call.marks_eq_nil no_subscribe hloads no_reset).symm⟩
  | @joined o action_eq =>
      refine ⟨[.subscription o], logs_subscribe s o, ?_⟩
      rw [Call.marks, action_eq]
      rfl
  | rejected action_eq rejects =>
      have hloads := Call.not_loads_of_rejects action_eq rejects
      exact ⟨[], logs_nil rfl rfl,
        (Call.marks_eq_nil (by simp [action_eq]) hloads (by simp [action_eq])).symm⟩
  | loaded loads announced =>
      rw [Call.marks_of_announces (Call.announces?_of_loads loads)]
      exact announced.exists_logs s rfl rfl
  | restored action_eq announced =>
      rw [Call.marks_of_announces (Call.announces?_of_reset action_eq)]
      exact announced.exists_logs s rfl rfl

theorem Logs.run {nesting : Nat} {calls : List Call} (hs : s.Listens)
    (hcalls : ∀ c ∈ calls, c.Quiet) :
    ∃ s' log, s.run (nesting + 1) calls = some s' ∧ s.Logs log s' ∧
      log.map LogEntry.mark = outline s.policy s.file calls ∧
      s'.file = calls.foldl (Call.fileAfter s.policy) s.file := by
  induction calls generalizing s with
  | nil => exact ⟨s, [], rfl, logs_nil rfl rfl, rfl, rfl⟩
  | cons c calls ih =>
      obtain ⟨hc, hrest⟩ := List.forall_mem_cons.mp hcalls
      obtain ⟨t, ht, houtcome⟩ := exists_outcome nesting hs
      have heffect := houtcome.effect hs hc
      obtain ⟨before, hbefore, hmarks⟩ := houtcome.exists_logs
      obtain ⟨s', after, hs', hafter, houtline, hfile⟩ := ih heffect.listens hrest
      have hfileAfter := fileAfter_eq heffect
      rw [heffect.policy, hfileAfter] at houtline hfile
      refine ⟨s', before ++ after, ?_, hbefore.append hafter, ?_, hfile⟩
      · rw [SettingsStore.run, List.foldlM_cons, ht]
        exact hs'
      · rw [List.map_append, hmarks, houtline, outline]

/-- **Who hears of what.**  Every run of calls, with observers that do no more
than subscribe others, ends, and can be told as a log.  The events of the log are
those that the calls announce, in their order: a file that is accepted and then
its values, the file in force and then the values at a reset, and nothing at any
other call.  Each is heard by all who subscribed before it, once and in the order
of their subscriptions, and by no one else; those who subscribe meanwhile hear
what comes later.  The store counts the subscriptions. -/
theorem deliveries_run (policy : DriftPolicy) (nesting : Nat) (calls : List Call)
    (h : ∀ c ∈ calls, c.Quiet) :
    ∃ s log, (new policy).run (nesting + 1) calls = some s ∧
      log.map LogEntry.mark = outline policy defaultFile calls ∧
      s.file = calls.foldl (Call.fileAfter policy) defaultFile ∧
      Faithful [] [] log ∧ s.deliveries = log.flatMap LogEntry.heard ∧
      s.observers = log.flatMap LogEntry.subscribers ∧
      s.sight.observers = (log.flatMap LogEntry.subscribers).length := by
  have hlistens : (new policy).Listens := (settled_new policy).listens
  obtain ⟨s, log, hs, hlog, houtline, hfile⟩ := Logs.run hlistens h
  have hobservers : s.observers = log.flatMap LogEntry.subscribers := hlog.observers
  have hcount : s.sight.observers = (log.flatMap LogEntry.subscribers).length := by
    rw [← hobservers]
    rfl
  exact ⟨s, log, hs, houtline, hfile, hlog.faithful, hlog.deliveries, hobservers, hcount⟩

/-- An observer that brings in another whenever it is told of an event. -/
def invitingObserver : Observer := .mk "host" fun _ _ => [.subscribe (.listener "guest")]

theorem quiet_invitingObserver : invitingObserver.Quiet := by
  refine .intro fun past d a ha => ?_
  rw [List.mem_singleton.mp ha]
  exact .subscribe (Observer.quiet_listener "guest")

/-- A file that is loaded, one that is missing, and a reset. -/
def invitingCalls : List Call :=
  [⟨fun _ => .missing, .subscribe invitingObserver⟩,
    ⟨fun _ => .text "[\"en\"]", .update "settings.json"⟩,
    ⟨fun _ => .missing, .update "other.json"⟩,
    ⟨fun _ => .missing, .reset⟩]

/-- The host brings in a guest at each of the four events, and guests hear all
that comes after. -/
theorem deliveries_run_invitingCalls : (∀ c ∈ invitingCalls, c.Quiet) ∧
    ∃ s log, (new .warn).run 1 invitingCalls = some s ∧ Faithful [] [] log ∧
      log.map LogEntry.mark = .subscription invitingObserver ::
        (Mark.both "settings.json" ++ Mark.both "settings.json") ∧
      s.deliveries = log.flatMap LogEntry.heard ∧
      s.deliveries.map Delivery.observer =
        ["host", "host", "guest", "host", "guest", "guest", "host", "guest", "guest", "guest"] ∧
      s.sight.observers = 5 := by
  have hquiet : ∀ c ∈ invitingCalls, c.Quiet := by
    intro c hc o ho
    simp only [invitingCalls, List.mem_cons, List.not_mem_nil, or_false] at hc
    obtain rfl | rfl | rfl | rfl := hc <;> cases ho
    exact quiet_invitingObserver
  obtain ⟨s, log, hs, houtline, -, hfaithful, hdeliveries, -, -⟩ :=
    deliveries_run .warn 0 invitingCalls hquiet
  have hmarks : outline .warn defaultFile invitingCalls = .subscription invitingObserver ::
      (Mark.both "settings.json" ++ Mark.both "settings.json") := by rfl
  refine ⟨hquiet, s, log, hs, hfaithful, houtline.trans hmarks, hdeliveries, ?_⟩
  obtain rfl := Option.some.inj (hs.symm.trans (by rfl))
  exact ⟨by rfl, by rfl⟩

end SettingsStore

end BslNav
