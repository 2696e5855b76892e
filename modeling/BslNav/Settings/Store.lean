import BslNav.Settings.Load

/-!
# BslNav.Settings.Store

The settings in force, and who is told when they change.

A store holds the settings, the file they came from, the features a client has
switched on, and the observers.  Loading a file and resetting announce two
events, first that the file is set and then that the values are; setters
announce nothing.  An event goes to the observers that are subscribed when its
announcement begins, in the order of subscription.

An observer answers a delivery with actions on the store, which take effect
before the next observer hears of the event.  Among them may be another load,
which announces events of its own: the budget `nesting` bounds how deep such
loads may lie within each other, and an action that exceeds it has no result.
-/

namespace BslNav

/-- What observers are told. -/
inductive Event where
  /-- The settings file is the one named. -/
  | fileChanged (file : String)
  /-- The values are replaced. -/
  | changed
deriving DecidableEq, Repr

/-- What an observer can see of the store. -/
structure Sight where
  settings : Settings
  file : String
  features : List Feature
  observers : Nat
deriving DecidableEq, Repr

/-- The features switched on, each once, in the order in which `Feature` lists
them. -/
def Sight.enabled (s : Sight) : List Feature :=
  (@Choice.all Feature _).filter fun f => f ∈ s.features

/-- An event reaching an observer: who, what, and what the store looked like to
them. -/
structure Delivery where
  observer : String
  event : Event
  sight : Sight
deriving DecidableEq, Repr

mutual

/-- What can be done to a store. -/
inductive Action where
  | setLanguage (language : Language)
  | setTraceLog (file : Option String)
  | setConfigurationRoot (directory : Option String)
  | addFeature (feature : Feature)
  | subscribe (observer : Observer)
  | update (file : String)
  | reset

/-- Someone who is told of events.  What they do may depend on all that was
delivered on this store before, as well as on the delivery at hand. -/
inductive Observer where
  | mk (name : String) (react : List Delivery → Delivery → List Action)

end

namespace Observer

def name : Observer → String
  | mk name _ => name

def react : Observer → List Delivery → Delivery → List Action
  | mk _ react => react

/-- An observer that only listens. -/
def listener (name : String) : Observer := mk name fun _ _ => []

end Observer

/-- The settings in force, their source, and those who observe them.  What was
delivered and what was noted for the log is kept, oldest first. -/
structure SettingsStore where
  settings : Settings
  file : String
  features : List Feature
  observers : List Observer
  policy : DriftPolicy
  deliveries : List Delivery
  notices : List SettingsNotice

namespace SettingsStore

/-- The file name that stands for the settings of a project. -/
def defaultFile : String := ".bsl-language-server.json"

/-- Default settings, observed by no one. -/
def new (policy : DriftPolicy) : SettingsStore := ⟨default, defaultFile, [], [], policy, [], []⟩

instance : Inhabited SettingsStore := ⟨new default⟩

def sight (s : SettingsStore) : Sight := ⟨s.settings, s.file, s.features, s.observers.length⟩

def hasFeature (s : SettingsStore) (f : Feature) : Bool := f ∈ s.features

/-- How the description of a store ends, after the values. -/
def summary (s : SettingsStore) : String :=
  s!", drift_policy: {s.policy.name}, observers: {s.observers.length} \x7d"

def subscribe (s : SettingsStore) (o : Observer) : SettingsStore :=
  { s with observers := s.observers ++ [o] }

def note (s : SettingsStore) (notices : List SettingsNotice) : SettingsStore :=
  { s with notices := s.notices ++ notices }

def deliver (s : SettingsStore) (d : Delivery) : SettingsStore :=
  { s with deliveries := s.deliveries ++ [d] }

/-! ## announcing -/

/-- How actions are carried out: no result when loads lie too deep. -/
abbrev Performer := Action → SettingsStore → Option SettingsStore

/-- Tell one observer of an event and carry out what they answer. -/
def tell (perform : Performer) (event : Event) (s : SettingsStore) (o : Observer) :
    Option SettingsStore :=
  let d : Delivery := ⟨o.name, event, s.sight⟩
  (o.react s.deliveries d).foldlM (fun s action => perform action s) (s.deliver d)

/-- Tell an event to everyone who is subscribed now. -/
def announce (perform : Performer) (event : Event) (s : SettingsStore) : Option SettingsStore :=
  s.observers.foldlM (tell perform event) s

/-- Load a file.  A file that does not exist or is rejected changes nothing but
the log; an accepted one sets the file, then merges the values into those in
force, and announces each. -/
def updateFrom (perform : Performer) (file : String) (content : FileContent)
    (s : SettingsStore) : Option SettingsStore :=
  match content with
  | .missing => some (s.note [.noFile])
  | content =>
      match Settings.load s.policy content with
      | (notices, .error e) => some (s.note (notices ++ [.rejected e]))
      | (notices, .ok settings) => do
          let s := { s.note notices with file }
          let s ← announce perform (.fileChanged file) s
          announce perform .changed { s with settings := s.settings.mergeFrom settings }

/-- Restore the defaults and switch all features off.  The file stays, and both
events are announced. -/
def resetAll (perform : Performer) (s : SettingsStore) : Option SettingsStore := do
  let s := { s with settings := s.settings.mergeFrom default, features := [] }
  let s ← announce perform (.fileChanged s.file) s
  announce perform .changed s

/-- Carry out an action, with `files` as the contents of all files.  Loads and
resets within each other use up `nesting`. -/
def perform (files : String → FileContent) : (nesting : Nat) → Performer
  | _, .setLanguage language, s =>
      some { s with settings := { s.settings with language } }
  | _, .setTraceLog traceLog, s =>
      some { s with settings := { s.settings with traceLog } }
  | _, .setConfigurationRoot configurationRoot, s =>
      some { s with settings := { s.settings with configurationRoot } }
  | _, .addFeature f, s => some { s with features := s.features.insert f }
  | _, .subscribe o, s => some (s.subscribe o)
  | 0, .update _, _ => none
  | nesting + 1, .update file, s =>
      updateFrom (perform files nesting) file (files file) s
  | 0, .reset, _ => none
  | nesting + 1, .reset, s => resetAll (perform files nesting) s

end SettingsStore

end BslNav
