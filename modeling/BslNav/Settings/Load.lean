import BslNav.Data.Sort
import BslNav.Notice
import BslNav.Settings.Section

/-!
# BslNav.Settings.Load

The settings of the server and how a settings file gives them.

A file is read as one JSON value first, then searched for keys that no section
declares, and then read as a record, fields in the order of their keys.  What
undeclared keys lead to is the matter of a `DriftPolicy`; the `parameters` of a
section are free-form and declare nothing.
-/

namespace BslNav

/-- The values a settings file gives. -/
structure Settings where
  language : Language
  diagnostics : DiagnosticsOptions
  codeLens : CodeLensOptions
  documentLink : DocumentLinkOptions
  /-- The file that traces are written to. -/
  traceLog : Option String
  /-- The directory to look for the project in. -/
  configurationRoot : Option String
deriving DecidableEq, Repr

instance : Inhabited Settings := ⟨⟨default, default, default, default, none, none⟩⟩

/-- What undeclared keys of a settings file lead to. -/
inductive DriftPolicy where
  | ignore
  /-- Each is reported and otherwise ignored. -/
  | warn
  /-- The file is rejected. -/
  | fail
deriving DecidableEq, Repr

instance : Inhabited DriftPolicy := ⟨.warn⟩

/-- The name of the policy. -/
def DriftPolicy.name : DriftPolicy → String
  | .ignore => "Ignore"
  | .warn => "Warn"
  | .fail => "Fail"

def DriftPolicy.all : List DriftPolicy := [.ignore, .warn, .fail]

namespace Settings

variable {β : Type} [Readable β]

def fields : List (Field β Settings) :=
  [.of "language" (Readable.choice Language) fun v s => { s with language := v },
   .of "diagnostics" DiagnosticsOptions.read fun v s => { s with diagnostics := v },
   .of "codeLens" CodeLensOptions.read fun v s => { s with codeLens := v },
   .of "documentLink" DocumentLinkOptions.read fun v s => { s with documentLink := v },
   .of "traceLog" Readable.string? fun v s => { s with traceLog := v },
   .of "configurationRoot" Readable.string? fun v s => { s with configurationRoot := v }]

/-- The settings that a piece of JSON holds. -/
def read (b : β) : Except DecodeError Settings := Record.read fields default b

/-- The keys that a settings file declares; `$schema` is for editors. -/
def keys : List String :=
  ["$schema", "language", "diagnostics", "codeLens", "documentLink", "traceLog",
    "configurationRoot"]

/-- The keys declared in the section under a key. -/
def sectionKeys? : String → Option (List String)
  | "diagnostics" => some DiagnosticsOptions.keys
  | "codeLens" => some CodeLensOptions.keys
  | "documentLink" => some DocumentLinkOptions.keys
  | _ => none

/-- The undeclared keys that a member of the root brings: its own, or those
inside it, each after the key of the section and a dot. -/
def undeclaredIn (key : String) (value : Json) : List String :=
  if key ∈ keys then
    match sectionKeys? key, value with
    | some declared, .object members =>
        (members.map Prod.fst).filterMap fun inner =>
          if inner ∈ declared then none else some (key ++ "." ++ inner)
    | _, _ => []
  else [key]

/-- The undeclared keys of a settings file, sorted.  Only objects are searched,
so a root written as an array has none. -/
def undeclared : Json → List String
  | .object members =>
      sortBy (fun a b => decide (a ≤ b)) (members.flatMap fun (key, value) => undeclaredIn key value)
  | _ => []

/-- The settings after they have taken over the values of others, section by
section. -/
def mergeFrom (s other : Settings) : Settings :=
  { s with
    language := other.language
    diagnostics := s.diagnostics.mergeFrom other.diagnostics
    codeLens := s.codeLens.mergeFrom other.codeLens
    documentLink := s.documentLink.mergeFrom other.documentLink
    traceLog := other.traceLog
    configurationRoot := other.configurationRoot }

@[simp] theorem mergeFrom_eq (s other : Settings) : s.mergeFrom other = other := by
  simp [mergeFrom]

end Settings

/-! ## files -/

/-- What a path leads to when it is read. -/
inductive FileContent where
  | missing
  /-- It exists, and cannot be read as text. -/
  | unreadable
  | text (content : String)
deriving DecidableEq, Repr

/-- Why a file gives no settings. -/
inductive LoadError where
  | unreadable
  | json (e : DecodeError)
  | drift (keys : List String)
deriving DecidableEq, Repr

/-- What the log says about settings files. -/
inductive SettingsNotice where
  | noFile
  | undeclaredKey (key : String)
  | rejected (e : LoadError)
deriving DecidableEq, Repr

def SettingsNotice.level : SettingsNotice → Level
  | .noFile => .debug
  | .undeclaredKey _ => .warn
  | .rejected _ => .error

def SettingsNotice.message : SettingsNotice → String
  | .noFile => "configuration file does not exist"
  | .undeclaredKey _ => "unknown configuration key ignored"
  | .rejected _ => "can't deserialize configuration file"

namespace Settings

/-- The undeclared keys that are reported. -/
def reported (policy : DriftPolicy) (value : Json) : List SettingsNotice :=
  match policy with
  | .warn => (undeclared value).map .undeclaredKey
  | _ => []

/-- The settings of a file that is one JSON value. -/
def ofValue (policy : DriftPolicy) (value : Json) : Except LoadError Settings :=
  if policy = .fail ∧ undeclared value ≠ [] then .error (.drift (undeclared value))
  else
    match read value with
    | .ok s => .ok s
    | .error e => .error (.json e)

/-- The settings of a file, after what is to be reported of it. -/
def load (policy : DriftPolicy) : FileContent → List SettingsNotice × Except LoadError Settings
  | .text content =>
      match Json.ofText? content with
      | some value => (reported policy value, ofValue policy value)
      | none => ([], .error (.json .malformed))
  | _ => ([], .error .unreadable)

end Settings

end BslNav
