import BslNav.Settings.Decode

/-!
# BslNav.Settings.Section

The sections of a settings file.

Each section is a record with a default for every field, a list of its fields
in the order of declaration, and a JSON form in which all fields are present.
A section in force takes over the values of a new one field by field, and
nothing of what it held is left (`mergeFrom_eq`).
-/

namespace BslNav

/-- The `diagnostics` section. -/
structure DiagnosticsOptions where
  computeTrigger : ComputeTrigger
  skipSupport : SkipSupport
  mode : DiagnosticsMode
  ordinaryAppSupport : Bool
  /-- Settings of single diagnostics, by their codes. -/
  parameters : JsonMap
deriving DecidableEq, Repr

instance : Inhabited DiagnosticsOptions := ⟨⟨default, default, default, true, ∅⟩⟩

/-- The `codeLens` section. -/
structure CodeLensOptions where
  /-- Settings of single lenses, by their ids. -/
  parameters : JsonMap
deriving DecidableEq, Repr

instance : Inhabited CodeLensOptions := ⟨⟨∅⟩⟩

/-- The `documentLink` section. -/
structure DocumentLinkOptions where
  showDiagnosticDescription : Bool
deriving DecidableEq, Repr

instance : Inhabited DocumentLinkOptions := ⟨⟨false⟩⟩

/-- The JSON form of a named value. -/
def Choice.toJson {α : Type} [Choice α] (a : α) : Json := .string (spelling a)

namespace DiagnosticsOptions

variable {β : Type} [Readable β]

def fields : List (Field β DiagnosticsOptions) :=
  [.of "computeTrigger" (Readable.choice ComputeTrigger) fun v s => { s with computeTrigger := v },
   .of "skipSupport" (Readable.choice SkipSupport) fun v s => { s with skipSupport := v },
   .of "mode" (Readable.choice DiagnosticsMode) fun v s => { s with mode := v },
   .of "ordinaryAppSupport" Readable.bool fun v s => { s with ordinaryAppSupport := v },
   .of "parameters" Readable.members fun v s => { s with parameters := v }]

/-- The section that a piece of JSON holds. -/
def read (b : β) : Except DecodeError DiagnosticsOptions := Record.read fields default b

/-- The JSON form. -/
def toJson (s : DiagnosticsOptions) : Json :=
  .object [("computeTrigger", Choice.toJson s.computeTrigger), ("mode", Choice.toJson s.mode),
    ("ordinaryAppSupport", .bool s.ordinaryAppSupport), ("parameters", s.parameters.toJson),
    ("skipSupport", Choice.toJson s.skipSupport)]

/-- The keys that the section declares. -/
def keys : List String :=
  ["computeTrigger", "skipSupport", "mode", "ordinaryAppSupport", "parameters"]

theorem map_key_fields : (@fields β _).map Field.key = keys := rfl

/-- The section after it has taken over the values of another. -/
def mergeFrom (s other : DiagnosticsOptions) : DiagnosticsOptions :=
  { s with
    computeTrigger := other.computeTrigger, skipSupport := other.skipSupport, mode := other.mode,
    ordinaryAppSupport := other.ordinaryAppSupport, parameters := other.parameters }

@[simp] theorem mergeFrom_eq (s other : DiagnosticsOptions) : s.mergeFrom other = other := rfl

end DiagnosticsOptions

namespace CodeLensOptions

variable {β : Type} [Readable β]

def fields : List (Field β CodeLensOptions) :=
  [.of "parameters" Readable.members fun v s => { s with parameters := v }]

/-- The section that a piece of JSON holds. -/
def read (b : β) : Except DecodeError CodeLensOptions := Record.read fields default b

/-- The JSON form. -/
def toJson (s : CodeLensOptions) : Json := .object [("parameters", s.parameters.toJson)]

/-- The keys that the section declares. -/
def keys : List String := ["parameters"]

theorem map_key_fields : (@fields β _).map Field.key = keys := rfl

/-- The section after it has taken over the values of another. -/
def mergeFrom (s other : CodeLensOptions) : CodeLensOptions :=
  { s with parameters := other.parameters }

@[simp] theorem mergeFrom_eq (s other : CodeLensOptions) : s.mergeFrom other = other := rfl

end CodeLensOptions

namespace DocumentLinkOptions

variable {β : Type} [Readable β]

def fields : List (Field β DocumentLinkOptions) :=
  [.of "showDiagnosticDescription" Readable.bool
    fun v s => { s with showDiagnosticDescription := v }]

/-- The section that a piece of JSON holds. -/
def read (b : β) : Except DecodeError DocumentLinkOptions := Record.read fields default b

/-- The JSON form. -/
def toJson (s : DocumentLinkOptions) : Json :=
  .object [("showDiagnosticDescription", .bool s.showDiagnosticDescription)]

/-- The keys that the section declares. -/
def keys : List String := ["showDiagnosticDescription"]

theorem map_key_fields : (@fields β _).map Field.key = keys := rfl

/-- The section after it has taken over the values of another. -/
def mergeFrom (s other : DocumentLinkOptions) : DocumentLinkOptions :=
  { s with showDiagnosticDescription := other.showDiagnosticDescription }

@[simp] theorem mergeFrom_eq (s other : DocumentLinkOptions) : s.mergeFrom other = other := rfl

end DocumentLinkOptions

end BslNav
