/-!
# BslNav.Settings.Choice

Settings that take one of a few named values.

A `Choice` type lists its values with the spelling a settings file uses for
each.  A written value is compared with the spellings up to ASCII case; the
first that agrees is meant, and a value that agrees with none is an
`UnknownValue`.
-/

namespace BslNav

/-- A type whose values are named in settings files. -/
class Choice (α : Type) where
  /-- How messages call the type. -/
  typeName : String
  /-- The values, in the order in which spellings are tried. -/
  all : List α
  /-- How messages call a value. -/
  name : α → String
  /-- How settings files spell a value. -/
  spelling : α → String

/-- A written value that no spelling of the type agrees with. -/
structure UnknownValue where
  typeName : String
  text : String
deriving DecidableEq, Repr

def UnknownValue.message (e : UnknownValue) : String :=
  s!"unknown {e.typeName} value `{e.text}`"

/-- Letters A to Z folded to lower case; every other character stands for
itself. -/
def asciiFold (text : String) : List Char := text.toList.map Char.toLower

/-- The two texts agree but for the case of the letters A to Z. -/
def eqIgnoringCase (s t : String) : Bool := asciiFold s == asciiFold t

@[simp] theorem eqIgnoringCase_iff {s t : String} :
    eqIgnoringCase s t = true ↔ asciiFold s = asciiFold t := by
  simp [eqIgnoringCase]

namespace Choice

/-- The value that a written text means. -/
def parse (α : Type) [Choice α] (text : String) : Except UnknownValue α :=
  match (@all α _).find? (fun value => eqIgnoringCase text (spelling value)) with
  | some value => .ok value
  | none => .error ⟨typeName α, text⟩

/-- Only the folded text matters, but for the error, which quotes the text. -/
theorem parse_congr {α : Type} [Choice α] {s t : String} {a : α}
    (h : asciiFold s = asciiFold t) (ha : parse α s = .ok a) : parse α t = .ok a := by
  unfold parse at *
  simp only [eqIgnoringCase, h] at ha ⊢
  split at ha <;> simp_all

end Choice

/-! ## the choices of a settings file -/

/-- The language of diagnostics and other output. -/
inductive Language where
  | russian | english
deriving DecidableEq, Repr

instance : Inhabited Language := ⟨.russian⟩

instance : Choice Language where
  typeName := "Language"
  all := [.russian, .english]
  name
    | .russian => "Russian"
    | .english => "English"
  spelling
    | .russian => "ru"
    | .english => "en"

/-- When diagnostics are computed again. -/
inductive ComputeTrigger where
  | onType | onSave | never
deriving DecidableEq, Repr

instance : Inhabited ComputeTrigger := ⟨.onSave⟩

instance : Choice ComputeTrigger where
  typeName := "ComputeTrigger"
  all := [.onType, .onSave, .never]
  name
    | .onType => "OnType"
    | .onSave => "OnSave"
    | .never => "Never"
  spelling
    | .onType => "onType"
    | .onSave => "onSave"
    | .never => "never"

/-- Which modules under vendor support are left out of analysis. -/
inductive SkipSupport where
  | withSupport | withSupportLocked | never
deriving DecidableEq, Repr

instance : Inhabited SkipSupport := ⟨.never⟩

instance : Choice SkipSupport where
  typeName := "SkipSupport"
  all := [.withSupport, .withSupportLocked, .never]
  name
    | .withSupport => "WithSupport"
    | .withSupportLocked => "WithSupportLocked"
    | .never => "Never"
  spelling
    | .withSupport => "withSupport"
    | .withSupportLocked => "withSupportLocked"
    | .never => "never"

/-- Which diagnostics are enabled. -/
inductive DiagnosticsMode where
  | off | on | all | only | except
deriving DecidableEq, Repr

instance : Inhabited DiagnosticsMode := ⟨.on⟩

instance : Choice DiagnosticsMode where
  typeName := "DiagnosticsMode"
  all := [.off, .on, .all, .only, .except]
  name
    | .off => "Off"
    | .on => "On"
    | .all => "All"
    | .only => "Only"
    | .except => "Except"
  spelling
    | .off => "off"
    | .on => "on"
    | .all => "all"
    | .only => "only"
    | .except => "except"

/-- A capability of the server that a client has switched on. -/
inductive Feature where
  | definition | diagnostics | codeLens | documentLink | hover
deriving DecidableEq, Repr

instance : Choice Feature where
  typeName := "LspFeature"
  all := [.definition, .diagnostics, .codeLens, .documentLink, .hover]
  name
    | .definition => "Definition"
    | .diagnostics => "Diagnostics"
    | .codeLens => "CodeLens"
    | .documentLink => "DocumentLink"
    | .hover => "Hover"
  spelling
    | .definition => "definition"
    | .diagnostics => "diagnostics"
    | .codeLens => "codeLens"
    | .documentLink => "documentLink"
    | .hover => "hover"

end BslNav
