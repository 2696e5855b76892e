import BslNav.Document.Version
import BslNav.Text.Range

/-!
# BslNav.Symbol.Basic

The declarations that usages refer to.

A symbol is either declared in a document, and then it has a place to navigate
to, or supplied by the platform, and then it has none.
-/

namespace BslNav

/-- What a declaration in source code declares. -/
inductive SymbolKind where
  | module | method | variable | parameter | region
deriving DecidableEq, Repr

/-- The name of the kind. -/
def SymbolKind.name : SymbolKind → String
  | .module => "Module"
  | .method => "Method"
  | .variable => "Variable"
  | .parameter => "Parameter"
  | .region => "Region"

def SymbolKind.all : List SymbolKind := [.module, .method, .variable, .parameter, .region]

/-- What a symbol of the platform provides. -/
inductive ExternalKind where
  | globalMethod | globalProperty | type
deriving DecidableEq, Repr

/-- The name of the kind. -/
def ExternalKind.name : ExternalKind → String
  | .globalMethod => "GlobalMethod"
  | .globalProperty => "GlobalProperty"
  | .type => "Type"

def ExternalKind.all : List ExternalKind := [.globalMethod, .globalProperty, .type]

/-- A declaration: the document that owns it, the range of the whole
declaration and, within that range, the range of the declared name. -/
structure SourceSymbol where
  name : String
  kind : SymbolKind
  owner : DocumentId
  range : Range
  selection : Range
  selection_within : range.containsRange selection = true
deriving DecidableEq, Repr

/-- A declaration, refused when the name lies outside the declared range. -/
def SourceSymbol.declare (name : String) (kind : SymbolKind) (owner : DocumentId)
    (range selection : Range) : Except Violation SourceSymbol :=
  if h : range.containsRange selection = true then .ok ⟨name, kind, owner, range, selection, h⟩
  else .error (.selectionOutside name selection range)

/-- A symbol of the platform. -/
structure ExternalSymbol where
  name : String
  kind : ExternalKind
deriving DecidableEq, Repr

/-- What a usage turns out to refer to. -/
inductive Symbol where
  | declared (symbol : SourceSymbol)
  | external (symbol : ExternalSymbol)
deriving DecidableEq, Repr

namespace Symbol

def name : Symbol → String
  | .declared s => s.name
  | .external s => s.name

/-- The declaration in source code, if there is one. -/
def declaration? : Symbol → Option SourceSymbol
  | .declared s => some s
  | .external _ => none

def isDeclared (s : Symbol) : Bool := s.declaration?.isSome

end Symbol

end BslNav
