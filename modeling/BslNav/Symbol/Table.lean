import BslNav.Data.OrderedMap
import BslNav.Symbol.Basic
import BslNav.Symbol.DefId
import BslNav.Text.LowerCase

/-!
# BslNav.Symbol.Table

The declarations of one version of a document.

Symbols are numbered in the order of declaration, and the table issues the id
of each slot under its own version.  An id is followed only if this version
issued it.  Names are looked up without regard to case, through an index from
the lower-cased name to the slots declared under it.
-/

namespace BslNav

/-- The symbols one analysis pass found in its document. -/
structure SymbolTable where
  version : Version
  symbols : Array SourceSymbol
  /-- The slots declared under each lower-cased name, in order. -/
  slots : OrderedMap String (List Nat)

namespace SymbolTable

/-- The table of a version that declares nothing. -/
def empty (version : Version) : SymbolTable := ⟨version, #[], ∅⟩

@[simp] theorem version_empty (version : Version) : (empty version).version = version := rfl

def document (t : SymbolTable) : DocumentId := t.version.document

def generation (t : SymbolTable) : Generation := t.version.generation

/-- The id that this table issues for a slot. -/
def defId (t : SymbolTable) (slot : Nat) : DefId := ⟨t.document, t.generation, slot⟩

def size (t : SymbolTable) : Nat := t.symbols.size

def isEmpty (t : SymbolTable) : Bool := t.symbols.isEmpty

/-- Declare a symbol in the next slot.  Symbols of other documents are
refused. -/
def insert (t : SymbolTable) (s : SourceSymbol) : Except Violation (DefId × SymbolTable) :=
  if s.owner = t.document then
    let key := lowerCase s.name
    .ok (t.defId t.size,
      { t with
        symbols := t.symbols.push s
        slots := t.slots.insert key ((t.slots.get? key).getD [] ++ [t.size]) })
  else .error (.foreignSymbol s.name)

/-- The symbol in a slot. -/
def get? (t : SymbolTable) (slot : Nat) : Option SourceSymbol := t.symbols[slot]?

/-- The symbol an id stands for.  Ids of other documents and of other passes
stand for nothing here. -/
def resolve (t : SymbolTable) (d : DefId) : Option SourceSymbol :=
  if d.isCurrentFor t.version then t.get? d.slot else none

/-- The ids of all symbols declared under a name, whatever its case, in order
of declaration. -/
def lookup (t : SymbolTable) (name : String) : List DefId :=
  ((t.slots.get? (lowerCase name)).getD []).map t.defId

/-- All symbols with their ids, in order of declaration. -/
def toList (t : SymbolTable) : List (DefId × SourceSymbol) :=
  t.symbols.toList.zipIdx.map fun (s, slot) => (t.defId slot, s)

@[simp] theorem ownerVersion_defId (t : SymbolTable) (slot : Nat) :
    (t.defId slot).ownerVersion = t.version := rfl

@[simp] theorem resolve_defId (t : SymbolTable) (slot : Nat) :
    t.resolve (t.defId slot) = t.get? slot := by
  simp [resolve, defId, DefId.isCurrentFor, DefId.ownerVersion, document, generation]

theorem length_toList (t : SymbolTable) : t.toList.length = t.size := by
  simp [toList, size]

end SymbolTable

end BslNav
