import BslNav.Proofs.Reference.Lookup
import BslNav.Proofs.Workspace.Lifetime
import BslNav.Workspace.Definition

/-!
# BslNav.Proofs.Workspace.Navigation

From a position to the usage there, and on to its declaration.

Every answer is traced back to what the passes of a run recorded and declared:
the usage to the pass the queried uri shows, the declaration to the pass its
owner shows.  The ranges of the recorded usages are those that `Range.between`
makes; everything else about the passes is arbitrary.
-/

namespace BslNav

namespace Workspace

/-! ## the steps of a request -/

variable {ops : List Operation}

/-- Every recorded range was made by `Range.between`, which refuses a range that
is the wrong way round. -/
def RangesChecked (ops : List Operation) : Prop :=
  ∀ a, .offer a ∈ ops → ∀ o ∈ a.recorded,
    ∃ start stop, Range.between start stop = .ok o.range

theorem RangesChecked.valid (h : RangesChecked ops) {a : Analysis} (ha : .offer a ∈ ops) :
    ∀ o ∈ a.recorded, o.range.Valid := by
  intro o ho
  obtain ⟨start, stop, hrange⟩ := h a ha o ho
  exact (Range.between_eq_ok_iff.1 hrange).2

/-- The method that the first document declares. -/
def sampleMethod : SourceSymbol where
  name := "Foo"
  kind := .method
  owner := ⟨0⟩
  range := ⟨⟨3, 0⟩, ⟨5, 1⟩⟩
  selection := ⟨⟨3, 10⟩, ⟨3, 13⟩⟩
  selection_within := by decide

def sampleTable : SymbolTable where
  version := ⟨⟨0⟩, ⟨1⟩⟩
  symbols := #[sampleMethod]
  slots := (∅ : OrderedMap String (List Nat)).insert (lowerCase sampleMethod.name) [0]

theorem declares_sampleTable : sampleTable.Declares [sampleMethod] :=
  .insert (s := sampleMethod) (d := ⟨⟨0⟩, ⟨1⟩, 0⟩) (.empty ⟨⟨0⟩, ⟨1⟩⟩) rfl

def sampleOwner : Analysis where
  snapshot := ⟨⟨⟨0⟩, ⟨1⟩⟩, "owner", 0, "", .ofText "", .node .module [], sampleTable, .empty,
    rfl, rfl⟩
  declared := [sampleMethod]
  recorded := []
  finished := ⟨⟨⟨⟨0⟩, ⟨1⟩⟩, "owner", "", .node .module [], 0, sampleTable, [], rfl⟩,
    .useTable (.start ⟨⟨0⟩, ⟨1⟩⟩ "owner" "" (.node .module [])) declares_sampleTable rfl, rfl⟩

/-- A snapshot of an empty text, with no symbols and no usages. -/
def blankSnapshot (version : Version) (uri : String) : Snapshot :=
  ⟨version, uri, 0, "", .ofText "", .node .module [], .empty version, .empty, rfl,
    SymbolTable.version_empty version⟩

end Workspace

end BslNav
